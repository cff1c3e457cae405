import ModelStore.Noted
import ModelStore.Store.Scan
import ModelStore.Store.Site

/-! Programs over the store. A program is a tree: it ends with a result, makes a remark,
makes one call and goes on with what comes of it, or runs a scan and goes on with what the
scan found. A scan is a single node, because the number of its pages is up to the store;
`settle` unfolds it one request at a time. -/

namespace ModelStore

inductive Program (α : Type) : Type where
  | done (result : Except Fault α)
  | remark (w : Warning) (rest : Program α)
  | ask (c : Call) (go : Exchange → Program α)
  | scan (s : Scan) (go : Except Fault (List Value) → Program α)

namespace Program

variable {α β γ : Type}

/-- Goes on with the result, whether it is a value or a fault. -/
def andThen (f : Except Fault α → Program β) : Program α → Program β
  | done r => f r
  | remark w rest => remark w (andThen f rest)
  | ask c go => ask c fun r => andThen f (go r)
  | scan s go => scan s fun r => andThen f (go r)

def bind (p : Program α) (f : α → Program β) : Program β :=
  p.andThen fun
    | .ok a => f a
    | .error e => done (.error e)

instance : Monad Program where
  pure a := done (.ok a)
  bind := bind

def fail (f : Fault) : Program α := done (.error f)

def ofExcept (r : Except Fault α) : Program α := done r

def ofNoted (x : Noted α) : Program α := x.warnings.foldr remark (done x.outcome)

/-- The result as a value, be it a fault. -/
def attempt (p : Program α) : Program (Except Fault α) := p.andThen fun r => done (.ok r)

/-- Goes another way on some faults. -/
def rescue (p : Program α) (f : Fault → Program α) : Program α :=
  p.andThen fun
    | .ok a => done (.ok a)
    | .error e => f e

/-- Tells what an error status means in other words. -/
def retell (p : Program α) (f : HttpFault → HttpFault) : Program α :=
  p.rescue fun
    | .http e => fail (.http (f e))
    | e => fail e

def request (c : Call) : Program Value := ask c fun x => done (x.value c)

def answer (c : Call) : Program Answer := ask c fun x => done (x.accepted c)

def find (s : Scan) : Program (List Value) := scan s done

/-- The results of programs run one after the other, faults among them. -/
def collect : List (Program α) → Program (List (Except Fault α))
  | [] => pure []
  | p :: ps => do
    let r ← p.attempt
    let rs ← collect ps
    pure (r :: rs)

/-- Where a program stands after what it can do by itself. -/
inductive Settled (α : Type) where
  | finished (result : Except Fault α)
  | sending (r : Request) (go : Reply → Program α)

def afterPage (s : Scan) (c : Call) (go : Except Fault (List Value) → Program α)
    (x : Exchange) : Program α :=
  match s.receive c x with
  | .inl found => go found
  | .inr s => scan s go

/-- The remarks made up to the next request to a site, and that request. A call that cannot
be sent is refused at once. -/
def settle (site : Except Fault Site) : Program α → List Warning × Settled α
  | done r => ([], .finished r)
  | remark w rest =>
    let (ws, s) := settle site rest
    (w :: ws, s)
  | ask c go =>
    match site.bind (·.request c) with
    | .error f => settle site (go (.refused f))
    | .ok r => ([], .sending r fun reply => go (r.exchange reply))
  | scan s go =>
    match s.next with
    | .ended r => settle site (go r)
    | .ask c =>
      match site.bind (·.request c) with
      | .error f => settle site (go (.error f))
      | .ok r => ([], .sending r fun reply => afterPage s c go (r.exchange reply))

theorem settle_ask (site : Except Fault Site) (c : Call) (go : Exchange → Program α) :
    (∃ f, site.bind (·.request c) = .error f ∧
      (ask c go).settle site = (go (.refused f)).settle site) ∨
    ∃ q, site.bind (·.request c) = .ok q ∧
      (ask c go).settle site = ([], .sending q fun reply => go (q.exchange reply)) := by
  cases sent : site.bind (·.request c) with
  | error f => exact .inl ⟨f, rfl, by rw [settle, sent]⟩
  | ok q => exact .inr ⟨q, rfl, by rw [settle, sent]⟩

theorem settle_scan (site : Except Fault Site) (s : Scan)
    (go : Except Fault (List Value) → Program α) :
    (∃ r, s.next = .ended r ∧ (scan s go).settle site = (go r).settle site) ∨
    (∃ c f, s.next = .ask c ∧ site.bind (·.request c) = .error f ∧
      (scan s go).settle site = (go (.error f)).settle site) ∨
    ∃ c q, s.next = .ask c ∧ site.bind (·.request c) = .ok q ∧
      (scan s go).settle site =
        ([], .sending q fun reply => afterPage s c go (q.exchange reply)) := by
  cases next : s.next with
  | ended r => exact .inl ⟨r, rfl, by rw [settle, next]⟩
  | ask c =>
    cases sent : site.bind (·.request c) with
    | error f => exact .inr (.inl ⟨c, f, rfl, sent, by simp only [settle, next, sent]⟩)
    | ok q => exact .inr (.inr ⟨c, q, rfl, sent, by simp only [settle, next, sent]⟩)

@[simp] theorem pure_def (a : α) : (pure a : Program α) = done (.ok a) := rfl

theorem bind_def (p : Program α) (f : α → Program β) : (p >>= f) = p.bind f := rfl

@[simp] theorem bind_done_ok (a : α) (f : α → Program β) :
    (done (.ok a) : Program α).bind f = f a :=
  rfl

@[simp] theorem bind_done_error (e : Fault) (f : α → Program β) :
    (done (.error e) : Program α).bind f = done (.error e) := rfl

theorem andThen_andThen (p : Program α) (f : Except Fault α → Program β)
    (g : Except Fault β → Program γ) :
    (p.andThen f).andThen g = p.andThen fun r => (f r).andThen g := by
  induction p with
  | done r => rfl
  | remark w rest ih => simp only [andThen, ih]
  | ask c go ih => simp only [andThen, ih]
  | scan s go ih => simp only [andThen, ih]

theorem andThen_done (p : Program α) : p.andThen done = p := by
  induction p with
  | done r => rfl
  | remark w rest ih => simp only [andThen, ih]
  | ask c go ih => simp only [andThen, ih]
  | scan s go ih => simp only [andThen, ih]

theorem bind_bind (p : Program α) (f : α → Program β) (g : β → Program γ) :
    (p.bind f).bind g = p.bind fun a => (f a).bind g := by
  unfold bind
  rw [andThen_andThen]
  congr 1
  funext r
  cases r <;> rfl

theorem bind_done (p : Program α) : (p.bind fun a => done (.ok a)) = p := by
  refine Eq.trans ?_ (andThen_done p)
  unfold bind
  congr 1
  funext r
  cases r <;> rfl

instance : LawfulMonad Program :=
  LawfulMonad.mk' Program bind_done (fun _ _ => rfl) bind_bind

end Program

end ModelStore
