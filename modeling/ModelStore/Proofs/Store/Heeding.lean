import ModelStore.Proofs.Store.Posting
import ModelStore.Proofs.Store.Serving

/-! Programs that heed the calls that fail. What may come of a program after a failed call is told
by that call and by the exchanges before it. It is shown step by step for the tree of a program, and
holds then for every run, whatever the replies are. -/

namespace ModelStore

namespace Exchange

/-- Whether a call was not accepted: it got no answer, or one with an error status. A fault that
passes for an answer about a missing document is not counted. -/
def fails : Exchange → Bool
  | refused f => !f.isNotFound
  | failed _ => true
  | answered _ a => a.isError

def IsMissing (x : Exchange) : Prop := ∃ path a, x = answered path a ∧ a.status = 404

/-- The answer that there is no such document, with a body that is not nested too deeply. -/
def TellsMissing (x : Exchange) : Prop :=
  ∃ path a, x = answered path a ∧ a.status = 404 ∧ a.body ≠ .error .tooDeep

theorem value_of_tellsMissing {x : Exchange} (missing : x.TellsMissing) (c : Call) :
    ∃ f, x.value c = .error f ∧ f.isNotFound = true := by
  obtain ⟨path, a, rfl, status, shallow⟩ := missing
  have error : a.isError = true := by simp [Answer.isError, status]
  have failure : a.failure c.method path = .http (a.fault c.method path) := by
    unfold Answer.failure
    split
    · exact absurd ‹_› shallow
    · rfl
  refine ⟨_, value_of_failed error, ?_⟩
  rw [failure]
  have kind : (a.fault c.method path).kind = .notFound := by simp [Answer.fault, status]; rfl
  exact decide_eq_true kind

/-- A reading of what comes of calls that takes only answers that are no error, and takes for a
missing document only an answer that says so. -/
structure Reads {α : Type} (told : Exchange → Except Fault α) : Prop where
  refuses : ∀ x : Exchange, x.fails = true →
    ∃ f, told x = .error f ∧ (f.isNotFound = true → x.IsMissing)
  accepts : ∀ x a, told x = .ok a → ∃ path b, x = answered path b ∧ b.isError = false

theorem reads_accepted (c : Call) : Reads (accepted c) where
  refuses x fails := by
    cases x with
    | refused f =>
      refine ⟨f, rfl, fun missing => ?_⟩
      simp [Exchange.fails, missing] at fails
    | failed f => exact ⟨.transport f, rfl, nofun⟩
    | answered path a =>
      have error : a.isError = true := fails
      refine ⟨a.failure c.method path, by rw [accepted, if_pos error], fun missing => ?_⟩
      refine ⟨path, a, rfl, ?_⟩
      unfold Answer.failure at missing
      split at missing
      · cases missing
      · have kind : HttpKind.ofStatus a.status = .notFound := of_decide_eq_true missing
        unfold HttpKind.ofStatus at kind
        split at kind
        · assumption
        · split at kind <;> cases kind
  accepts x a taken := by
    cases x with
    | refused f => cases taken
    | failed f => cases taken
    | answered path b =>
      rw [accepted] at taken
      split at taken
      · cases taken
      · rename_i sound
        cases taken
        exact ⟨path, a, rfl, by simpa using sound⟩

theorem reads_value (c : Call) : Reads (value c) where
  refuses x fails := by
    obtain ⟨f, refused, missing⟩ := (reads_accepted c).refuses x fails
    exact ⟨f, by rw [value, refused]; rfl, missing⟩
  accepts x v taken := by
    obtain ⟨a, accepted, -⟩ := Except.bind_eq_ok.1 taken
    exact (reads_accepted c).accepts x a accepted

theorem Reads.retold {α : Type} {told : Exchange → Except Fault α} (reads : Reads told)
    {g : HttpFault → HttpFault}
    (keeps : ∀ f : Fault, f.isNotFound = false → (f.retold g).isNotFound = false) :
    Reads fun x => (told x).mapError (Fault.retold g) where
  refuses x fails := by
    obtain ⟨f, refused, missing⟩ := reads.refuses x fails
    refine ⟨f.retold g, by rw [refused]; rfl, fun gone => missing ?_⟩
    cases other : f.isNotFound with
    | true => rfl
    | false => exact (keeps f other).symm.trans gone
  accepts x a taken := reads.accepts x a (Except.mapError_eq_ok.1 taken)

end Exchange

/-- A reply with an error status fails a call, also where the answer cannot be taken in. -/
theorem Request.fails_exchange (q : Request) {a : Answer} (error : a.isError = true) :
    (q.exchange (.answered a)).fails = true := by
  have stays : a.redirection? = none := by
    refine if_neg fun directs => ?_
    simp only [Answer.isError, Bool.and_eq_true, decide_eq_true_eq] at error
    simp only [List.mem_cons, List.not_mem_nil, or_false] at directs
    omega
  rw [exchange, stays]
  split
  · exact error
  · rfl

abbrev History := List (Call × Exchange)

namespace Program

variable {α β : Type}

def Always (goal : Except Fault α → Prop) : Program α → Prop
  | .done r => goal r
  | .remark _ rest => Always goal rest
  | .ask _ go => ∀ x, Always goal (go x)
  | .scan _ go => ∀ r, Always goal (go r)

/-- After a call that fails a program ends only as it is allowed to. A call that is never made is
none that fails. -/
def Heeds (allowed : History → Call → Exchange → Except Fault α → Prop) : Program α → History → Prop
  | .done _, _ => True
  | .remark _ rest, past => Heeds allowed rest past
  | .ask c go, past => (∀ f, Heeds allowed (go (.refused f)) past) ∧
      ∀ coded x, c.encode = .ok coded → Heeds allowed (go x) ((coded, x) :: past) ∧
        (x.fails = true → (go x).Always (allowed past coded x))
  -- A scan makes as many calls as its store has pages, and ends at the first that fails.
  | .scan s go, _ => (∀ r past, Heeds allowed (go r) past) ∧
      ∀ past query x f, (go (.error f)).Always (allowed past (.find s.database query) x)

variable {goal : Except Fault α → Prop} {goal' : Except Fault β → Prop}
  {allowed : History → Call → Exchange → Except Fault α → Prop}
  {allowed' : History → Call → Exchange → Except Fault β → Prop} {past : History}

theorem always_andThen {p : Program α} {f : Except Fault α → Program β} :
    (p.andThen f).Always goal' ↔ p.Always fun r => (f r).Always goal' := by
  induction p with
  | done r => rfl
  | remark w rest ih => exact ih
  | ask c go ih => exact forall_congr' ih
  | scan s go ih => exact forall_congr' ih

theorem Always.mono {p : Program α} (always : p.Always goal) {wanted : Except Fault α → Prop}
    (weaker : ∀ r, goal r → wanted r) : p.Always wanted := by
  induction p with
  | done r => exact weaker r always
  | remark w rest ih => exact ih always
  | ask c go ih => exact fun x => ih x (always x)
  | scan s go ih => exact fun r => ih r (always r)

theorem Always.and {p : Program α} {also : Except Fault α → Prop} (always : p.Always goal)
    (always' : p.Always also) : p.Always fun r => goal r ∧ also r := by
  induction p with
  | done r => exact ⟨always, always'⟩
  | remark w rest ih => exact ih always always'
  | ask c go ih => exact fun x => ih x (always x) (always' x)
  | scan s go ih => exact fun r => ih r (always r) (always' r)

theorem always_of_forall {p : Program α} (each : ∀ r, goal r) : p.Always goal := by
  induction p with
  | done r => exact each r
  | remark w rest ih => exact ih
  | ask c go ih => exact ih
  | scan s go ih => exact ih

theorem Heeds.mono {p : Program α} (heeds : p.Heeds allowed past)
    {wider : History → Call → Exchange → Except Fault α → Prop}
    (weaker : ∀ past c x r, allowed past c x r → wider past c x r) : p.Heeds wider past := by
  induction p generalizing past with
  | done r => trivial
  | remark w rest ih => exact ih heeds
  | ask c go ih =>
    refine ⟨fun f => ih _ (heeds.1 f), fun coded x form => ?_⟩
    obtain ⟨later, ends⟩ := heeds.2 coded x form
    exact ⟨ih x later, fun fails => (ends fails).mono (weaker past coded x)⟩
  | scan s go ih =>
    exact ⟨fun r past => ih r (heeds.1 r past), fun past query x f =>
      (heeds.2 past query x f).mono (weaker past _ x)⟩

theorem Heeds.andThen {p : Program α} {f : Except Fault α → Program β}
    (first : p.Heeds (fun past c x r => (f r).Always (allowed' past c x)) past)
    (next : ∀ r past, (f r).Heeds allowed' past) : (p.andThen f).Heeds allowed' past := by
  induction p generalizing past with
  | done r => exact next r past
  | remark w rest ih => exact ih first
  | ask c go ih =>
    refine ⟨fun f => ih _ (first.1 f), fun coded x form => ?_⟩
    obtain ⟨later, ends⟩ := first.2 coded x form
    exact ⟨ih x later, fun fails => always_andThen.2 (ends fails)⟩
  | scan s go ih =>
    exact ⟨fun r past => ih r (first.1 r past), fun past query x f =>
      always_andThen.2 (first.2 past query x f)⟩

theorem Asks.heeds {permit : Call → Prop} {p : Program α} (asks : p.Asks permit)
    (idle : ∀ past c x r, permit c → allowed past c x r) : p.Heeds allowed past := by
  induction p generalizing past with
  | done r => trivial
  | remark w rest ih => exact ih asks
  | ask c go ih =>
    exact ⟨fun f => ih _ (asks.2 _), fun coded x form => ⟨ih x (asks.2 x), fun _ =>
      always_of_forall fun r => idle past coded x r (asks.1 coded form)⟩⟩
  | scan s go ih =>
    exact ⟨fun r past => ih r (asks.2 r), fun past query x _ =>
      always_of_forall fun r => idle past _ x r (asks.1 query)⟩

theorem heeds_of_forall {p : Program α} (idle : ∀ past c x r, allowed past c x r) :
    p.Heeds allowed past := by
  induction p generalizing past with
  | done r => trivial
  | remark w rest ih => exact ih
  | ask c go ih =>
    exact ⟨fun f => ih _, fun coded x _ => ⟨ih x, fun _ => always_of_forall (idle past coded x)⟩⟩
  | scan s go ih =>
    exact ⟨fun r past => ih r, fun past query x _ => always_of_forall (idle past _ x)⟩

theorem Heeds.and {p : Program α} {also : History → Call → Exchange → Except Fault α → Prop}
    (heeds : p.Heeds allowed past) (heeds' : p.Heeds also past) :
    p.Heeds (fun past c x r => allowed past c x r ∧ also past c x r) past := by
  induction p generalizing past with
  | done r => trivial
  | remark w rest ih => exact ih heeds heeds'
  | ask c go ih =>
    refine ⟨fun f => ih _ (heeds.1 f) (heeds'.1 f), fun coded x form => ?_⟩
    obtain ⟨later, ends⟩ := heeds.2 coded x form
    obtain ⟨later', ends'⟩ := heeds'.2 coded x form
    exact ⟨ih x later later', fun fails => (ends fails).and (ends' fails)⟩
  | scan s go ih =>
    exact ⟨fun r past => ih r (heeds.1 r past) (heeds'.1 r past), fun past query x f =>
      (heeds.2 past query x f).and (heeds'.2 past query x f)⟩

section Run

variable {site : Site}

theorem carries_always : Carries site (Always goal) where
  remark _ _ always := always
  refused _ _ f always _ := always (.refused f)
  ended c _ always := always (.ok c.found)
  unscanned _ _ f always := always (.error f)

theorem Always.sending {p : Program α} (always : p.Always goal) {ws : List Warning} {q : Request}
    {go : Reply → Program α} (sends : p.settle (.ok site) = (ws, .sending q go)) (reply : Reply) :
    (go reply).Always goal := by
  rcases carries_always.sending always sends with
    ⟨c, next, later, -, goes⟩ | ⟨s, next, asked, -, later, -, -, goes⟩
  · exact goes reply ▸ later _
  · rw [goes, afterPage]
    split
    · exact later _
    · exact later

theorem Always.unanswered {p : Program α} (always : p.Always goal) :
    goal (p.unanswered (.ok site)).result := by
  induction p with
  | done r => exact always
  | remark w rest ih => exact ih always
  | ask c go ih =>
    rw [Program.unanswered]
    split
    · exact ih _ (always _)
    · exact ih _ (always _)
  | scan s go ih =>
    rw [Program.unanswered]
    split
    · exact ih _ (always _)
    · split
      · exact ih _ (always _)
      · exact ih _ (always _)

theorem Always.run {p : Program α} (always : p.Always goal) (replies : List Reply) :
    goal (p.run (.ok site) replies).result := by
  induction replies generalizing p with
  | nil => exact always.unanswered
  | cons reply rest ih =>
    rw [Program.run]
    cases settled : p.settle (.ok site) with
    | mk ws state =>
      cases state with
      | finished r => exact carries_always.finished always settled
      | sending q go => exact ih (always.sending settled reply)

theorem carries_heeds : Carries site fun p => p.Heeds allowed past where
  remark _ _ heeds := heeds
  refused _ _ f heeds _ := heeds.1 f
  ended c _ heeds := heeds.1 (.ok c.found) past
  unscanned _ _ f heeds := heeds.1 (.error f) past

/-- What comes of a request is bound by it if it fails, and later ones find it in the past. -/
theorem Heeds.sending {p : Program α} (heeds : p.Heeds allowed past) {ws : List Warning}
    {q : Request} {go : Reply → Program α} (sends : p.settle (.ok site) = (ws, .sending q go))
    (reply : Reply) :
    (go reply).Heeds allowed ((q.call, q.exchange reply) :: past) ∧
      ((q.exchange reply).fails = true →
        (go reply).Always (allowed past q.call (q.exchange reply))) := by
  rcases carries_heeds.sending heeds sends with
    ⟨c, next, later, form, goes⟩ | ⟨s, next, asked, query, later, -, call, goes⟩
  · rw [goes]
    exact later.2 _ _ form
  · rw [goes, afterPage]
    constructor
    · cases received : s.receive asked (q.exchange reply) with
      | inl r => exact later.1 _ _
      | inr turned =>
        have same : turned.database = s.database := Scan.database_of_receive received
        exact ⟨later.1, same ▸ later.2⟩
    · intro fails
      obtain ⟨f, refused, -⟩ := (Exchange.reads_value asked).refuses _ fails
      rw [Scan.receive, refused, call]
      exact later.2 past query _ f

def exchanges (site : Except Fault Site) (replies : List Reply) (p : Program α) : History :=
  List.zipWith (fun q reply => (q.call, q.exchange reply)) (p.run site replies).requests replies

theorem exchanges_cons (p : Program α) (reply : Reply) (rest : List Reply) :
    p.exchanges (.ok site) (reply :: rest) =
      match p.settle (.ok site) with
      | (_, .finished _) => []
      | (_, .sending q go) =>
        (q.call, q.exchange reply) :: (go reply).exchanges (.ok site) rest := by
  unfold exchanges
  rw [Program.run]
  obtain ⟨ws, state⟩ := p.settle (.ok site)
  cases state <;> rfl

/-- After a call of a run that fails the run ends as the program is allowed to. -/
theorem Heeds.run {p : Program α} (heeds : p.Heeds allowed past) {replies : List Reply}
    {before after : History} {c : Call} {x : Exchange}
    (asked : p.exchanges (.ok site) replies = before ++ (c, x) :: after) (fails : x.fails = true) :
    allowed (before.reverse ++ past) c x (p.run (.ok site) replies).result := by
  induction replies generalizing p past before with
  | nil => simp [exchanges] at asked
  | cons reply rest ih =>
    rw [exchanges_cons] at asked
    rw [Program.run]
    cases settled : p.settle (.ok site) with
    | mk ws state =>
      rw [settled] at asked
      cases state with
      | finished r => simp at asked
      | sending q go =>
        obtain ⟨later, ends⟩ := heeds.sending settled reply
        cases before with
        | nil =>
          obtain ⟨same, -⟩ := List.cons_eq_cons.1 asked
          cases same
          exact (ends fails).run rest
        | cons e before =>
          obtain ⟨rfl, others⟩ := List.cons_eq_cons.1 asked
          rw [List.reverse_cons, List.append_assoc]
          exact ih later others

end Run

/-- After a failed call a program ends with a fault, or else that call is excused. -/
def Reports (excuse : History → Call → Exchange → α → Prop) (p : Program α) (past : History) :
    Prop :=
  p.Heeds (fun past c x r => ∀ a, r = .ok a → excuse past c x a) past

def Strict (p : Program α) : Prop := ∀ past, p.Reports (fun _ _ _ _ => False) past

section Rules

variable {excuse : History → Call → Exchange → α → Prop}
  {excuse' : History → Call → Exchange → β → Prop} {p : Program α} {f : α → Program β}

theorem Reports.mono (reports : p.Reports excuse past)
    {wider : History → Call → Exchange → α → Prop}
    (weaker : ∀ past c x a, excuse past c x a → wider past c x a) : p.Reports wider past :=
  Heeds.mono reports fun past c x _ held a same => weaker past c x a (held a same)

theorem Strict.reports (strict : p.Strict) : p.Reports excuse past :=
  (strict past).mono fun _ _ _ _ => False.elim

theorem Reports.bind (reports : p.Reports excuse past) (next : ∀ a past, (f a).Reports excuse' past)
    (excused : ∀ past c x a, excuse past c x a →
      (f a).Always fun r => ∀ b, r = .ok b → excuse' past c x b) :
    (p >>= f).Reports excuse' past := by
  refine Heeds.andThen (Heeds.mono reports fun past c x r held => ?_) fun r past => ?_
  · cases r with
    | ok a => exact excused past c x a (held a rfl)
    | error e => exact nofun
  · cases r with
    | ok a => exact next a past
    | error e => trivial

theorem Strict.bind_reports (strict : p.Strict) (next : ∀ a past, (f a).Reports excuse' past) :
    (p >>= f).Reports excuse' past :=
  Reports.bind (strict past) next fun _ _ _ _ => False.elim

theorem Strict.bind (strict : p.Strict) (next : ∀ a, (f a).Strict) : (p >>= f).Strict :=
  fun _ => strict.bind_reports next

theorem strict_done (r : Except Fault α) : (done r).Strict := fun _ => trivial

theorem strict_ofNoted (x : Noted α) : (ofNoted x).Strict := by
  obtain ⟨warnings, r⟩ := x
  induction warnings with
  | nil => exact strict_done r
  | cons w rest ih => exact ih

theorem heeds_ofExcept_bind {r : Except Fault α}
    (next : ∀ a, (f a).Heeds allowed' past) : (ofExcept r >>= f).Heeds allowed' past := by
  cases r with
  | ok a => exact next a
  | error e => trivial

theorem heeds_ask {c : Call} {told : Exchange → Except Fault α}
    (ends : ∀ coded x, c.encode = .ok coded → x.fails = true → allowed past coded x (told x)) :
    (ask c fun x => done (told x)).Heeds allowed past :=
  ⟨fun _ => trivial, fun coded x form => ⟨trivial, ends coded x form⟩⟩

theorem strict_ask (c : Call) {told : Exchange → Except Fault α} (reads : Exchange.Reads told) :
    (ask c fun x => done (told x)).Strict := by
  refine fun past => heeds_ask fun coded x _ fails a same => ?_
  obtain ⟨f, refused, -⟩ := reads.refuses x fails
  rw [refused] at same
  cases same

theorem strict_request (c : Call) : (request c).Strict :=
  strict_ask c (Exchange.reads_value c)

theorem strict_answer (c : Call) : (answer c).Strict :=
  strict_ask c (Exchange.reads_accepted c)

theorem retell_ask {c : Call} {told : Exchange → Except Fault α} (g : HttpFault → HttpFault) :
    (ask c fun x => done (told x)).retell g =
      ask c fun x => done ((told x).mapError (Fault.retold g)) := by
  refine congrArg (ask c) (funext fun x => ?_)
  show (done (told x)).retell g = _
  cases told x with
  | ok a => rfl
  | error e => cases e <;> rfl

theorem heeds_ask_andThen {c : Call} {told : Exchange → Except Fault α}
    {k : Except Fault α → Program β} (reads : Exchange.Reads told)
    (fault : ∀ e past, (k (.error e)).Heeds allowed' past)
    (fails : ∀ coded x e, c.encode = .ok coded → told x = .error e →
      (e.isNotFound = true → x.IsMissing) → (k (.error e)).Always (allowed' past coded x))
    (next : ∀ coded path b a, c.encode = .ok coded → b.isError = false →
      (k (.ok a)).Heeds allowed' ((coded, .answered path b) :: past)) :
    ((ask c fun x => done (told x)).andThen k).Heeds allowed' past := by
  refine ⟨fun f => ?_, fun coded x form => ⟨?_, fun failed => ?_⟩⟩
  · show (k (told (.refused f))).Heeds _ _
    cases taken : told (.refused f) with
    | error e => exact fault e past
    | ok a =>
      obtain ⟨path, b, same, -⟩ := reads.accepts _ a taken
      cases same
  · show (k (told x)).Heeds _ _
    cases taken : told x with
    | error e => exact fault e _
    | ok a =>
      obtain ⟨path, b, rfl, sound⟩ := reads.accepts x a taken
      exact next coded path b a form sound
  · obtain ⟨e, refused, missing⟩ := reads.refuses x failed
    show (k (told x)).Always _
    rw [refused]
    exact fails coded x e form refused missing

theorem strict_find (s : Scan) : (find s).Strict :=
  fun _ => ⟨fun _ _ => trivial, fun _ _ _ _ => nofun⟩

theorem Strict.rescue (strict : p.Strict) {g : Fault → Program α}
    (faults : ∀ e, ∃ e', g e = fail e') : (p.rescue g).Strict := by
  intro past
  refine Heeds.andThen (Heeds.mono (strict past) fun past c x r held => ?_) fun r past => ?_
  · cases r with
    | ok a => exact (held a rfl).elim
    | error e =>
      obtain ⟨e', same⟩ := faults e
      show (g e).Always _
      rw [same]
      exact nofun
  · cases r with
    | ok a => trivial
    | error e =>
      obtain ⟨e', same⟩ := faults e
      show (g e).Heeds _ _
      rw [same]
      trivial

theorem Strict.retell (strict : p.Strict) (g : HttpFault → HttpFault) : (p.retell g).Strict := by
  refine strict.rescue fun e => ?_
  cases e <;> exact ⟨_, rfl⟩

def orMissing (k : α → Program β) (q : Program β) : Except Fault α → Program β
  | .ok a => k a
  | .error e => if e.isNotFound then q else fail e

theorem andThen_eq_orMissing {p : Program α} {f : Except Fault α → Program β} {k : α → Program β}
    {q : Program β} (value : ∀ a, f (.ok a) = k a)
    (fault : ∀ e, f (.error e) = if e.isNotFound then q else fail e) :
    p.andThen f = p.andThen (orMissing k q) := by
  refine congrArg (fun g => andThen g p) (funext fun r => ?_)
  cases r with
  | ok a => exact value a
  | error e => exact fault e

theorem heeds_orMissing {k : α → Program β} {q : Program β} {r : Except Fault α}
    (next : ∀ a, (k a).Heeds allowed' past) (other : q.Heeds allowed' past) :
    (orMissing k q r).Heeds allowed' past := by
  cases r with
  | ok a => exact next a
  | error e =>
    rw [orMissing]
    split
    · exact other
    · trivial

theorem strict_orMissing {k : α → Program β} {q : Program β} (strict : ∀ a, (k a).Strict)
    (other : q.Strict) (r : Except Fault α) : (orMissing k q r).Strict :=
  fun past => heeds_orMissing (fun a => strict a past) (other past)

theorem always_orMissing {k : α → Program β} {q : Program β} {e : Fault} {good : β → Prop}
    (other : e.isNotFound = true → q.Always fun r => ∀ b, r = .ok b → good b) :
    (orMissing k q (.error e)).Always fun r => ∀ b, r = .ok b → good b := by
  rw [orMissing]
  split
  · exact other ‹_›
  · exact nofun

theorem always_of_tellsMissing {k : α → Program β} {q : Program β} {c : Call} {x : Exchange}
    {e : Fault} (refused : x.value c = .error e) (other : x.TellsMissing → q.Always goal') :
    (orMissing k q (.error e)).Always fun r => x.TellsMissing → goal' r := by
  rw [orMissing]
  split
  · by_cases tells : x.TellsMissing
    · exact (other tells).mono fun r held _ => held
    · exact always_of_forall fun r told => absurd told tells
  · rename_i found
    intro tells
    obtain ⟨f, same, gone⟩ := Exchange.value_of_tellsMissing tells c
    cases refused.symm.trans same
    exact absurd gone found

theorem Strict.attempt (strict : p.Strict) :
    p.attempt.Reports (fun _ _ _ r => ∃ e, r = .error e) past := by
  refine Heeds.andThen (Heeds.mono (strict past) fun past c x r held => ?_) fun r past => trivial
  intro r' same
  cases same
  cases r with
  | ok a => exact (held a rfl).elim
  | error e => exact ⟨e, rfl⟩

theorem reports_collect {ps : List (Program α)} (each : ∀ p ∈ ps, p.Strict) :
    (collect ps).Reports (fun _ _ _ rs => ∃ e, .error e ∈ rs) past := by
  induction ps generalizing past with
  | nil => trivial
  | cons p rest ih =>
    obtain ⟨first, others⟩ := List.forall_mem_cons.1 each
    refine Reports.bind first.attempt (fun r past => ?_) fun past c x r failed => ?_
    · refine Reports.bind (ih others) (fun rs past => trivial) fun past c x rs failed => ?_
      obtain ⟨e, mem⟩ := failed
      rintro _ ⟨⟩
      exact ⟨e, List.mem_cons_of_mem _ mem⟩
    · obtain ⟨e, rfl⟩ := failed
      refine always_andThen.2 (always_of_forall fun rs => ?_)
      cases rs with
      | ok rs =>
        rintro _ ⟨⟩
        exact ⟨e, List.mem_cons_self⟩
      | error f => exact nofun

theorem reports_forM {ι : Type} {g : ι → Program PUnit} {is : List ι}
    {excused : History → Call → Exchange → Prop}
    (each : ∀ i ∈ is, ∀ past, (g i).Reports (fun past c x _ => excused past c x) past) :
    (is.forM g).Reports (fun past c x _ => excused past c x) past := by
  induction is generalizing past with
  | nil => trivial
  | cons i rest ih =>
    obtain ⟨first, others⟩ := List.forall_mem_cons.1 each
    exact Reports.bind (first past) (fun _ past => ih others) fun past c x _ held =>
      always_of_forall fun _ _ _ => held

end Rules

end Program

end ModelStore
