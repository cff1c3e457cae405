import ModelStore.Proofs.Store.Safety
import ModelStore.Proofs.Store.Running

/-! Runs of programs on a store that has a state. How the store serves a request is a relation,
so it may answer as it likes within it, and not answering is one of the things it may like. A run
of a program that goes on with another is a run of the first and then one of the other, from
where the first has left the store. -/

namespace ModelStore

theorem Scan.database_of_receive {s turned : Scan} {c : Call} {x : Exchange}
    (h : s.receive c x = .inr turned) : turned.database = s.database := by
  unfold receive at h
  split at h
  · cases h
  · split at h <;> cases h
    rfl

namespace Program

variable {α β σ : Type} {site : Except Fault Site} {serves : σ → Request → Reply → σ → Prop}

/-- A program that a store serves to its end, what it asked on the way, the state of the store
then and the result. -/
inductive Served (site : Except Fault Site) (serves : σ → Request → Reply → σ → Prop) :
    σ → Program α → List Request → σ → Except Fault α → Prop where
  | ended {s : σ} {p : Program α} {ws : List Warning} {r : Except Fault α}
      (ends : p.settle site = (ws, .finished r)) : Served site serves s p [] s r
  | told {s t u : σ} {p : Program α} {ws : List Warning} {q : Request} {go : Reply → Program α}
      {reply : Reply} {qs : List Request} {r : Except Fault α}
      (sends : p.settle site = (ws, .sending q go)) (serve : serves s q reply t)
      (rest : Served site serves t (go reply) qs u r) : Served site serves s p (q :: qs) u r

namespace Served

variable {s t u : σ} {p p' : Program α} {qs : List Request} {r : Except Fault α}

theorem of_settle (served : Served site serves s p qs t r)
    (same : (p.settle site).2 = (p'.settle site).2) : Served site serves s p' qs t r := by
  cases settled : p'.settle site with
  | mk ws state =>
    rw [settled] at same
    cases served with
    | ended ends =>
      rw [ends] at same
      cases same
      exact .ended settled
    | told sends serve rest =>
      rw [sends] at same
      cases same
      exact .told settled serve rest

theorem of_done {x : Except Fault α} (served : Served site serves s (done x) qs t r) :
    qs = [] ∧ t = s ∧ r = x := by
  cases served with
  | ended ends =>
    cases ends
    exact ⟨rfl, rfl, rfl⟩
  | told sends => cases sends

theorem of_ofNoted {x : Noted α} (served : Served site serves s (ofNoted x) qs t r) :
    qs = [] ∧ t = s ∧ r = x.outcome := by
  obtain ⟨warnings, outcome⟩ := x
  induction warnings with
  | nil => exact of_done served
  | cons w rest ih =>
    refine ih (served.of_settle ?_)
    show ((remark w _).settle site).2 = _
    rw [settle]
    rfl

/-- The run of a program that goes on with the result of another. -/
theorem of_andThen {f : Except Fault α → Program β} {r : Except Fault β}
    (served : Served site serves s (p.andThen f) qs u r) :
    ∃ first later t x, qs = first ++ later ∧ Served site serves s p first t x ∧
      Served site serves t (f x) later u r := by
  generalize same : p.andThen f = whole at served
  induction served generalizing p with
  | @ended s whole ws r ends =>
    subst same
    cases settled : p.settle site with
    | mk vs state =>
      rw [settle_andThen, settled] at ends
      cases state with
      | finished x =>
        exact ⟨[], [], s, x, rfl, .ended settled, .ended (Prod.ext rfl (Prod.mk.inj ends).2)⟩
      | sending q go => cases ends
  | @told s t u whole ws q go reply qs r sends serve rest ih =>
    subst same
    cases settled : p.settle site with
    | mk vs state =>
      rw [settle_andThen, settled] at sends
      cases state with
      | finished x =>
        exact ⟨[], q :: qs, s, x, rfl, .ended settled,
          .told (Prod.ext rfl (Prod.mk.inj sends).2) serve rest⟩
      | sending q' go' =>
        cases sends
        obtain ⟨first, later, t', x, rfl, ran, next⟩ := ih rfl
        exact ⟨q :: first, later, t', x, rfl, .told settled serve ran, next⟩

theorem andThen {f : Except Fault α → Program β} {rs : List Request} {r' : Except Fault β}
    (served : Served site serves s p qs t r) (next : Served site serves t (f r) rs u r') :
    Served site serves s (p.andThen f) (qs ++ rs) u r' := by
  induction served with
  | @ended s p ws r ends =>
    refine next.of_settle ?_
    rw [settle_andThen, ends]
  | @told s t _ p ws q go reply qs r sends serve rest ih =>
    have settled : (p.andThen f).settle site =
        (ws, .sending q fun reply => (go reply).andThen f) := by
      rw [settle_andThen, sends]
    exact .told settled serve (ih next)

theorem bind {f : α → Program β} {a : α} {rs : List Request} {r' : Except Fault β}
    (served : Served site serves s p qs t (.ok a)) (next : Served site serves t (f a) rs u r') :
    Served site serves s (p >>= f) (qs ++ rs) u r' :=
  served.andThen next

theorem of_bind {f : α → Program β} {b : β}
    (served : Served site serves s (p >>= f) qs u (.ok b)) :
    ∃ first later t a, qs = first ++ later ∧ Served site serves s p first t (.ok a) ∧
      Served site serves t (f a) later u (.ok b) := by
  obtain ⟨first, later, t, x, same, ran, next⟩ := of_andThen served
  cases x with
  | ok a => exact ⟨first, later, t, a, same, ran, next⟩
  | error e =>
    obtain ⟨-, -, wrong⟩ := of_done next
    cases wrong

theorem of_ofExcept_bind {x : Except Fault α} {f : α → Program β} {b : β}
    (served : Served site serves s (ofExcept x >>= f) qs u (.ok b)) :
    ∃ a, x = .ok a ∧ Served site serves s (f a) qs u (.ok b) := by
  obtain ⟨first, later, t, a, rfl, ran, next⟩ := of_bind served
  obtain ⟨rfl, rfl, same⟩ := of_done ran
  exact ⟨a, same.symm, next⟩

theorem of_ask {site : Site} {c : Call} {go : Exchange → Program α}
    (served : Served (.ok site) serves s (ask c go) qs u r) :
    (∃ f, site.request c = .error f ∧ Served (.ok site) serves s (go (.refused f)) qs u r) ∨
    ∃ q reply t rest, site.request c = .ok q ∧ qs = q :: rest ∧ serves s q reply t ∧
      Served (.ok site) serves t (go (q.exchange reply)) rest u r := by
  rcases settle_ask (.ok site) c go with ⟨f, refused, settled⟩ | ⟨q, sent, settled⟩
  · exact .inl ⟨f, refused, served.of_settle (congrArg Prod.snd settled)⟩
  · refine .inr ?_
    cases served with
    | ended ends => cases settled.symm.trans ends
    | told sends serve rest =>
      cases settled.symm.trans sends
      exact ⟨q, _, _, _, sent, rfl, serve, rest⟩

theorem of_scan {site : Site} {k : Scan} {go : Except Fault (List Value) → Program α}
    (served : Served (.ok site) serves s (scan k go) qs u r) :
    (∃ x, k.next = .ended x ∧ Served (.ok site) serves s (go x) qs u r) ∨
    (∃ c f, k.next = .ask c ∧ site.request c = .error f ∧
      Served (.ok site) serves s (go (.error f)) qs u r) ∨
    ∃ c q reply t rest, k.next = .ask c ∧ site.request c = .ok q ∧ qs = q :: rest ∧
      serves s q reply t ∧
      Served (.ok site) serves t (afterPage k c go (q.exchange reply)) rest u r := by
  rcases settle_scan (.ok site) k go with
    ⟨x, next, settled⟩ | ⟨c, f, next, refused, settled⟩ | ⟨c, q, next, sent, settled⟩
  · exact .inl ⟨x, next, served.of_settle (congrArg Prod.snd settled)⟩
  · exact .inr (.inl ⟨c, f, next, refused, served.of_settle (congrArg Prod.snd settled)⟩)
  · refine .inr (.inr ?_)
    cases served with
    | ended ends => cases settled.symm.trans ends
    | told sends serve rest =>
      cases settled.symm.trans sends
      exact ⟨c, q, _, _, _, next, sent, rfl, serve, rest⟩

end Served

theorem Served.forall_of_bind {P : Request → Prop} {s u : σ} {p : Program α} {f : α → Program β}
    {qs : List Request} {r : Except Fault β} (served : Served site serves s (p >>= f) qs u r)
    (first : ∀ {qs t x}, Served site serves s p qs t x → ∀ q ∈ qs, P q)
    (next : ∀ {qs t a later}, Served site serves s p qs t (.ok a) →
      Served site serves t (f a) later u r → ∀ q ∈ later, P q) : ∀ q ∈ qs, P q := by
  obtain ⟨asked, later, t, x, rfl, ran, rest⟩ := of_andThen served
  refine List.forall_mem_append.2 ⟨first ran, ?_⟩
  cases x with
  | ok a => exact next ran rest
  | error e =>
    obtain ⟨rfl, -, -⟩ := of_done rest
    exact nofun

/-- A store that serves no other requests than some serves the runs in which there are no others. -/
theorem served_and_iff {P : Request → Prop} {s t : σ} {p : Program α} {qs : List Request}
    {r : Except Fault α} :
    Served site (fun s q reply t => P q ∧ serves s q reply t) s p qs t r ↔
      (∀ q ∈ qs, P q) ∧ Served site serves s p qs t r := by
  constructor
  · intro served
    induction served with
    | ended ends => exact ⟨nofun, .ended ends⟩
    | told sends serve rest ih =>
      exact ⟨List.forall_mem_cons.2 ⟨serve.1, ih.1⟩, .told sends serve.2 ih.2⟩
  · rintro ⟨each, served⟩
    induction served with
    | ended ends => exact .ended ends
    | told sends serve rest ih =>
      obtain ⟨first, others⟩ := List.forall_mem_cons.1 each
      exact .told sends ⟨first, serve⟩ (ih others)

theorem exists_request {site : Site} {p : Program α} {ws : List Warning} {q : Request}
    {go : Reply → Program α} (sends : p.settle (.ok site) = (ws, .sending q go)) :
    ∃ c, site.request c = .ok q := by
  induction p generalizing ws with
  | done r => cases sends
  | remark w rest ih =>
    obtain ⟨_, sends, -⟩ := settle_remark.1 sends
    exact ih sends
  | ask c next ih =>
    rcases settle_ask (.ok site) c next with ⟨f, -, settled⟩ | ⟨r, sent, settled⟩
    · exact ih _ (settled.symm.trans sends)
    · cases settled.symm.trans sends
      exact ⟨c, sent⟩
  | scan s next ih =>
    rcases settle_scan (.ok site) s next with
      ⟨x, -, settled⟩ | ⟨_, f, -, -, settled⟩ | ⟨c, r, -, sent, settled⟩
    · exact ih _ (settled.symm.trans sends)
    · exact ih _ (settled.symm.trans sends)
    · cases settled.symm.trans sends
      exact ⟨c, sent⟩

theorem Served.exists_request {site : Site} {s t : σ} {p : Program α} {qs : List Request}
    {r : Except Fault α} (served : Served (.ok site) serves s p qs t r) :
    ∀ q ∈ qs, ∃ c, site.request c = .ok q := by
  induction served with
  | ended ends => exact nofun
  | told sends serve rest ih => exact List.forall_mem_cons.2 ⟨Program.exists_request sends, ih⟩

def Asks (permit : Call → Prop) : Program α → Prop
  | done _ => True
  | remark _ rest => Asks permit rest
  | ask c go => (∀ coded, c.encode = .ok coded → permit coded) ∧ ∀ x, Asks permit (go x)
  | scan q go => (∀ query, permit (.find q.database query)) ∧ ∀ r, Asks permit (go r)

section Asks

variable {permit : Call → Prop} {p : Program α}

theorem asks_andThen {f : Except Fault α → Program β} (asks : p.Asks permit)
    (next : ∀ r, (f r).Asks permit) : (p.andThen f).Asks permit := by
  induction p with
  | done r => exact next r
  | remark w rest ih => exact ih asks
  | ask c go ih => exact ⟨asks.1, fun x => ih x (asks.2 x)⟩
  | scan q go ih => exact ⟨asks.1, fun r => ih r (asks.2 r)⟩

theorem asks_bind {f : α → Program β} (asks : p.Asks permit) (next : ∀ a, (f a).Asks permit) :
    (p >>= f).Asks permit := by
  refine asks_andThen asks fun r => ?_
  cases r with
  | ok a => exact next a
  | error e => trivial

theorem asks_ofNoted (x : Noted α) : (ofNoted x).Asks permit := by
  obtain ⟨warnings, r⟩ := x
  induction warnings with
  | nil => trivial
  | cons w rest ih => exact ih

theorem asks_ofExcept_bind {r : Except Fault α} {f : α → Program β}
    (next : ∀ a, r = .ok a → (f a).Asks permit) : (ofExcept r >>= f).Asks permit := by
  cases r with
  | ok a => exact next a rfl
  | error e => trivial

theorem Asks.retell (asks : p.Asks permit) (f : HttpFault → HttpFault) :
    (p.retell f).Asks permit := by
  refine asks_andThen asks fun r => ?_
  cases r with
  | ok a => trivial
  | error e => cases e <;> trivial

theorem asks_request {c : Call} (permitted : ∀ coded, c.encode = .ok coded → permit coded) :
    (request c).Asks permit :=
  ⟨permitted, fun _ => trivial⟩

theorem asks_forM {ι : Type} {f : ι → Program PUnit} {is : List ι}
    (each : ∀ i ∈ is, (f i).Asks permit) : (is.forM f).Asks permit := by
  induction is with
  | nil => trivial
  | cons i rest ih =>
    obtain ⟨first, others⟩ := List.forall_mem_cons.1 each
    exact asks_bind first fun _ => ih others

theorem asks_collect {ps : List (Program α)} (each : ∀ p ∈ ps, p.Asks permit) :
    (collect ps).Asks permit := by
  induction ps with
  | nil => trivial
  | cons p rest ih =>
    obtain ⟨first, others⟩ := List.forall_mem_cons.1 each
    refine asks_bind (asks_andThen first fun _ => trivial) fun _ => ?_
    exact asks_bind (ih others) fun _ => trivial

theorem Asks.sending {site : Site} {ws : List Warning} {q : Request} {go : Reply → Program α}
    (asks : p.Asks permit) (sends : p.settle (.ok site) = (ws, .sending q go)) :
    permit q.call ∧ ∀ reply, (go reply).Asks permit := by
  have carries : Carries site (Asks permit (α := α)) :=
    ⟨fun _ _ h => h, fun _ _ f h _ => h.2 (.refused f), fun _ _ h => h.2 _, fun _ _ f h => h.2 _⟩
  rcases carries.sending asks sends with
    ⟨c, next, h, form, goes⟩ | ⟨c, next, asked, query, h, form, call, goes⟩
  · exact ⟨h.1 _ form, fun reply => goes reply ▸ h.2 _⟩
  · refine ⟨call ▸ h.1 query, fun reply => ?_⟩
    rw [goes, afterPage]
    cases received : c.receive asked (q.exchange reply) with
    | inl r => exact h.2 r
    | inr turned =>
      have same : turned.database = c.database := Scan.database_of_receive received
      exact ⟨same ▸ h.1, h.2⟩

theorem Served.held {site : Site} (held : σ → Prop) {s t : σ} {qs : List Request}
    {r : Except Fault α} (served : Served (.ok site) serves s p qs t r) (asks : p.Asks permit)
    (keeps : ∀ s q reply t, held s → permit q.call → serves s q reply t → held t)
    (here : held s) : held t := by
  induction served with
  | ended ends => exact here
  | told sends serve rest ih =>
    obtain ⟨permitted, next⟩ := asks.sending sends
    exact ih (next _) (keeps _ _ _ _ here permitted serve)

theorem Served.asked {site : Site} {s t : σ} {qs : List Request} {r : Except Fault α}
    (served : Served (.ok site) serves s p qs t r) (asks : p.Asks permit) :
    ∀ q ∈ qs, permit q.call := by
  induction served with
  | ended ends => exact nofun
  | told sends serve rest ih =>
    obtain ⟨permitted, next⟩ := asks.sending sends
    exact List.forall_mem_cons.2 ⟨permitted, ih (next _)⟩

end Asks

end Program

end ModelStore
