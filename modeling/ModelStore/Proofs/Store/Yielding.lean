import ModelStore.Proofs.Store.Running

/-! Runs against a store of which only a contract is known. A program yields a result if it ends
with one whatever it is answered within the contract, so a store with a state of its own,
which answers as it likes each time, is covered as well. -/

namespace ModelStore.Program

variable {α σ : Type} {site : Except Fault Site} {answers : Request → Reply → Prop}
  {wanted : Except Fault α → Prop}

inductive Yields (site : Except Fault Site) (answers : Request → Reply → Prop)
    (wanted : Except Fault α → Prop) : Program α → Prop where
  | finished {p : Program α} {ws : List Warning} {r : Except Fault α}
      (ends : p.settle site = (ws, .finished r)) (good : wanted r) : Yields site answers wanted p
  | sending {p : Program α} {ws : List Warning} {q : Request} {go : Reply → Program α}
      (sends : p.settle site = (ws, .sending q go))
      (next : ∀ reply, answers q reply → Yields site answers wanted (go reply)) :
      Yields site answers wanted p

theorem Yields.mono {wanted' : Except Fault α → Prop} {p : Program α}
    (h : p.Yields site answers wanted) (weaker : ∀ r, wanted r → wanted' r) :
    p.Yields site answers wanted' := by
  induction h with
  | finished ends good => exact .finished ends (weaker _ good)
  | sending sends _ ih => exact .sending sends ih

theorem Yields.andThen {β : Type} {wanted' : Except Fault β → Prop} {p : Program α}
    {f : Except Fault α → Program β} (h : p.Yields site answers wanted)
    (next : ∀ r, wanted r → (f r).Yields site answers wanted') :
    (p.andThen f).Yields site answers wanted' := by
  induction h with
  | @finished p ws r ends good =>
    have settled : (p.andThen f).settle site =
        (ws ++ ((f r).settle site).1, ((f r).settle site).2) := by
      rw [settle_andThen, ends]
    cases next r good with
    | finished ends' good' =>
      rw [ends'] at settled
      exact .finished settled good'
    | sending sends' next' =>
      rw [sends'] at settled
      exact .sending settled next'
  | @sending p ws q go sends more ih =>
    have settled : (p.andThen f).settle site =
        (ws, .sending q fun reply => (go reply).andThen f) := by
      rw [settle_andThen, sends]
    exact .sending settled ih

theorem Yields.bind {β : Type} {wanted' : Except Fault β → Prop} {p : Program α}
    {f : α → Program β} {a : α} (h : p.Yields site answers (· = .ok a))
    (next : (f a).Yields site answers wanted') : (p >>= f).Yields site answers wanted' := by
  refine h.andThen fun r same => ?_
  subst same
  exact next

theorem settle_ofNoted (x : Noted α) :
    (ofNoted x).settle site = (x.warnings, .finished x.outcome) := by
  obtain ⟨warnings, r⟩ := x
  induction warnings with
  | nil => rfl
  | cons w rest ih =>
    show ((remark w _).settle site) = _
    rw [settle]
    exact congrArg (fun s => (w :: s.1, s.2)) ih

theorem yields_ofNoted {x : Noted α} (good : wanted x.outcome) :
    (ofNoted x).Yields site answers wanted :=
  .finished (settle_ofNoted x) good

theorem Yields.of_finished {p : Program α} {ws : List Warning} {r : Except Fault α}
    (h : p.Yields site answers wanted) (ends : p.settle site = (ws, .finished r)) : wanted r := by
  cases h with
  | finished ends' good =>
    rw [ends] at ends'
    cases ends'
    exact good
  | sending sends =>
    rw [ends] at sends
    cases sends

theorem Yields.of_sending {p : Program α} {ws : List Warning} {q : Request}
    {go : Reply → Program α} (h : p.Yields site answers wanted)
    (sends : p.settle site = (ws, .sending q go)) :
    ∀ reply, answers q reply → (go reply).Yields site answers wanted := by
  cases h with
  | finished ends =>
    rw [sends] at ends
    cases ends
  | sending sends' next =>
    rw [sends] at sends'
    cases sends'
    exact next

theorem Yields.of_andThen {β : Type} {wanted' : Except Fault β → Prop} {p : Program α}
    {f : Except Fault α → Program β} (h : (p.andThen f).Yields site answers wanted') :
    p.Yields site answers fun r => (f r).Yields site answers wanted' := by
  generalize same : p.andThen f = whole at h
  induction h generalizing p with
  | finished ends good =>
    subst same
    cases settled : p.settle site with
    | mk vs state =>
      rw [settle_andThen, settled] at ends
      cases state with
      | finished x => exact .finished settled (.finished (Prod.ext rfl (Prod.mk.inj ends).2) good)
      | sending q go => cases ends
  | sending sends next ih =>
    subst same
    cases settled : p.settle site with
    | mk vs state =>
      rw [settle_andThen, settled] at sends
      cases state with
      | finished x => exact .finished settled (.sending (Prod.ext rfl (Prod.mk.inj sends).2) next)
      | sending q go =>
        cases sends
        exact .sending settled fun reply keeps => ih reply keeps rfl

theorem Yields.of_bind {β : Type} {wanted' : Except Fault β → Prop} {p : Program α}
    {f : α → Program β} (h : (p >>= f).Yields site answers wanted')
    (faultless : ∀ e, ¬wanted' (.error e)) :
    p.Yields site answers fun r => ∃ a, r = .ok a ∧ (f a).Yields site answers wanted' := by
  refine h.of_andThen.mono fun r yields => ?_
  cases r with
  | ok a => exact ⟨a, rfl, yields⟩
  | error e => exact absurd (yields.of_finished rfl) (faultless e)

/-- The first replies of a store with a state to the requests of a program. -/
def replies (site : Except Fault Site) (serve : σ → Request → Reply × σ) :
    Nat → σ → Program α → List Reply
  | 0, _, _ => []
  | n + 1, s, p =>
    match p.settle site with
    | (_, .finished _) => []
    | (_, .sending q go) => (serve s q).1 :: replies site serve n (serve s q).2 (go (serve s q).1)

theorem run_finished {p : Program α} {ws : List Warning} {r : Except Fault α}
    (h : p.settle site = (ws, .finished r)) : p.run site [] = (Run.ended 0 r).noting ws := by
  show p.unanswered site = _
  induction p generalizing ws with
  | done result =>
    cases h
    rfl
  | remark w rest ih =>
    cases hs : rest.settle site with
    | mk vs s =>
      simp only [settle, hs, Prod.mk.injEq] at h
      obtain ⟨rfl, rfl⟩ := h
      rw [unanswered, ih hs]
      rfl
  | ask c go ih =>
    cases hr : site.bind (·.request c) with
    | error f =>
      simp only [settle, hr] at h
      simp only [unanswered, hr]
      exact ih _ h
    | ok q => simp [settle, hr] at h
  | scan s go ih =>
    cases hn : s.next with
    | ended result =>
      simp only [settle, hn] at h
      simp only [unanswered, hn]
      exact ih _ h
    | ask c =>
      cases hr : site.bind (·.request c) with
      | error f =>
        simp only [settle, hn, hr] at h
        simp only [unanswered, hn, hr]
        exact ih _ h
      | ok q => simp [settle, hn, hr] at h

theorem run_sending {p : Program α} {ws : List Warning} {q : Request} {go : Reply → Program α}
    (h : p.settle site = (ws, .sending q go)) (reply : Reply) (rest : List Reply) :
    p.run site (reply :: rest) = (((go reply).run site rest).sending q).noting ws := by
  rw [run, h]

/-- A program that yields a result ends with one on every store that keeps to the contract. -/
theorem Yields.run {p : Program α} (h : p.Yields site answers wanted)
    {serve : σ → Request → Reply × σ} (keeps : ∀ s q, answers q (serve s q).1) (s : σ) :
    ∃ n, wanted (p.run site (p.replies site serve n s)).result ∧
      (p.run site (p.replies site serve n s)).unused = 0 := by
  induction h generalizing s with
  | finished ends good =>
    refine ⟨0, ?_⟩
    rw [replies, run_finished ends]
    exact ⟨good, rfl⟩
  | sending sends next ih =>
    obtain ⟨n, good, all⟩ := ih _ (keeps s _) (serve s _).2
    refine ⟨n + 1, ?_⟩
    rw [replies, sends]
    simp only [run_sending sends]
    exact ⟨good, all⟩

end ModelStore.Program
