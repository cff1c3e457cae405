import ModelStore.Noted

/-! Results that come with remarks, and plain ones, taken apart at a step. -/

namespace ModelStore

variable {α β ε : Type}

theorem Except.bind_eq_ok {x : Except ε α} {f : α → Except ε β} {b : β} :
    (x >>= f) = .ok b ↔ ∃ a, x = .ok a ∧ f a = .ok b := by
  cases x with
  | error e => simp [bind, Except.bind]
  | ok a => simp [bind, Except.bind]

theorem Except.map_eq_ok {x : Except ε α} {f : α → β} {b : β} :
    x.map f = .ok b ↔ ∃ a, x = .ok a ∧ f a = b := by
  cases x <;> simp [Except.map]

theorem Except.mem_of_mapM {f : α → Except ε β} {as : List α} {bs : List β}
    (h : as.mapM f = .ok bs) {b : β} (mem : b ∈ bs) : ∃ a ∈ as, f a = .ok b := by
  induction as generalizing bs with
  | nil =>
    cases h
    cases mem
  | cons a rest ih =>
    rw [List.mapM_cons] at h
    obtain ⟨b', first, h⟩ := Except.bind_eq_ok.1 h
    obtain ⟨others, tail, h⟩ := Except.bind_eq_ok.1 h
    cases h
    rcases List.mem_cons.1 mem with rfl | mem
    · exact ⟨a, List.mem_cons_self, first⟩
    · obtain ⟨a', mem', made⟩ := ih tail mem
      exact ⟨a', List.mem_cons_of_mem _ mem', made⟩

theorem Except.exists_of_mapM_error {f : α → Except ε β} {as : List α} {e : ε}
    (h : as.mapM f = .error e) : ∃ a ∈ as, f a = .error e := by
  induction as with
  | nil => cases h
  | cons a rest ih =>
    rw [List.mapM_cons] at h
    cases first : f a with
    | error e' =>
      rw [first] at h
      cases h
      exact ⟨a, List.mem_cons_self, first⟩
    | ok b =>
      cases tail : rest.mapM f with
      | error e' =>
        rw [first, tail] at h
        cases h
        obtain ⟨a', mem, same⟩ := ih tail
        exact ⟨a', List.mem_cons_of_mem _ mem, same⟩
      | ok bs =>
        rw [first, tail] at h
        cases h

theorem Except.toOption_eq_some {x : Except ε α} {a : α} :
    x.toOption = some a ↔ x = .ok a := by
  cases x <;> simp [Except.toOption]

@[simp] theorem Except.mapError_ok {ζ : Type} (f : ε → ζ) (a : α) :
    (Except.ok a : Except ε α).mapError f = .ok a := rfl

theorem Except.mapError_eq_ok {ζ : Type} {x : Except ε α} {f : ε → ζ} {a : α} :
    x.mapError f = .ok a ↔ x = .ok a := by
  cases x with
  | error e =>
    constructor
    · intro h
      cases h
    · intro h
      cases h
  | ok b => simp

namespace Noted

theorem bind_eq_ok {x : Noted α} {f : α → Noted β} {b : β} :
    (x >>= f).outcome = .ok b ↔ ∃ a, x.outcome = .ok a ∧ (f a).outcome = .ok b := by
  rw [outcome_bind]
  exact Except.bind_eq_ok

theorem bind_of_ok (ws : List Warning) (a : α) (f : α → Noted β) :
    ((⟨ws, .ok a⟩ : Noted α) >>= f) = ⟨ws ++ (f a).warnings, (f a).outcome⟩ := rfl

@[simp] theorem warnings_pure (a : α) : (pure a : Noted α).warnings = [] := rfl

@[simp] theorem outcome_pure (a : α) : (pure a : Noted α).outcome = .ok a := rfl

@[simp] theorem outcome_ofExcept (r : Except Fault α) : (ofExcept r).outcome = r := rfl

end Noted

end ModelStore
