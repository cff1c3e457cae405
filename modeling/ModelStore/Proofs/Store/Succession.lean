import ModelStore.Proofs.Store.Documents

/-! Writes one after the other. Whatever revision a document was written under, that revision
is gone from its place for good, so no two writes of one place are taken under the same
one. -/

namespace ModelStore

/-- Two writes that were not both taken for one place under the same revision. -/
def Attempt.Apart (v w : Attempt) : Prop :=
  v.accepted = true → w.accepted = true → ∀ p, v.place = some p → w.place = some p →
    Entries.get? v.doc "_rev" ≠ Entries.get? w.doc "_rev"

theorem Attempt.Apart.symm {v w : Attempt} (h : v.Apart w) : w.Apart v :=
  fun taken taken' p here here' same => h taken' taken p here' here same.symm

namespace Documents

variable {s t u : Documents} {db : String} {doc : Fields} {v w : Attempt} {ws : List Attempt}
  {p : Place}

/-- The revision under which a write was taken is never met again at its place. -/
def Spent (s : Documents) (w : Attempt) : Prop :=
  w.accepted = true → ∀ p, w.place = some p → ∀ t, s.Evolves t →
    t.revision? p ≠ Entries.get? w.doc "_rev"

theorem Spent.later (h : s.Spent w) (later : s.Evolves t) : t.Spent w :=
  fun taken p here u later' => h taken p here u (later.trans later')

theorem Writes.revision?_eq (h : s.Writes db doc w t) (taken : w.accepted = true)
    (here : w.place = some p) : s.revision? p = Entries.get? w.doc "_rev" := by
  cases h with
  | put named current fresh =>
    cases here
    exact current.symm
  | conflict named stale => cases taken
  | created unnamed undated free fresh =>
    cases here
    rw [undated, revision?, free]
    rfl
  | improper unnamed given => cases taken

theorem Writes.spent (h : s.Writes db doc w t) (sound : s.Sound) : t.Spent w := by
  intro taken p here u later
  rw [← h.revision?_eq taken here]
  cases h with
  | put named current fresh =>
    cases here
    exact later.moved sound fresh
  | conflict named stale => cases taken
  | created unnamed undated free fresh =>
    cases here
    exact later.moved sound fresh
  | improper unnamed given => cases taken

/-- A write under a spent revision is not taken. -/
theorem Spent.apart (h : s.Spent v) (later : s.Evolves t) (write : t.Writes db doc w u) :
    v.Apart w := by
  intro taken taken' p here here' same
  rw [← write.revision?_eq taken' here'] at same
  exact h taken p here t later same.symm

theorem WritesAll.spent {docs : List Value} (h : WritesAll db s docs ws t) (sound : s.Sound) :
    ∀ w ∈ ws, t.Spent w := by
  induction h with
  | nil s => simp
  | cons first rest ih =>
    intro w mem
    rcases List.mem_cons.1 mem with rfl | mem
    · exact (first.spent sound).later rest.evolves
    · exact ih (first.evolves.sound sound) w mem

theorem WritesAll.apart {docs : List Value} (h : WritesAll db s docs ws t) (sound : s.Sound) :
    ws.Pairwise Attempt.Apart := by
  induction h with
  | nil s => exact .nil
  | cons first rest ih =>
    refine List.pairwise_cons.2 ⟨fun w mem => ?_, ih (first.evolves.sound sound)⟩
    obtain ⟨doc, s', t', -, later, write⟩ := rest.write mem
    exact (first.spent sound).apart later write

variable {call : Call} {a : Answer}

theorem Serves.write (h : s.Serves call a ws t) (mem : w ∈ ws) :
    ∃ db doc s' t', s.Evolves s' ∧ s'.Writes db doc w t' := by
  cases h with
  | wrote write told =>
    rw [List.mem_singleton.1 mem]
    exact ⟨_, _, s, t, .refl, write⟩
  | wroteAll writes sound body told =>
    obtain ⟨doc, s', t', -, later, write⟩ := writes.write mem
    exact ⟨_, doc, s', t', later, write⟩
  | _ => cases mem

theorem Serves.spent (h : s.Serves call a ws t) (sound : s.Sound) : ∀ w ∈ ws, t.Spent w := by
  cases h with
  | wrote write told =>
    intro w mem
    rw [List.mem_singleton.1 mem]
    exact write.spent sound
  | wroteAll writes ok body told => exact writes.spent sound
  | _ => simp

theorem Serves.apart (h : s.Serves call a ws t) (sound : s.Sound) :
    ws.Pairwise Attempt.Apart := by
  cases h with
  | wrote write told => exact List.pairwise_singleton _ _
  | wroteAll writes ok body told => exact writes.apart sound
  | _ => exact .nil

end Documents

end ModelStore
