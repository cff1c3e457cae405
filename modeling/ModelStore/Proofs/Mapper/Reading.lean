import ModelStore.Proofs.Mapper.Return

/-! Which stored documents can be read back. The reader goes through the declared date fields in
turn, and it stops at the first that holds something which is no date. Most of these fields are
the caller's to fill; the id, the revision and the mark stand in a document whatever the caller
gives. -/

namespace ModelStore

namespace Mapper

/-- A value that the reader can go through as a date: it counts as nothing, or it is read as a date
or a moment. -/
def Legible (v : Value) : Prop := v.truthy = true → ∃ d, dateOf? v = some d

theorem legible_dated_iff {v : Value} : Legible (dated v) ↔ Legible v := by
  unfold Legible dated
  by_cases filled : v.truthy = true
  · rw [if_pos filled, asDate]
    cases read : dateOf? v with
    | none => simp [read]
    | some d =>
      rcases dateOf?_isDate read with ⟨d, rfl⟩ | ⟨t, rfl⟩ <;> simp [dateOf?, momentOf?]
  · rw [if_neg filled]

theorem legible_stored {v : Value} (date : v.isNull = true ∨ v.IsDate) : Legible v.stored := by
  rcases date with null | date
  · rw [Value.eq_null_of_isNull null]
    exact nofun
  · obtain ⟨-, s, -, read⟩ := dateOf?_stored date
    exact fun _ => ⟨s, read⟩

variable {m : Mapper} {doc fields : Fields} {c : String → Option Value} {f : Fault}

theorem of_parseDate_error {name : String} (stopped : m.parseDate doc name = .error f) :
    ∃ v, Entries.get? doc name = some v ∧ ¬Legible v ∧
      f = .document (.dateUnreadable m.model name v) := by
  unfold parseDate at stopped
  split at stopped
  · cases stopped
  · rename_i v here
    split at stopped
    · rename_i filled
      split at stopped
      · cases stopped
      · rename_i unread
        cases stopped
        refine ⟨v, here, fun legible => ?_, rfl⟩
        obtain ⟨d, read⟩ := legible filled
        rw [unread] at read
        cases read
    · cases stopped

theorem of_foldlM_parseDate_error {names : List String} (distinct : (Entries.keys doc).Nodup)
    (stopped : names.foldlM m.parseDate doc = .error f) :
    ∃ name ∈ names, ∃ v, Entries.get? doc name = some v ∧ ¬Legible v ∧
      f = .document (.dateUnreadable m.model name v) := by
  induction names generalizing doc with
  | nil => cases stopped
  | cons name rest ih =>
    rw [List.foldlM_cons] at stopped
    cases first : m.parseDate doc name with
    | error e =>
      rw [first] at stopped
      cases stopped
      exact ⟨name, List.mem_cons_self, of_parseDate_error first⟩
    | ok next =>
      rw [first] at stopped
      obtain ⟨distinct, found, passed⟩ := of_parseDate first distinct
      obtain ⟨other, mem, v, here, illegible, rfl⟩ := ih distinct stopped
      refine ⟨other, List.mem_cons_of_mem _ mem, v, ?_, illegible, rfl⟩
      rw [found] at here
      -- A field that was gone through before can be gone through again.
      split at here
      · rename_i same
        subst same
        obtain ⟨w, there, rfl⟩ := Option.map_eq_some_iff.1 here
        exact absurd (legible_dated_iff.2 (passed w there)) illegible
      · exact here

/-- What the reader finds under each name: the id under its own, nothing under that of the store. -/
def restored (m : Mapper) (c : String → Option Value) (key : String) : Option Value :=
  if key = m.idName then (c "_id").map m.parseId else if key = "_id" then none else c key

/-- What stands in a document that can be read: an id, and under the declared date fields only what
can be read as a date. -/
structure Reads (m : Mapper) (c : String → Option Value) : Prop where
  named : (c "_id").isSome = true
  dates : ∀ name ∈ m.dateFields, ∀ v, m.restored c name = some v → Legible v

theorem get?_restoreId {id : Value} (named : Entries.get? fields "_id" = some id) (key : String) :
    Entries.get? (m.restoreId true id (Entries.erase fields "_id")) key =
      m.restored (Entries.get? fields) key := by
  show Entries.get? (Entries.set (Entries.erase fields "_id") m.idName (m.parseId id)) key = _
  rw [Entries.get?_set, restored]
  by_cases own : key = m.idName
  · rw [if_pos own.symm, if_pos own, named, Option.map_some]
  · rw [if_neg (Ne.symm own), if_neg own]
    by_cases same : key = "_id"
    · rw [if_pos same, same, Entries.get?_erase_self]
    · rw [if_neg same, Entries.get?_erase_ne _ (Ne.symm same)]

theorem fromDoc_eq_map {id : Value} (named : Entries.get? fields "_id" = some id) :
    m.fromDoc .null (.object fields) =
      (m.dateFields.foldlM m.parseDate
        (m.restoreId true id (Entries.erase fields "_id"))).map m.unstamp := by
  simp only [fromDoc, named, returnsId, Value.isNull, if_true, bind, Except.bind]
  cases m.dateFields.foldlM m.parseDate (m.restoreId true id (Entries.erase fields "_id")) <;> rfl

/-- A document that cannot be read is refused for a declared date field and what that holds. -/
theorem of_fromDoc_error {id : Value} (distinct : (Entries.keys fields).Nodup)
    (named : Entries.get? fields "_id" = some id)
    (refused : m.fromDoc .null (.object fields) = .error f) :
    ∃ name ∈ m.dateFields, ∃ v, m.restored (Entries.get? fields) name = some v ∧ ¬Legible v ∧
      f = .document (.dateUnreadable m.model name v) := by
  rw [fromDoc_eq_map named] at refused
  cases passed : m.dateFields.foldlM m.parseDate
      (m.restoreId true id (Entries.erase fields "_id")) with
  | ok data =>
    rw [passed] at refused
    cases refused
  | error e =>
    rw [passed] at refused
    cases refused
    obtain ⟨name, mem, v, here, illegible, rfl⟩ := of_foldlM_parseDate_error
      (Entries.nodup_set (Entries.nodup_erase distinct "_id") _ _) passed
    exact ⟨name, mem, v, get?_restoreId named name ▸ here, illegible, rfl⟩

/-- A document can be read exactly if it has an id and what stands under its declared date fields
can be read as dates. -/
theorem exists_fromDoc_iff (distinct : (Entries.keys fields).Nodup) :
    (∃ data, m.fromDoc .null (.object fields) = .ok data) ↔ m.Reads (Entries.get? fields) := by
  cases named : Entries.get? fields "_id" with
  | none =>
    constructor
    · rintro ⟨data, read⟩
      simp only [fromDoc, named] at read
      cases read
    · intro reads
      have there := reads.named
      rw [named] at there
      cases there
  | some id =>
    have distinct' : (Entries.keys
        (m.restoreId true id (Entries.erase fields "_id"))).Nodup :=
      Entries.nodup_set (Entries.nodup_erase distinct "_id") _ _
    constructor
    · rintro ⟨data, read⟩
      rw [fromDoc_eq_map named] at read
      obtain ⟨back, passed, -⟩ := Except.map_eq_ok.1 read
      refine ⟨by rw [named]; rfl, fun name mem v here => ?_⟩
      exact (of_foldlM_parseDate passed distinct').2.2 name mem v
        ((get?_restoreId named name).trans here)
    · intro reads
      cases read : m.fromDoc .null (.object fields) with
      | ok data => exact ⟨data, rfl⟩
      | error f =>
        obtain ⟨name, mem, v, here, illegible, -⟩ := of_fromDoc_error distinct named read
        exact absurd (reads.dates name mem v here) illegible

/-- A declared date field that the caller fills: none of those under which the id, the revision or
the mark stands. -/
structure Free (m : Mapper) (name : String) : Prop where
  listed : name ∈ m.dateFields
  unnamed : name ≠ m.idName ∧ name ≠ "_id"
  undated : name ≠ "_rev"
  unmarked : m.mark? ≠ some name

/-- Whether a document holds only what can be read in the date fields that the caller fills. -/
def Clear (m : Mapper) (c : String → Option Value) : Prop :=
  ∀ name, m.Free name → ∀ v, c name = some v → Legible v

/-- Whether the id, the revision and the mark can be read where they are declared as dates. -/
def Keyed (m : Mapper) (c : String → Option Value) : Prop :=
  ∀ name ∈ m.dateFields, ¬m.Free name → ∀ v, m.restored c name = some v → Legible v

theorem Free.restored {name : String} (free : m.Free name) : m.restored c name = c name := by
  rw [Mapper.restored, if_neg free.unnamed.1, if_neg free.unnamed.2]

theorem Clear.reads_iff (clear : m.Clear c) (named : (c "_id").isSome = true) :
    m.Reads c ↔ m.Keyed c := by
  refine ⟨fun reads name mem _ => reads.dates name mem, fun keyed => ⟨named, ?_⟩⟩
  intro name mem v here
  by_cases free : m.Free name
  · exact clear name free v (by rwa [free.restored] at here)
  · exact keyed name mem free v here

end Mapper

end ModelStore
