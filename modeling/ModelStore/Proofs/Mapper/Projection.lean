import ModelStore.Mapper
import ModelStore.Proofs.Noted
import ModelStore.Proofs.Selector.Projection

/-! Reading documents of which only some fields are there. What is read under a projection is what
is read of the whole document, restricted to the names of the projection: dates are read field by
field, and the id goes from the one name to the other before that. -/

namespace ModelStore.Mapper

open Entries (Restricts)

variable {m : Mapper} {keep : String → Prop} {whole part next : Fields} {id : Value}

theorem restricts_parseDate {name : String} (restricts : Restricts keep whole part)
    (read : m.parseDate whole name = .ok next) :
    ∃ found, m.parseDate part name = .ok found ∧ Restricts keep next found := by
  by_cases kept : keep name
  · unfold parseDate at read ⊢
    rw [(restricts name).1 kept]
    cases here : Entries.get? whole name with
    | none =>
      rw [here] at read
      cases read
      exact ⟨part, rfl, restricts⟩
    | some v =>
      rw [here] at read
      cases filled : v.truthy with
      | false =>
        simp only [filled, Bool.false_eq_true, if_false] at read ⊢
        cases read
        exact ⟨part, rfl, restricts⟩
      | true =>
        simp only [filled, if_true] at read ⊢
        cases dated : dateOf? v with
        | none =>
          rw [dated] at read
          cases read
        | some d =>
          rw [dated] at read
          cases read
          exact ⟨_, rfl, restricts.set kept _⟩
  · have unread : m.parseDate part name = .ok part := by
      rw [parseDate, (restricts name).2 kept]
    refine ⟨part, unread, ?_⟩
    unfold parseDate at read
    split at read
    · cases read
      exact restricts
    · split at read
      · split at read
        · cases read
          exact restricts.set_whole kept _
        · cases read
      · cases read
        exact restricts

theorem restricts_foldlM_parseDate {names : List String} (restricts : Restricts keep whole part)
    (read : names.foldlM m.parseDate whole = .ok next) :
    ∃ found, names.foldlM m.parseDate part = .ok found ∧ Restricts keep next found := by
  induction names generalizing whole part with
  | nil =>
    cases read
    exact ⟨part, rfl, restricts⟩
  | cons name rest ih =>
    rw [List.foldlM_cons] at read
    obtain ⟨middle, first, read⟩ := Except.bind_eq_ok.1 read
    obtain ⟨middle', first', restricts⟩ := restricts_parseDate restricts first
    obtain ⟨found, others, restricts⟩ := ih restricts read
    exact ⟨found, List.foldlM_cons.trans (Except.bind_eq_ok.2 ⟨middle', first', others⟩), restricts⟩

theorem restricts_unstamp (restricts : Restricts keep whole part) :
    Restricts keep (m.unstamp whole) (m.unstamp part) := by
  unfold unstamp
  split
  · exact restricts.erase _
  · exact restricts

theorem fromDoc_ok {fields : Value} (named : Entries.get? whole "_id" = some id) :
    m.fromDoc fields (.object whole) = .ok next ↔
      ∃ returned data, m.returnsId fields = .ok returned ∧
        m.dateFields.foldlM m.parseDate
          (m.restoreId returned id (Entries.erase whole "_id")) = .ok data ∧
        m.unstamp data = next := by
  simp only [fromDoc, named]
  constructor
  · intro read
    obtain ⟨returned, returns, read⟩ := Except.bind_eq_ok.1 read
    obtain ⟨data, parsed, read⟩ := Except.bind_eq_ok.1 read
    exact ⟨returned, data, returns, parsed, Except.ok.inj read⟩
  · rintro ⟨returned, data, returns, parsed, rfl⟩
    exact Except.bind_eq_ok.2 ⟨returned, returns, Except.bind_eq_ok.2 ⟨data, parsed, rfl⟩⟩

theorem exists_id_of_fromDoc {fields : Value} (read : m.fromDoc fields (.object whole) = .ok next) :
    ∃ id, Entries.get? whole "_id" = some id := by
  cases named : Entries.get? whole "_id" with
  | none =>
    simp only [fromDoc, named] at read
    cases read
  | some id => exact ⟨id, rfl⟩

theorem returnsId_names (names : List String) :
    m.returnsId (.array (names.map .str)) = .ok (decide (m.idName ∈ names)) := by
  have member : (Value.str m.idName).elem (names.map .str) = decide (m.idName ∈ names) := by
    rw [Value.elem, List.any_map, Bool.eq_iff_iff, List.any_eq_true, decide_eq_true_iff]
    simp
  show (Except.ok _ : Except Fault (List Value)).map _ = _
  rw [Except.map, member]

theorem restricts_restoreId {names asked : List String}
    (members : ∀ key, key ∈ asked ↔
      key = "_id" ∨ ∃ name ∈ names, key = Projection.storedName m.idName name)
    (restricts : Restricts (· ∈ asked) whole part) :
    Restricts (· ∈ names) (m.restoreId true id (Entries.erase whole "_id"))
      (m.restoreId (decide (m.idName ∈ names)) id (Entries.erase part "_id")) := by
  have asked_iff : ∀ key, key ≠ "_id" → (key ∈ asked ↔ key ∈ names ∧ key ≠ m.idName) := by
    intro key unnamed
    rw [members, or_iff_right unnamed]
    constructor
    · rintro ⟨name, mem, same⟩
      unfold Projection.storedName at same
      split at same
      · exact absurd same unnamed
      · rename_i other
        exact ⟨same ▸ mem, fun own => other (same ▸ own)⟩
    · exact fun ⟨mem, other⟩ => ⟨key, mem, by rw [Projection.storedName, if_neg other]⟩
  -- The id stands under its own name, and what else is there is as it was.
  have restored : ∀ (returned : Bool) (doc : Fields) (key : String),
      Entries.get? (m.restoreId returned id (Entries.erase doc "_id")) key =
        if returned = true ∧ key = m.idName then some (m.parseId id)
        else if key = "_id" then none else Entries.get? doc key := by
    intro returned doc key
    have erased : Entries.get? (Entries.erase doc "_id") key =
        if key = "_id" then none else Entries.get? doc key := by
      split
      · rename_i same
        rw [same, Entries.get?_erase_self]
      · rename_i other
        rw [Entries.get?_erase_ne _ (Ne.symm other)]
    cases returned with
    | false => simp only [restoreId, Bool.false_eq_true, if_false, false_and, erased]
    | true => simp only [restoreId, if_true, Entries.get?_set, erased, true_and, eq_comm]
  intro key
  rw [restored, restored]
  simp only [true_and, decide_eq_true_iff]
  by_cases own : key = m.idName
  · subst own
    refine ⟨fun kept => by simp [kept], fun left => ?_⟩
    simp only [left, false_and, if_false]
    split
    · rfl
    · rename_i unnamed
      refine (restricts m.idName).2 fun there => ?_
      exact ((asked_iff _ unnamed).1 there).2 rfl
  · simp only [own, and_false, if_false]
    split
    · exact ⟨fun _ => rfl, fun _ => rfl⟩
    · rename_i unnamed
      refine ⟨fun kept => ?_, fun left => ?_⟩
      · exact (restricts key).1 ((asked_iff key unnamed).2 ⟨kept, own⟩)
      · exact (restricts key).2 fun there => left ((asked_iff key unnamed).1 there).1

/-- What is read under a projection is what is read of the whole document, restricted. -/
theorem restricts_fromDoc {names asked : List String}
    (members : ∀ key, key ∈ asked ↔
      key = "_id" ∨ ∃ name ∈ names, key = Projection.storedName m.idName name)
    (restricts : Restricts (· ∈ asked) whole part)
    (read : m.fromDoc .null (.object whole) = .ok next) :
    ∃ found, m.fromDoc (.array (names.map .str)) (.object part) = .ok found ∧
      Restricts (· ∈ names) next found := by
  obtain ⟨id, named⟩ := exists_id_of_fromDoc read
  obtain ⟨returned, data, returns, parsed, rfl⟩ := (fromDoc_ok named).1 read
  cases returns
  have named' : Entries.get? part "_id" = some id := by
    rw [(restricts "_id").1 ((members _).2 (.inl rfl)), named]
  obtain ⟨found, parsed', restricts⟩ :=
    restricts_foldlM_parseDate (restricts_restoreId members restricts) parsed
  refine ⟨_, (fromDoc_ok named').2 ⟨_, found, returnsId_names names, parsed', rfl⟩, ?_⟩
  exact restricts_unstamp restricts

end ModelStore.Mapper
