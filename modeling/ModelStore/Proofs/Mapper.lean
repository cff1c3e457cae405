import ModelStore.Mapper
import ModelStore.Proofs.Json.Encoding

/-! The documents that model data become, look-up by look-up. A document has its values in
their stored form, so the store is sent the document itself. -/

namespace ModelStore

namespace Value

theorem get?_storedFields (fields : Fields) (key : String) :
    Entries.get? (storedFields fields) key = (Entries.get? fields key).map stored := by
  induction fields with
  | nil => rfl
  | cons e rest ih =>
    obtain ⟨name, v⟩ := e
    rw [storedFields, Entries.get?_cons, Entries.get?_cons, ih]
    split <;> rfl

theorem keys_storedFields (fields : Fields) :
    Entries.keys (storedFields fields) = Entries.keys fields := by
  induction fields with
  | nil => rfl
  | cons e rest ih =>
    obtain ⟨name, v⟩ := e
    rw [storedFields, Entries.keys_cons, Entries.keys_cons, ih]

theorem mem_storedFields {fields : Fields} {key : String} {w : Value}
    (h : (key, w) ∈ storedFields fields) : ∃ v, (key, v) ∈ fields ∧ w = v.stored := by
  induction fields with
  | nil => cases h
  | cons e rest ih =>
    obtain ⟨name, v⟩ := e
    rw [storedFields] at h
    rcases List.mem_cons.1 h with head | tail
    · cases head
      exact ⟨v, List.mem_cons_self, rfl⟩
    · obtain ⟨u, mem, same⟩ := ih tail
      exact ⟨u, List.mem_cons_of_mem _ mem, same⟩

@[simp] theorem isNull_stored (v : Value) : v.stored.isNull = v.isNull := by
  cases v with
  | scalar s => cases s <;> rfl
  | _ => rfl

theorem eq_null_of_isNull {v : Value} (h : v.isNull = true) : v = .null := by
  cases v with
  | scalar s => cases s <;> first | rfl | cases h
  | _ => cases h

theorem isNotFound_of_required {v : Value} {key : String} {f : Fault}
    (h : v.required key = .error f) : f.isNotFound = false := by
  cases v with
  | object fields =>
    cases here : Entries.get? fields key with
    | some w =>
      simp only [required, here] at h
      cases h
    | none =>
      simp only [required, here] at h
      cases h
      rfl
  | _ =>
    cases h
    rfl

end Value

namespace Mapper

variable {m : Mapper} {source doc coded : Fields}

theorem isNotFound_of_plainData {v : Value} {f : Fault} (h : plainData v = .error f) :
    f.isNotFound = false := by
  cases v <;> cases h
  · rfl
  · rfl
  · rfl

theorem toDoc_ok (h : m.toDoc (.object source) = .ok doc) :
    doc = Value.storedFields (m.layOut source) := by
  change (if _ then _ else _) = _ at h
  split at h
  · cases h
  · cases h
    rfl

theorem toDoc_coded {data : Value} (h : m.toDoc data = .ok doc)
    (form : Json.encodeFields doc = .ok coded) : coded = doc := by
  obtain ⟨source, -, h⟩ := Except.bind_eq_ok.1 h
  change (if _ then _ else _) = _ at h
  split at h
  · cases h
  · cases h
    exact Json.encodeFields_stored _ form

theorem isNotFound_of_toDoc {f : Fault} (h : m.toDoc (.object source) = .error f) :
    f.isNotFound = false := by
  change (if _ then _ else _) = _ at h
  split at h
  · cases h
    rfl
  · cases h

theorem get?_eraseUnless (condition : Bool) (fields : Fields) (key k : String) :
    Entries.get? (eraseUnless condition fields key) k =
      if condition = false ∧ key = k then none else Entries.get? fields k := by
  cases condition with
  | true => simp [eraseUnless]
  | false =>
    by_cases same : key = k
    · subst same
      simp [eraseUnless]
    · simp [eraseUnless, Entries.get?_erase_ne _ same, same]

/-- An id that is given stands under `_id`, and nothing under the name of the id. -/
theorem get?_storeId {id : Value} (given : id.isNull = false) (fields : Fields) (key : String) :
    Entries.get? (m.storeId (some id) fields) key =
      if key = "_id" then some (.str id.text)
      else if key = m.idName then none
      else Entries.get? fields key := by
  have put : m.storeId (some id) fields =
      eraseUnless (m.idName = "_id") (Entries.set fields "_id" (.str id.text)) m.idName := by
    cases id with
    | scalar s =>
      cases s with
      | null => cases given
      | _ => rfl
    | _ => rfl
  rw [put, get?_eraseUnless, Entries.get?_set]
  by_cases own : key = "_id"
  · subst own
    by_cases same : m.idName = "_id" <;> simp [same]
  · have other : ¬"_id" = key := fun h => own h.symm
    by_cases same : key = m.idName
    · subst same
      simp [own]
    · have apart : ¬m.idName = key := fun h => same h.symm
      simp [own, other, same, apart]

theorem get?_storeId_null (fields : Fields) :
    Entries.get? (m.storeId (some .null) fields) "_id" = none := by
  show Entries.get? (eraseUnless _ (Entries.erase fields m.idName) "_id") "_id" = none
  rw [get?_eraseUnless]
  by_cases same : m.idName = "_id" <;> simp [same]

theorem get?_stamp (fields : Fields) (key : String) :
    Entries.get? (m.stamp fields) key =
      if m.mark? = some key then some (.str m.model) else Entries.get? fields key := by
  unfold stamp
  cases mark : m.mark? with
  | none => simp
  | some name => simp [Entries.get?_set]

theorem get?_toDoc (h : m.toDoc (.object source) = .ok doc) {id : Value}
    (here : Entries.get? source m.idName = some id) (given : id.isNull = false)
    (distinct : (Entries.keys source).Nodup) (key : String) :
    Entries.get? doc key =
      if m.mark? = some key then some (.str m.model)
      else if key = "_id" then some (.str id.text)
      else if key = m.idName then none
      else ((Entries.get? source key).filter fun v => !v.isNull).map Value.stored := by
  rw [toDoc_ok h, Value.get?_storedFields, layOut, get?_stamp, here, get?_storeId given,
    withoutNulls, Entries.get?_filter distinct fun v => !v.isNull]
  by_cases mark : m.mark? = some key
  · simp [mark, Value.stored, Value.storedScalar]
  by_cases own : key = "_id"
  · subst own
    simp [mark, Value.stored, Value.storedScalar]
  by_cases same : key = m.idName
  · subst same
    simp [mark, own]
  · simp [mark, own, same]

theorem get?_toDoc_of_absent (h : m.toDoc (.object source) = .ok doc)
    (here : Entries.get? source m.idName = none) (distinct : (Entries.keys source).Nodup)
    {key : String} (mark : m.mark? ≠ some key) :
    Entries.get? doc key =
      ((Entries.get? source key).filter fun v => !v.isNull).map Value.stored := by
  rw [toDoc_ok h, Value.get?_storedFields, layOut, get?_stamp, here, if_neg mark]
  show (Entries.get? (withoutNulls source) key).map Value.stored = _
  rw [withoutNulls, Entries.get?_filter distinct fun v => !v.isNull]

theorem get?_toDoc_field (h : m.toDoc (.object source) = .ok doc)
    (distinct : (Entries.keys source).Nodup) {key : String} (mark : m.mark? ≠ some key)
    (own : key ≠ "_id") (other : key ≠ m.idName) :
    Entries.get? doc key =
      ((Entries.get? source key).filter fun v => !v.isNull).map Value.stored := by
  have untouched : ∀ id : Option Value,
      Entries.get? (m.storeId id (withoutNulls source)) key =
        Entries.get? (withoutNulls source) key := by
    intro id
    cases id with
    | none => rfl
    | some v =>
      cases null : v.isNull with
      | false => rw [get?_storeId null, if_neg own, if_neg other]
      | true =>
        rw [Value.eq_null_of_isNull null]
        show Entries.get? (eraseUnless _ (Entries.erase _ m.idName) "_id") key = _
        rw [get?_eraseUnless, if_neg fun same => own same.2.symm,
          Entries.get?_erase_ne _ (Ne.symm other)]
  rw [toDoc_ok h, Value.get?_storedFields, layOut, get?_stamp, if_neg mark, untouched,
    withoutNulls, Entries.get?_filter distinct fun v => !v.isNull]

theorem get?_toDoc_of_null (h : m.toDoc (.object source) = .ok doc)
    (here : Entries.get? source m.idName = some .null) (mark : m.mark? ≠ some "_id") :
    Entries.get? doc "_id" = none := by
  rw [toDoc_ok h, Value.get?_storedFields, layOut, get?_stamp, here, if_neg mark,
    get?_storeId_null]
  rfl

theorem get?_id_toDoc (h : m.toDoc (.object source) = .ok doc) {id : Value}
    (here : Entries.get? source m.idName = some id) (given : id.isNull = false) :
    Entries.get? doc "_id" =
      some (.str (if m.mark? = some "_id" then m.model else id.text)) := by
  rw [toDoc_ok h, Value.get?_storedFields, layOut, get?_stamp, here, get?_storeId given]
  split <;> rfl

theorem exists_id (h : m.toDoc (.object source) = .ok doc) {id : Value}
    (here : Entries.get? source m.idName = some id) (given : id.isNull = false) :
    ∃ s, Entries.get? doc "_id" = some (.str s) :=
  ⟨_, get?_id_toDoc h here given⟩

theorem of_get?_storeId {id : Option Value} {fields : Fields} {key : String} {v : Value}
    (other : key ≠ "_id") (h : Entries.get? (m.storeId id fields) key = some v) :
    Entries.get? fields key = some v ∧ (id ≠ none → key ≠ m.idName) := by
  cases id with
  | none => exact ⟨h, fun given => absurd rfl given⟩
  | some w =>
    cases null : w.isNull with
    | false =>
      rw [get?_storeId null, if_neg other] at h
      split at h
      · cases h
      · rename_i apart
        exact ⟨h, fun _ => apart⟩
    | true =>
      have nothing : w = .null := Value.eq_null_of_isNull null
      subst nothing
      have erased : Entries.get? (Entries.erase fields m.idName) key = some v := by
        have kept : Entries.get? (eraseUnless (m.idName = "_id")
            (Entries.erase fields m.idName) "_id") key = some v := h
        rw [get?_eraseUnless, if_neg fun same => other same.2.symm] at kept
        exact kept
      have apart : key ≠ m.idName := by
        rintro rfl
        rw [Entries.get?_erase_self] at erased
        cases erased
      rw [Entries.get?_erase_ne _ apart.symm] at erased
      exact ⟨erased, fun _ => apart⟩

/-- A field that a document has beside its id is the mark, or it was given with the model data. -/
theorem of_get?_toDoc {data : Value} (h : m.toDoc data = .ok doc) {key : String} {v : Value}
    (other : key ≠ "_id") (here : Entries.get? doc key = some v) :
    (m.mark? = some key ∧ v = .str m.model) ∨
      ∃ source w, plainData data = .ok source ∧ (key, w) ∈ source ∧ w.isNull = false ∧
        m.idName ≠ key ∧ v = w.stored := by
  obtain ⟨source, plain, h⟩ := Except.bind_eq_ok.1 h
  have made : m.toDoc (.object source) = .ok doc := h
  rw [toDoc_ok made, Value.get?_storedFields, layOut, get?_stamp] at here
  by_cases mark : m.mark? = some key
  · rw [if_pos mark] at here
    cases here
    exact .inl ⟨mark, rfl⟩
  · rw [if_neg mark] at here
    obtain ⟨w, stored, same⟩ := Option.map_eq_some_iff.1 here
    obtain ⟨kept, apart⟩ := of_get?_storeId other stored
    obtain ⟨mem, full⟩ := List.mem_filter.1 (Entries.mem_of_get? kept)
    refine .inr ⟨source, w, plain, mem, by simpa using full, fun same => ?_, same.symm⟩
    refine apart (fun absent => ?_) same.symm
    rw [same, Entries.get?_eq_none] at absent
    exact absent (List.mem_map.2 ⟨_, mem, rfl⟩)

theorem isNotFound_of_foldlM_parseDate {names : List String} {f : Fault}
    (h : names.foldlM m.parseDate doc = .error f) : f.isNotFound = false := by
  induction names generalizing doc with
  | nil => cases h
  | cons name rest ih =>
    rw [List.foldlM_cons] at h
    cases parsed : m.parseDate doc name with
    | ok next =>
      rw [parsed] at h
      exact ih h
    | error e =>
      rw [parsed] at h
      cases h
      unfold parseDate at parsed
      split at parsed
      · cases parsed
      · split at parsed
        · split at parsed
          · cases parsed
          · cases parsed
            rfl
        · cases parsed

theorem isNotFound_of_fromDoc {v : Value} {f : Fault} (h : m.fromDoc .null v = .error f) :
    f.isNotFound = false := by
  cases v with
  | object entries =>
    cases here : Entries.get? entries "_id" with
    | none =>
      simp only [fromDoc, here] at h
      cases h
      rfl
    | some id =>
      simp only [fromDoc, here, returnsId, Value.isNull, if_true, bind, Except.bind] at h
      cases parsed : m.dateFields.foldlM m.parseDate
          (m.restoreId true id (Entries.erase entries "_id")) with
      | ok data =>
        rw [parsed] at h
        cases h
      | error e =>
        rw [parsed] at h
        cases h
        exact isNotFound_of_foldlM_parseDate parsed
  | _ =>
    cases h
    rfl

end Mapper

end ModelStore
