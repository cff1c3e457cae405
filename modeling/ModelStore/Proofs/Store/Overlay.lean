import ModelStore.Proofs.Mapper
import ModelStore.Store.Bulk

/-! Patches over stored documents, look-up by look-up. An update of one document sends the
stored fields with the patch written over them, under the id of the document and with the
mark of the model; an update of many only writes the patch into the documents it found. In
both a field of the patch that is null takes the field away. -/

namespace ModelStore

/-- A document is a patch written over some content, as the instance of an id. No field of it
is null. -/
def Handle.Merges (h : Handle) (id : String) (patch : Fields) (old : String → Option Value)
    (doc : Fields) : Prop :=
  ∀ key, Entries.get? doc key =
    if h.mark? = some key then some (.str h.name)
    else if key = "_id" then some (.str id)
    else if key = h.idName then none
    else (((Entries.get? patch key).map Value.stored).or (old key)).filter fun v => !v.isNull

/-- A document is a patch written into some content, in which the id stays what it was. -/
def Handle.Patches (h : Handle) (patch : Fields) (old : String → Option Value)
    (doc : Fields) : Prop :=
  ∀ key, Entries.get? doc key =
    if key = h.idName then old key
    else (Entries.get? patch key).elim (old key) fun v =>
      if v.isNull then none else some v.stored

variable {h : Handle} {fields patch doc coded : Fields}

theorem Value.named_of_object {t : Value.Table} (read : Value.asTable (.object fields) = .ok t) :
    t.named = Entries.ofList fields := by
  cases read
  rw [Value.Table.named, List.map_map]
  exact congrArg Entries.ofList (List.map_id _)

namespace Write

variable {id : Value} {t : Value.Table}

theorem nodup_merged (read : Value.asTable (.object fields) = .ok t) :
    (Entries.keys (merged h id t.named patch)).Nodup := by
  have named : (Entries.keys t.named).Nodup := by
    rw [Value.named_of_object read]
    exact Entries.nodup_update (by simp [Entries.keys]) fields
  exact Entries.nodup_set (Entries.nodup_update (Entries.nodup_erase named "_id") patch) _ _

theorem get?_merged (stored : Json.Table fields) (distinct : (Entries.keys patch).Nodup)
    (read : Value.asTable (.object fields) = .ok t) {key : String} (other : key ≠ h.idName)
    (own : key ≠ "_id") :
    Entries.get? (merged h id t.named patch) key =
      (Entries.get? patch key).or (Entries.get? fields key) := by
  rw [merged, Entries.get?_set_ne _ _ other.symm, Entries.get?_update distinct,
    Entries.get?_erase_ne _ own.symm, Value.named_of_object read,
    Entries.get?_ofList stored.distinct]

/-- What an update sends is its patch over the fields it read. -/
theorem merges_of_toDoc (stored : Json.Table fields) (distinct : (Entries.keys patch).Nodup)
    (read : Value.asTable (.object fields) = .ok t)
    (made : (Mapper.ofHandle h).toDoc (.object (merged h id t.named patch)) = .ok doc) :
    h.Merges id.text patch (Entries.get? fields) doc := by
  intro key
  have given : Entries.get? (merged h id t.named patch) h.idName = some (.str id.text) :=
    Entries.get?_set_self _ _ _
  have look : Entries.get? doc key =
      if h.mark? = some key then some (.str h.name)
      else if key = "_id" then some (.str id.text)
      else if key = h.idName then none
      else ((Entries.get? (merged h id t.named patch) key).filter fun v => !v.isNull).map
        Value.stored :=
    Mapper.get?_toDoc made given rfl (nodup_merged read) key
  rw [look]
  by_cases own : key = "_id"
  · simp [own]
  by_cases other : key = h.idName
  · simp [other]
  simp only [own, other, if_false, get?_merged stored distinct read other own]
  congr 1
  cases new : Entries.get? patch key with
  | some v => cases null : v.isNull <;> simp [Option.filter, null]
  | none =>
    cases old : Entries.get? fields key with
    | none => rfl
    | some v =>
      have same := Json.stored_of_encode v (stored.encode_get? old)
      cases null : v.isNull <;> simp [Option.filter, null, same]

end Write

namespace Bulk

theorem patched_ok (distinct : (Entries.keys patch).Nodup) {v : Value}
    (made : patched patch (.object fields) = .ok v) :
    ∃ doc, v = .object doc ∧ ∀ key, Entries.get? doc key =
      (Entries.get? patch key).elim (Entries.get? fields key) fun w =>
        if w.isNull then none else some w := by
  induction patch generalizing fields with
  | nil =>
    cases made
    exact ⟨fields, rfl, fun key => rfl⟩
  | cons e rest ih =>
    obtain ⟨name, w⟩ := e
    obtain ⟨fresh, distinct⟩ := List.nodup_cons.1 distinct
    have absent : Entries.get? rest name = none := Entries.get?_eq_none.2 fresh
    rw [patched, List.foldlM_cons] at made
    obtain ⟨d, first, made⟩ := Except.bind_eq_ok.1 made
    cases first
    obtain ⟨doc, rfl, look⟩ := ih distinct made
    refine ⟨doc, rfl, fun key => ?_⟩
    rw [look, Entries.get?_cons]
    by_cases same : name = key
    · subst same
      cases null : w.isNull <;> simp [absent, null]
    · cases null : w.isNull
      · simp [same, Entries.get?_set_ne _ _ same]
      · simp [same, Entries.get?_erase_ne _ same]

theorem patchOf_ok {data : Value} (plain : Mapper.plainData data = .ok fields)
    (made : patchOf h data = .ok patch) :
    patch = Value.storedFields (Entries.erase fields h.idName) := by
  rw [patchOf, plain] at made
  change (if _ then _ else _) = _ at made
  split at made
  · cases made
  · cases made
    rfl

theorem patches_of_patched {data v : Value} {delta : Fields} (shown : Json.Table fields)
    (distinct : (Entries.keys delta).Nodup) (plain : Mapper.plainData data = .ok delta)
    (patch_ : patchOf h data = .ok patch) (made : patched patch (.object fields) = .ok v)
    (form : Json.encode v = .ok (.object coded)) :
    h.Patches delta (Entries.get? fields) coded := by
  have patch_eq := patchOf_ok plain patch_
  have distinct_ : (Entries.keys patch).Nodup := by
    rw [patch_eq, Value.keys_storedFields]
    exact Entries.nodup_erase distinct h.idName
  obtain ⟨doc, rfl, look⟩ := patched_ok distinct_ made
  obtain ⟨ws, form, same⟩ := Except.map_eq_ok.1 form
  cases same
  have value : ∀ key v w, Entries.get? doc key = some v → Json.encode v = .ok w → w = v := by
    intro key v w here form
    rw [look, patch_eq, Value.get?_storedFields] at here
    cases new : Entries.get? (Entries.erase delta h.idName) key with
    | none =>
      rw [new] at here
      have coded_ := shown.encode_get? here
      rw [form] at coded_
      cases coded_
      rfl
    | some u =>
      rw [new] at here
      cases null : u.isNull with
      | true => simp [null] at here
      | false =>
        have same : u.stored = v := by simpa [null] using here
        rw [← same] at form ⊢
        exact Json.encode_stored u form
  intro key
  have sent : Entries.get? coded key = Entries.get? doc key := by
    cases here : Entries.get? doc key with
    | none => exact Json.get?_encodeFields_none form here
    | some v =>
      obtain ⟨w, form, there⟩ := Json.get?_encodeFields_some form here
      rw [there, value key v w here form]
  rw [sent, look, patch_eq, Value.get?_storedFields]
  by_cases own : key = h.idName
  · subst own
    simp
  · rw [if_neg own, Entries.get?_erase_ne _ (Ne.symm own)]
    cases Entries.get? delta key with
    | none => rfl
    | some u => simp

end Bulk

end ModelStore
