import ModelStore.Proofs.Entries
import ModelStore.Value.Basic

/-! Values whose objects name each of their keys once, as far down as they reach. Values that
come from a table or from JSON text are of this kind, and only for them is looking up a key
the same as having an entry. -/

namespace ModelStore.Value

mutual

def Keyed : Value → Prop
  | array items => AllKeyed items
  | tuple items => AllKeyed items
  | object fields => (Entries.keys fields).Nodup ∧ FieldsKeyed fields
  | _ => True

def AllKeyed : List Value → Prop
  | [] => True
  | v :: rest => Keyed v ∧ AllKeyed rest

def FieldsKeyed : List (String × Value) → Prop
  | [] => True
  | (_, v) :: rest => Keyed v ∧ FieldsKeyed rest

end

@[simp] theorem keyed_scalar (s : Scalar) : (scalar s).Keyed := trivial

theorem allKeyed_iff {items : List Value} : AllKeyed items ↔ ∀ v ∈ items, v.Keyed := by
  induction items with
  | nil => simp [AllKeyed]
  | cons v rest ih => rw [AllKeyed, ih, List.forall_mem_cons]

theorem fieldsKeyed_iff {entries : List (String × Value)} :
    FieldsKeyed entries ↔ ∀ e ∈ entries, e.2.Keyed :=
  Entries.forall_iff FieldsKeyed (by simp [FieldsKeyed]) (by simp [FieldsKeyed])

theorem keyed_array {items : List Value} : (array items).Keyed ↔ ∀ v ∈ items, v.Keyed :=
  allKeyed_iff

theorem keyed_object {fields : Fields} :
    (object fields).Keyed ↔ (Entries.keys fields).Nodup ∧ ∀ e ∈ fields, e.2.Keyed := by
  rw [Keyed, fieldsKeyed_iff]

theorem keyed_single {key : String} {v : Value} : (object [(key, v)]).Keyed ↔ v.Keyed := by
  simp [keyed_object, Entries.keys]

theorem Keyed.get? {fields : Fields} (keyed : (object fields).Keyed) {key : String} {v : Value}
    (h : Entries.get? fields key = some v) : v.Keyed :=
  (keyed_object.1 keyed).2 _ (Entries.mem_of_get? h)

theorem Keyed.set {fields : Fields} (keyed : (object fields).Keyed) {key : String} {v : Value}
    (h : v.Keyed) : (object (Entries.set fields key v)).Keyed := by
  obtain ⟨distinct, each⟩ := keyed_object.1 keyed
  refine keyed_object.2 ⟨Entries.nodup_set distinct key v, ?_⟩
  rintro ⟨k, w⟩ he
  rcases Entries.mem_set he with new | old
  · cases new
    exact h
  · exact each _ old

end ModelStore.Value
