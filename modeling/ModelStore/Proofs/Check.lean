import ModelStore.Check.Definition
import ModelStore.Proofs.Noted
import ModelStore.Proofs.Value.Keyed

/-! What a declaration that passes its checks is known for. A check of several parts passes if each
of them does. A declared index that has been checked has fields, none of them twice, and an order
for each. -/

namespace ModelStore

namespace Checked

variable {α β : Type}

theorem both_eq_ok {x : Checked α} {y : Checked β} {a : α} {b : β} :
    both x y = .ok (a, b) ↔ x = .ok a ∧ y = .ok b := by
  cases x <;> cases y <;> simp [both]

theorem inside_eq_ok {place : String} {x : Checked α} {a : α} :
    inside place x = .ok a ↔ x = .ok a := by
  cases x <;> simp [inside]

theorem entries_cons {key : String} {x : Checked α} {rest : List (String × Checked α)}
    {table : List (String × α)} :
    entries ((key, x) :: rest) = .ok table ↔
      ∃ a later, x = .ok a ∧ entries rest = .ok later ∧ table = (key, a) :: later := by
  rw [entries, Except.map_eq_ok]
  constructor
  · rintro ⟨⟨a, later⟩, passed, rfl⟩
    obtain ⟨first, others⟩ := both_eq_ok.1 passed
    exact ⟨a, later, inside_eq_ok.1 first, others, rfl⟩
  · rintro ⟨a, later, first, others, rfl⟩
    exact ⟨(a, later), both_eq_ok.2 ⟨inside_eq_ok.2 first, others⟩, rfl⟩

theorem keys_of_mapM {f : String × β → Checked α} {entries : List (String × β)}
    {table : List (String × α)}
    (passed : entries.mapM (fun e => (f e).map fun a => (e.1, a)) = .ok table) :
    Entries.keys table = Entries.keys entries := by
  induction entries generalizing table with
  | nil =>
    cases passed
    rfl
  | cons e rest ih =>
    rw [List.mapM_cons] at passed
    obtain ⟨first, made, passed⟩ := Except.bind_eq_ok.1 passed
    obtain ⟨later, others, passed⟩ := Except.bind_eq_ok.1 passed
    obtain ⟨a, -, rfl⟩ := Except.map_eq_ok.1 made
    cases passed
    rw [Entries.keys_cons, Entries.keys_cons, ih others]

theorem keys_entries {checks : List (String × Checked α)} {table : List (String × α)}
    (passed : entries checks = .ok table) : Entries.keys table = checks.map Prod.fst := by
  induction checks generalizing table with
  | nil =>
    cases passed
    rfl
  | cons e rest ih =>
    obtain ⟨a, later, -, others, rfl⟩ := entries_cons.1 passed
    rw [Entries.keys_cons, ih others, List.map_cons]

theorem mem_of_entries {checks : List (String × Checked α)} {table : List (String × α)}
    (passed : entries checks = .ok table) {e : String × α} (mem : e ∈ table) :
    (e.1, .ok e.2) ∈ checks := by
  induction checks generalizing table with
  | nil =>
    cases passed
    cases mem
  | cons check rest ih =>
    obtain ⟨key, x⟩ := check
    obtain ⟨a, later, rfl, others, rfl⟩ := entries_cons.1 passed
    rcases List.mem_cons.1 mem with rfl | mem
    · exact List.mem_cons_self
    · exact List.mem_cons_of_mem _ (ih others mem)

end Checked

/-- What is known of a declared index that has been checked. -/
structure IndexDeclaration.Sound (i : IndexDeclaration) : Prop where
  filled : i.keys ≠ []
  distinct : (Entries.keys i.keys).Nodup
  ordered : ∀ e ∈ i.keys, e.2 = 1 ∨ e.2 = -1

namespace Check

theorem keys_intEntries {fields : List (String × Value)} {keys : List (String × Int)}
    (passed : intEntries fields = .ok keys) : Entries.keys keys = Entries.keys fields := by
  induction fields generalizing keys with
  | nil =>
    cases passed
    rfl
  | cons e rest ih =>
    obtain ⟨key, v⟩ := e
    rw [intEntries, Except.map_eq_ok] at passed
    obtain ⟨⟨n, later⟩, passed, rfl⟩ := passed
    rw [Entries.keys_cons, Entries.keys_cons, ih (Checked.both_eq_ok.1 passed).2]

theorem directionsOk_eq_ok {keys checked : Entries Int} (passed : directionsOk keys = .ok checked) :
    checked = keys ∧ keys ≠ [] ∧ ∀ e ∈ keys, e.2 = 1 ∨ e.2 = -1 := by
  unfold directionsOk at passed
  split at passed
  · cases passed
  rename_i filled
  split at passed
  · rename_i allowed
    cases passed
    refine ⟨rfl, by simpa using filled, fun e mem => ?_⟩
    have none_ := List.filter_eq_nil_iff.1 (List.map_eq_nil_iff.1 allowed) e mem
    simp only [decide_eq_true_eq] at none_
    omega
  · cases passed

theorem sound_of_rawIndex {name : String} {v : Value} {raw : RawIndex} {i : IndexDeclaration}
    (keyed : v.Keyed) (checked : ∀ i, v = .index i → i.Sound)
    (read : rawIndex name v = .ok raw) (passed : indexOf raw = .ok i) : i.Sound := by
  unfold rawIndex at read
  split at read
  · rename_i j
    cases read
    cases passed
    exact checked i rfl
  · rename_i fields
    split at read
    · rename_i keys given
      cases read
      have table : (Value.object keys).Keyed := by
        cases named : Entries.get? fields "keys" with
        | none =>
          rw [named] at given
          cases given
          exact keyed
        | some w =>
          rw [named] at given
          cases given
          exact keyed.get? named
      obtain ⟨orders, inner, rfl⟩ := Except.map_eq_ok.1 passed
      have inner : indexKeys (.object keys) = .ok orders := Checked.inside_eq_ok.1 inner
      obtain ⟨shape, shaped, ordered⟩ := Except.bind_eq_ok.1 inner
      obtain ⟨rfl, filled, ordered⟩ := directionsOk_eq_ok ordered
      refine ⟨filled, ?_, ordered⟩
      rw [keys_intEntries shaped]
      exact (Value.keyed_object.1 table).1
    · cases read
  · cases read

theorem sound_of_indexes {v : Value} {table : Entries IndexDeclaration} (keyed : v.Keyed)
    (checked : ∀ fields name i, v = .object fields → (name, .index i) ∈ fields → i.Sound)
    (passed : indexes v = .ok table) :
    (Entries.keys table).Nodup ∧ ∀ e ∈ table, e.2.Sound := by
  unfold indexes at passed
  split at passed
  · rename_i fields
    obtain ⟨raws, read, passed⟩ := Except.bind_eq_ok.1 passed
    obtain ⟨distinct, each⟩ := Value.keyed_object.1 keyed
    have named : Entries.keys raws = Entries.keys fields := Checked.keys_of_mapM read
    refine ⟨?_, fun e mem => ?_⟩
    · rw [Checked.keys_entries passed, List.map_map]
      show (Entries.keys raws).Nodup
      rwa [named]
    · obtain ⟨raw, mem, same⟩ := List.mem_map.1 (Checked.mem_of_entries passed mem)
      obtain ⟨key, sound⟩ := Prod.mk.inj same
      obtain ⟨⟨name, w⟩, given, made⟩ := Except.mem_of_mapM read mem
      obtain ⟨r, shaped, rfl⟩ := Except.map_eq_ok.1 made
      refine sound_of_rawIndex (each _ given) (fun i same => ?_) shaped sound
      exact checked fields name i rfl (same ▸ given)
  · cases passed

end Check

/-- The declared indexes of a definition that is accepted have distinct names, and each passes its
check. -/
theorem ModelDefinition.sound_of_build {raw : Check.RawDefinition} {d : ModelDefinition}
    (keyed : raw.indexes.Keyed)
    (checked : ∀ fields name i, raw.indexes = .object fields → (name, .index i) ∈ fields → i.Sound)
    (built : build raw = .ok d) :
    (Entries.keys d.indexes).Nodup ∧ ∀ e ∈ d.indexes, e.2.Sound := by
  have passed : Check.definition raw = .ok d := by
    unfold build at built
    split at built
    · rename_i accepted
      cases built
      exact accepted
    · cases built
  obtain ⟨⟨name, properties, indexes, settings⟩, parts, rfl⟩ := Except.map_eq_ok.1 passed
  obtain ⟨-, parts⟩ := Checked.both_eq_ok.1 parts
  obtain ⟨-, parts⟩ := Checked.both_eq_ok.1 parts
  obtain ⟨made, -⟩ := Checked.both_eq_ok.1 parts
  have made := Checked.inside_eq_ok.1 made
  unfold Check.orEmpty at made
  split at made
  · exact Check.sound_of_indexes keyed checked made
  · refine Check.sound_of_indexes (by simp [Value.keyed_object, Entries.keys]) ?_ made
    rintro _ name i ⟨⟩ mem
    cases mem

end ModelStore
