import ModelStore.Proofs.Value.Keyed
import ModelStore.Selector.Merge

/-! Merging told by look-ups. What stands under a key afterwards depends on what stood there
before and on what is written there, and on nothing else. -/

namespace ModelStore.Selector

def merged : Option Value → Value → Value
  | some (.object existing), .object added => .object (mergeAll existing added)
  | _, v => v

@[simp] theorem merged_none (v : Value) : merged none v = v := by
  cases v <;> rfl

@[simp] theorem merged_object (existing added : Fields) :
    merged (some (.object existing)) (.object added) = .object (mergeAll existing added) := rfl

theorem mergeAt_eq (target : Fields) (key : String) (v : Value) :
    mergeAt target key v = Entries.set target key (merged (Entries.get? target key) v) := by
  cases v with
  | object added =>
    rw [mergeAt]
    cases Entries.get? target key with
    | none => rfl
    | some w => cases w <;> rfl
  | _ =>
    cases h : Entries.get? target key with
    | none => rfl
    | some w => cases w <;> rfl

theorem get?_mergeAt (target : Fields) (key other : String) (v : Value) :
    Entries.get? (mergeAt target key v) other =
      if key = other then some (merged (Entries.get? target key) v)
      else Entries.get? target other := by
  rw [mergeAt_eq, Entries.get?_set]

theorem get?_mergeAt_self (target : Fields) (key : String) (v : Value) :
    Entries.get? (mergeAt target key v) key =
      some (merged (Entries.get? target key) v) := by
  rw [get?_mergeAt, if_pos rfl]

theorem get?_mergeAt_ne (target : Fields) {key other : String} (v : Value) (h : key ≠ other) :
    Entries.get? (mergeAt target key v) other = Entries.get? target other := by
  rw [get?_mergeAt, if_neg h]

theorem mem_keys_mergeAt {target : Fields} {key other : String} {v : Value} :
    other ∈ Entries.keys (mergeAt target key v) ↔
      other = key ∨ other ∈ Entries.keys target := by
  rw [mergeAt_eq, Entries.keys_set]
  split
  · rename_i present
    exact ⟨.inr, fun h => h.elim (fun same => same ▸ present) id⟩
  · rw [List.mem_append, List.mem_singleton, or_comm]

theorem mem_keys_mergeAll {target : Fields} {entries : List (String × Value)} {key : String} :
    key ∈ Entries.keys (mergeAll target entries) ↔
      key ∈ Entries.keys target ∨ key ∈ Entries.keys entries := by
  induction entries generalizing target with
  | nil => simp [mergeAll, Entries.keys]
  | cons e rest ih =>
    rw [mergeAll, ih, mem_keys_mergeAt, Entries.keys_cons, List.mem_cons, or_assoc,
      or_left_comm]

theorem get?_mergeAll_of_not_mem (target : Fields) {entries : List (String × Value)}
    {key : String} (absent : key ∉ Entries.keys entries) :
    Entries.get? (mergeAll target entries) key = Entries.get? target key := by
  induction entries generalizing target with
  | nil => rfl
  | cons e rest ih =>
    rw [Entries.keys_cons, List.mem_cons, not_or] at absent
    rw [mergeAll, ih _ absent.2, get?_mergeAt_ne _ _ (Ne.symm absent.1)]

theorem get?_mergeAll (target : Fields) {entries : List (String × Value)}
    (distinct : (Entries.keys entries).Nodup) (key : String) :
    Entries.get? (mergeAll target entries) key =
      match Entries.get? entries key with
      | some v => some (merged (Entries.get? target key) v)
      | none => Entries.get? target key := by
  induction entries generalizing target with
  | nil => rfl
  | cons e rest ih =>
    obtain ⟨k, v⟩ := e
    obtain ⟨fresh, distinct⟩ := List.nodup_cons.1 distinct
    rw [Entries.get?_cons, mergeAll]
    by_cases same : k = key
    · subst same
      rw [get?_mergeAll_of_not_mem _ fresh, get?_mergeAt_self, if_pos rfl]
    · rw [ih _ distinct, get?_mergeAt_ne _ _ same, if_neg same]

mutual

theorem merged_self (v : Value) (keyed : v.Keyed) : merged (some v) v = v := by
  cases v with
  | object fields =>
    obtain ⟨distinct, each⟩ := keyed
    rw [merged_object, mergeAll_present fields each fun e he => Entries.get?_of_mem distinct he]
  | _ => rfl

theorem mergeAll_present {target : Fields} (entries : List (String × Value))
    (keyed : Value.FieldsKeyed entries)
    (present : ∀ e ∈ entries, Entries.get? target e.1 = some e.2) :
    mergeAll target entries = target := by
  cases entries with
  | nil => rfl
  | cons e rest =>
    obtain ⟨key, v⟩ := e
    have here : Entries.get? target key = some v := present _ List.mem_cons_self
    have first : mergeAt target key v = target := by
      rw [mergeAt_eq, here, merged_self v keyed.1, Entries.set_get? here]
    rw [mergeAll, first]
    exact mergeAll_present rest keyed.2 fun e he => present e (List.mem_cons_of_mem _ he)

end

mutual

theorem keyed_merged (v : Value) (keyed : v.Keyed) {earlier : Option Value}
    (before : ∀ w, earlier = some w → w.Keyed) : (merged earlier v).Keyed := by
  cases v with
  | object added =>
    cases earlier with
    | none => exact keyed
    | some w =>
      cases w with
      | object existing => exact keyed_mergeAll added keyed.2 (before _ rfl)
      | _ => exact keyed
  | _ =>
    cases earlier with
    | none => exact keyed
    | some w => cases w <;> exact keyed

theorem keyed_mergeAll {target : Fields} (entries : List (String × Value))
    (keyed : Value.FieldsKeyed entries) (before : (Value.object target).Keyed) :
    (Value.object (mergeAll target entries)).Keyed := by
  cases entries with
  | nil => exact before
  | cons e rest =>
    obtain ⟨key, v⟩ := e
    rw [mergeAll, mergeAt_eq]
    have first : (merged (Entries.get? target key) v).Keyed :=
      keyed_merged v keyed.1 fun w hw => before.get? hw
    exact keyed_mergeAll rest keyed.2 (before.set first)

end

end ModelStore.Selector
