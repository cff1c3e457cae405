import Mathlib.Data.List.Basic
import ModelStore.Proofs.Selector.Merging

/-! Merging without conflict. At the ends of an object's paths stand its leaves, the values that are
no objects and the objects without fields. Fragments whose leaves keep out of each other's way are
merged into an object that has the leaves of them all, each at its path and once. An object is
known by its leaves but for the order of its keys, so the order of the fragments matters for that
order alone. -/

namespace ModelStore

/-- What stands at the end of a path, and the keys that lead there, the outermost first. -/
abbrev Leaf := List String × Value

namespace Leaf

def under (key : String) (leaves : List Leaf) : List Leaf := leaves.map fun l => (key :: l.1, l.2)

/-- No leaf of either list stands where the other has one, or on the way there. -/
def Apart (ls ms : List Leaf) : Prop := ∀ l ∈ ls, ∀ m ∈ ms, ¬l.1 <+: m.1 ∧ ¬m.1 <+: l.1

instance (ls ms : List Leaf) : Decidable (Apart ls ms) :=
  inferInstanceAs (Decidable (∀ l ∈ ls, ∀ m ∈ ms, ¬l.1 <+: m.1 ∧ ¬m.1 <+: l.1))

variable {key other : String} {path : List String} {leaf : Value} {ls ls' ms ms' : List Leaf}

theorem mem_under :
    (path, leaf) ∈ under key ls ↔ ∃ rest, (rest, leaf) ∈ ls ∧ path = key :: rest := by
  simp only [under, List.mem_map, Prod.mk.injEq]
  constructor
  · rintro ⟨⟨rest, v⟩, mem, rfl, rfl⟩
    exact ⟨rest, mem, rfl⟩
  · rintro ⟨rest, mem, rfl⟩
    exact ⟨(rest, leaf), mem, rfl, rfl⟩

theorem cons_mem_under :
    (other :: path, leaf) ∈ under key ls ↔ other = key ∧ (path, leaf) ∈ ls := by
  rw [mem_under]
  constructor
  · rintro ⟨rest, mem, same⟩
    cases same
    exact ⟨rfl, mem⟩
  · rintro ⟨rfl, mem⟩
    exact ⟨path, mem, rfl⟩

theorem under_append : under key (ls ++ ms) = under key ls ++ under key ms := List.map_append

theorem Apart.symm (apart : Apart ls ms) : Apart ms ls :=
  fun m hm l hl => (apart l hl m hm).symm

theorem Apart.mono (apart : Apart ls ms) (left : ls' ⊆ ls) (right : ms' ⊆ ms) : Apart ls' ms' :=
  fun l hl m hm => apart l (left hl) m (right hm)

theorem apart_append_left : Apart (ls ++ ls') ms ↔ Apart ls ms ∧ Apart ls' ms :=
  List.forall_mem_append

theorem apart_append_right : Apart ls (ms ++ ms') ↔ Apart ls ms ∧ Apart ls ms' := by
  constructor
  · exact fun apart => ⟨apart.mono (List.Subset.refl _) (List.subset_append_left _ _),
      apart.mono (List.Subset.refl _) (List.subset_append_right _ _)⟩
  · rintro ⟨first, second⟩ l hl m hm
    exact (List.mem_append.1 hm).elim (first l hl m) (second l hl m)

theorem apart_of_under (below : Apart (under key ls) (under key ms)) : Apart ls ms := by
  intro l hl m hm
  have apart := below _ (List.mem_map_of_mem hl) _ (List.mem_map_of_mem hm)
  rwa [List.prefix_cons_inj, List.prefix_cons_inj] at apart

theorem apart_under_of_ne (ne : key ≠ other) : Apart (under key ls) (under other ms) := by
  rintro ⟨path, leaf⟩ hl ⟨path', leaf'⟩ hm
  obtain ⟨rest, -, rfl⟩ := mem_under.1 hl
  obtain ⟨rest', -, rfl⟩ := mem_under.1 hm
  rw [List.cons_prefix_cons, List.cons_prefix_cons]
  exact ⟨fun h => ne h.1, fun h => ne h.1.symm⟩

end Leaf

open Leaf (under)

namespace Value

mutual

/-- A value is its own leaf unless it is an object with fields. -/
def leaves : Value → List Leaf
  | object fields => if fields.isEmpty then [([], object [])] else fieldLeaves fields
  | v => [([], v)]

def fieldLeaves : List (String × Value) → List Leaf
  | [] => []
  | (key, v) :: rest => under key (leaves v) ++ fieldLeaves rest

end

variable {v w : Value} {key : String} {path : List String} {leaf : Value} {fields others : Fields}

theorem leaves_object (some_ : fields ≠ []) : (object fields).leaves = fieldLeaves fields := by
  rw [leaves, if_neg (by simpa using some_)]

theorem leaves_cases (v : Value) :
    v.leaves = [([], v)] ∨ ∃ fields, v = object fields ∧ fields ≠ [] := by
  cases v with
  | object fields =>
    cases fields with
    | nil => exact .inl rfl
    | cons e rest => exact .inr ⟨_, rfl, List.cons_ne_nil e rest⟩
  | _ => exact .inl rfl

theorem fieldLeaves_single (key : String) (v : Value) :
    fieldLeaves [(key, v)] = under key v.leaves := by
  rw [fieldLeaves, fieldLeaves, List.append_nil]

theorem fieldLeaves_append (fields others : List (String × Value)) :
    fieldLeaves (fields ++ others) = fieldLeaves fields ++ fieldLeaves others := by
  induction fields with
  | nil => rfl
  | cons e rest ih =>
    obtain ⟨key, v⟩ := e
    rw [List.cons_append, fieldLeaves, fieldLeaves, ih, List.append_assoc]

theorem cons_mem_fieldLeaves_single {k : String} :
    (k :: path, leaf) ∈ fieldLeaves [(key, v)] ↔ k = key ∧ (path, leaf) ∈ v.leaves := by
  rw [fieldLeaves_single, Leaf.cons_mem_under]

theorem mem_fieldLeaves {l : Leaf} {entries : List (String × Value)} :
    l ∈ fieldLeaves entries ↔ ∃ e ∈ entries, l ∈ fieldLeaves [e] := by
  induction entries with
  | nil => simp [fieldLeaves]
  | cons e rest ih =>
    rw [← List.singleton_append, fieldLeaves_append, List.mem_append, ih]
    simp

theorem leaves_ne_nil : (v : Value) → v.leaves ≠ []
  | object [] => List.cons_ne_nil _ _
  | object ((key, v) :: rest) => by
    rw [leaves_object (List.cons_ne_nil _ _), fieldLeaves]
    have below : under key v.leaves ≠ [] := by simpa [under] using leaves_ne_nil v
    exact List.append_ne_nil_of_left_ne_nil below _
  | scalar _ => List.cons_ne_nil _ _
  | array _ => List.cons_ne_nil _ _
  | tuple _ => List.cons_ne_nil _ _
  | record _ => List.cons_ne_nil _ _
  | property _ => List.cons_ne_nil _ _
  | index _ => List.cons_ne_nil _ _

theorem nil_not_mem_fieldLeaves (leaf : Value) (entries : List (String × Value)) :
    ([], leaf) ∉ fieldLeaves entries := by
  rw [mem_fieldLeaves]
  rintro ⟨⟨key, v⟩, -, mem⟩
  rw [fieldLeaves_single, Leaf.mem_under] at mem
  obtain ⟨rest, -, same⟩ := mem
  cases same

theorem eq_of_nil_mem_leaves (mem : ([], leaf) ∈ v.leaves) : leaf = v := by
  rcases leaves_cases v with only | ⟨fields, rfl, some_⟩
  · rw [only, List.mem_singleton] at mem
    cases mem
    rfl
  · rw [leaves_object some_] at mem
    exact absurd mem (nil_not_mem_fieldLeaves leaf fields)

theorem cons_mem_fieldLeaves (distinct : (Entries.keys fields).Nodup) :
    (key :: path, leaf) ∈ fieldLeaves fields ↔
      ∃ v, Entries.get? fields key = some v ∧ (path, leaf) ∈ v.leaves := by
  rw [mem_fieldLeaves]
  constructor
  · rintro ⟨⟨k, v⟩, here, mem⟩
    obtain ⟨rfl, below⟩ := cons_mem_fieldLeaves_single.1 mem
    exact ⟨v, Entries.get?_of_mem distinct here, below⟩
  · rintro ⟨v, found, mem⟩
    exact ⟨(key, v), Entries.mem_of_get? found, cons_mem_fieldLeaves_single.2 ⟨rfl, mem⟩⟩

theorem mem_keys_iff_leaf :
    key ∈ Entries.keys fields ↔ ∃ path leaf, (key :: path, leaf) ∈ fieldLeaves fields := by
  rw [Entries.mem_keys]
  constructor
  · rintro ⟨v, here⟩
    obtain ⟨⟨path, leaf⟩, mem⟩ := List.exists_mem_of_ne_nil _ v.leaves_ne_nil
    exact ⟨path, leaf, mem_fieldLeaves.2 ⟨_, here, cons_mem_fieldLeaves_single.2 ⟨rfl, mem⟩⟩⟩
  · rintro ⟨path, leaf, mem⟩
    obtain ⟨⟨k, v⟩, here, mem⟩ := mem_fieldLeaves.1 mem
    obtain ⟨rfl, -⟩ := cons_mem_fieldLeaves_single.1 mem
    exact ⟨v, here⟩

theorem object_of_apart (apart : Leaf.Apart w.leaves v.leaves) :
    ∃ fields, v = object fields ∧ fields ≠ [] := by
  refine (leaves_cases v).resolve_left fun only => ?_
  obtain ⟨l, mem⟩ := List.exists_mem_of_ne_nil _ w.leaves_ne_nil
  exact (apart l mem ([], v) (by simp [only])).2 List.nil_prefix

/-- Equality of values but for the order in which objects have their keys. -/
inductive Reordered : Value → Value → Prop where
  | same (v : Value) : Reordered v v
  | object {fields others : Fields} (keys : (Entries.keys fields).Perm (Entries.keys others))
      (each : ∀ key v w, Entries.get? fields key = some v → Entries.get? others key = some w →
        Reordered v w) : Reordered (.object fields) (.object others)

theorem reordered_object (distinct : (Entries.keys fields).Nodup)
    (distinct' : (Entries.keys others).Nodup)
    (alike : ∀ l, l ∈ fieldLeaves fields ↔ l ∈ fieldLeaves others)
    (each : ∀ e ∈ fields, ∀ w, Entries.get? others e.1 = some w →
      (∀ l, l ∈ e.2.leaves ↔ l ∈ w.leaves) → e.2.Reordered w) :
    (object fields).Reordered (object others) := by
  refine .object ((List.perm_ext_iff_of_nodup distinct distinct').2 fun key => ?_) ?_
  · simp only [mem_keys_iff_leaf, alike]
  · intro key v w found found'
    refine each (key, v) (Entries.mem_of_get? found) w found' fun ⟨path, leaf⟩ => ?_
    have there := alike (key :: path, leaf)
    rw [cons_mem_fieldLeaves distinct, cons_mem_fieldLeaves distinct'] at there
    simpa [found, found'] using there

mutual

theorem reordered_of_leaves (v : Value) (keyed : v.Keyed) {w : Value} (keyed' : w.Keyed)
    (alike : ∀ l, l ∈ v.leaves ↔ l ∈ w.leaves) : v.Reordered w := by
  have itself : v.leaves = [([], v)] → v.Reordered w := by
    intro only
    rw [eq_of_nil_mem_leaves ((alike ([], v)).1 (by simp [only]))]
    exact .same w
  cases v with
  | object fields =>
    by_cases some_ : fields = []
    · exact itself (by rw [some_]; rfl)
    · rcases leaves_cases w with only | ⟨others, rfl, some'⟩
      · rw [eq_of_nil_mem_leaves ((alike ([], w)).2 (by simp [only]))]
        exact .same _
      · rw [leaves_object some_, leaves_object some'] at alike
        exact reordered_object keyed.1 keyed'.1 alike fun e he w found =>
          reordered_each fields keyed.2 e he (keyed'.get? found)
  | _ => exact itself rfl

theorem reordered_each (entries : List (String × Value)) (keyed : FieldsKeyed entries)
    (e : String × Value) (he : e ∈ entries) {w : Value} (keyed' : w.Keyed)
    (alike : ∀ l, l ∈ e.2.leaves ↔ l ∈ w.leaves) : e.2.Reordered w := by
  cases entries with
  | nil => cases he
  | cons first rest =>
    obtain ⟨key, v⟩ := first
    rcases List.mem_cons.1 he with rfl | he
    · exact reordered_of_leaves v keyed.1 keyed' alike
    · exact reordered_each rest keyed.2 e he keyed' alike

end

theorem reordered_of_fieldLeaves (keyed : (object fields).Keyed) (keyed' : (object others).Keyed)
    (alike : ∀ l, l ∈ fieldLeaves fields ↔ l ∈ fieldLeaves others) :
    (object fields).Reordered (object others) :=
  reordered_object keyed.1 keyed'.1 alike fun e he _ found =>
    reordered_each fields keyed.2 e he (keyed'.get? found)

end Value

namespace Selector

open scoped List

open Value (fieldLeaves leaves_object fieldLeaves_single fieldLeaves_append mem_fieldLeaves)

variable {target : Fields} {key : String} {v w : Value} {fragments : List (String × Value)}

def Separate (e f : String × Value) : Prop := Leaf.Apart (fieldLeaves [e]) (fieldLeaves [f])

instance (e f : String × Value) : Decidable (Separate e f) :=
  inferInstanceAs (Decidable (Leaf.Apart (fieldLeaves [e]) (fieldLeaves [f])))

theorem Separate.symm {e f : String × Value} (separate : Separate e f) : Separate f e :=
  Leaf.Apart.symm separate

theorem separate_of_distinct {entries : List (String × Value)}
    (distinct : (Entries.keys entries).Nodup) : entries.Pairwise Separate := by
  refine (List.pairwise_map.1 distinct).imp fun {e f} ne => ?_
  rw [Separate, fieldLeaves_single, fieldLeaves_single]
  exact Leaf.apart_under_of_ne ne

theorem apart_of_separate {e : String × Value} {entries : List (String × Value)}
    (separate : ∀ f ∈ entries, Separate e f) :
    Leaf.Apart (fieldLeaves [e]) (fieldLeaves entries) := by
  intro l hl m hm
  obtain ⟨f, hf, hm⟩ := mem_fieldLeaves.1 hm
  exact separate f hf l hl m hm

theorem apart_of_get? (found : Entries.get? target key = some w)
    (apart : Leaf.Apart (fieldLeaves target) (fieldLeaves [(key, v)])) :
    Leaf.Apart w.leaves v.leaves := by
  rw [fieldLeaves_single] at apart
  refine Leaf.apart_of_under (apart.mono (fun l hl => ?_) (List.Subset.refl _))
  rw [← fieldLeaves_single] at hl
  exact mem_fieldLeaves.2 ⟨_, Entries.mem_of_get? found, hl⟩

theorem mergeAll_ne_nil (some_ : target ≠ []) (entries : List (String × Value)) :
    mergeAll target entries ≠ [] := by
  obtain ⟨⟨key, v⟩, here⟩ := List.exists_mem_of_ne_nil target some_
  have there : key ∈ Entries.keys (mergeAll target entries) :=
    mem_keys_mergeAll.2 (.inl (Entries.mem_keys.2 ⟨v, here⟩))
  rintro none_
  rw [none_] at there
  cases there

theorem fieldLeaves_set (found : Entries.get? target key = some w) {new : List Leaf}
    (grown : v.leaves.Perm (w.leaves ++ new)) :
    (fieldLeaves (Entries.set target key v)).Perm (fieldLeaves target ++ under key new) := by
  induction target with
  | nil => cases found
  | cons e rest ih =>
    obtain ⟨k, u⟩ := e
    rw [Entries.get?_cons] at found
    rw [Entries.set]
    split at found
    · rename_i same
      cases found
      have first : (under k v.leaves).Perm (under k w.leaves ++ under k new) := by
        rw [← Leaf.under_append]
        exact grown.map _
      rw [if_pos same, ← same, fieldLeaves, fieldLeaves]
      calc under k v.leaves ++ fieldLeaves rest
        _ ~ under k w.leaves ++ under k new ++ fieldLeaves rest := first.append_right _
        _ = under k w.leaves ++ (under k new ++ fieldLeaves rest) := List.append_assoc _ _ _
        _ ~ under k w.leaves ++ (fieldLeaves rest ++ under k new) :=
          List.perm_append_comm.append_left _
        _ = under k w.leaves ++ fieldLeaves rest ++ under k new := (List.append_assoc _ _ _).symm
    · rename_i other
      rw [if_neg other, fieldLeaves, fieldLeaves, List.append_assoc]
      exact (ih found).append_left _

theorem fieldLeaves_mergeAt (grown : ∀ w, Entries.get? target key = some w →
      (merged (some w) v).leaves.Perm (w.leaves ++ v.leaves)) :
    (fieldLeaves (mergeAt target key v)).Perm (fieldLeaves target ++ fieldLeaves [(key, v)]) := by
  rw [mergeAt_eq, fieldLeaves_single]
  cases found : Entries.get? target key with
  | none =>
    rw [merged_none, Entries.set_of_get?_none found, fieldLeaves_append, fieldLeaves_single]
  | some w => exact fieldLeaves_set found (grown w found)

mutual

/-- Values whose leaves are apart are merged into one that has the leaves of both. -/
theorem leaves_merged (v : Value) (keyed : v.Keyed) {w : Value}
    (apart : Leaf.Apart w.leaves v.leaves) :
    (merged (some w) v).leaves.Perm (w.leaves ++ v.leaves) := by
  obtain ⟨existing, rfl, some_⟩ := Value.object_of_apart apart.symm
  cases v with
  | object added =>
    have some' : added ≠ [] := by
      obtain ⟨_, same, some'⟩ := Value.object_of_apart apart
      cases same
      exact some'
    rw [leaves_object some_, leaves_object some'] at apart
    rw [merged_object, leaves_object (mergeAll_ne_nil some_ added), leaves_object some_,
      leaves_object some']
    exact fieldLeaves_mergeAll added keyed.2 apart (separate_of_distinct keyed.1)
  | _ =>
    obtain ⟨_, same, -⟩ := Value.object_of_apart apart
    cases same

/-- Fragments that are apart from each other and from the object into which they are merged bring
their leaves to it. -/
theorem fieldLeaves_mergeAll {target : Fields} (entries : List (String × Value))
    (keyed : Value.FieldsKeyed entries)
    (apart : Leaf.Apart (fieldLeaves target) (fieldLeaves entries))
    (pairwise : entries.Pairwise Separate) :
    (fieldLeaves (mergeAll target entries)).Perm (fieldLeaves target ++ fieldLeaves entries) := by
  cases entries with
  | nil => rw [mergeAll, fieldLeaves, List.append_nil]
  | cons e rest =>
    obtain ⟨key, v⟩ := e
    have whole : fieldLeaves ((key, v) :: rest) = fieldLeaves [(key, v)] ++ fieldLeaves rest :=
      fieldLeaves_append [(key, v)] rest
    rw [whole, Leaf.apart_append_right] at apart
    obtain ⟨first, later⟩ := List.pairwise_cons.1 pairwise
    have grown : (fieldLeaves (mergeAt target key v)).Perm
        (fieldLeaves target ++ fieldLeaves [(key, v)]) :=
      fieldLeaves_mergeAt fun w found => leaves_merged v keyed.1 (apart_of_get? found apart.1)
    have others : Leaf.Apart (fieldLeaves (mergeAt target key v)) (fieldLeaves rest) :=
      (Leaf.apart_append_left.2 ⟨apart.2, apart_of_separate first⟩).mono grown.subset
        (List.Subset.refl _)
    rw [mergeAll, whole]
    calc fieldLeaves (mergeAll (mergeAt target key v) rest)
      _ ~ fieldLeaves (mergeAt target key v) ++ fieldLeaves rest :=
        fieldLeaves_mergeAll rest keyed.2 others later
      _ ~ fieldLeaves target ++ fieldLeaves [(key, v)] ++ fieldLeaves rest := grown.append_right _
      _ = fieldLeaves target ++ (fieldLeaves [(key, v)] ++ fieldLeaves rest) :=
        List.append_assoc _ _ _

end

def gathered (fragments : List (String × Value)) : Fields :=
  fragments.foldl (fun selector e => mergeAt selector e.1 e.2) []

theorem foldl_mergeAt (target : Fields) (fragments : List (String × Value)) :
    fragments.foldl (fun selector e => mergeAt selector e.1 e.2) target =
      mergeAll target fragments := by
  induction fragments generalizing target with
  | nil => rfl
  | cons e rest ih => exact ih (mergeAt target e.1 e.2)

theorem gathered_eq (fragments : List (String × Value)) :
    gathered fragments = mergeAll [] fragments :=
  foldl_mergeAt [] fragments

theorem keyed_gathered (keyed : ∀ e ∈ fragments, e.2.Keyed) :
    (Value.object (gathered fragments)).Keyed := by
  rw [gathered_eq]
  exact keyed_mergeAll fragments (Value.fieldsKeyed_iff.2 keyed) ⟨List.nodup_nil, trivial⟩

theorem fieldLeaves_gathered (keyed : ∀ e ∈ fragments, e.2.Keyed)
    (separate : fragments.Pairwise Separate) :
    (fieldLeaves (gathered fragments)).Perm (fieldLeaves fragments) := by
  rw [gathered_eq]
  exact fieldLeaves_mergeAll fragments (Value.fieldsKeyed_iff.2 keyed)
    (fun l hl => absurd hl List.not_mem_nil) separate

/-- Fragments whose leaves keep out of each other's way are merged into an object with the leaves of
them all, each once, and in another order into the same object but for the order of its keys. As
in tables and JSON text, the objects of a fragment name each of their keys once. -/
theorem gathered_unites {fragments : List (String × Value)}
    (keyed : ∀ e ∈ fragments, e.2.Keyed) (separate : fragments.Pairwise Separate) :
    (Value.object (gathered fragments)).Keyed ∧
    (fieldLeaves (gathered fragments)).Perm (fieldLeaves fragments) ∧
    ∀ other, other.Perm fragments →
      (Value.object (gathered other)).Reordered (.object (gathered fragments)) := by
  have leaves := fieldLeaves_gathered keyed separate
  refine ⟨keyed_gathered keyed, leaves, fun other perm => ?_⟩
  have keyed' : ∀ e ∈ other, e.2.Keyed := fun e he => keyed e (perm.mem_iff.1 he)
  have leaves' := fieldLeaves_gathered keyed' ((perm.pairwise_iff Separate.symm).2 separate)
  have alike : ∀ l, l ∈ fieldLeaves (gathered other) ↔ l ∈ fieldLeaves (gathered fragments) := by
    intro l
    rw [leaves'.mem_iff, leaves.mem_iff, mem_fieldLeaves, mem_fieldLeaves]
    simp only [perm.mem_iff]
  exact Value.reordered_of_fieldLeaves (keyed_gathered keyed') (keyed_gathered keyed) alike

/-- Two bounds of a number, and two parts of an address. -/
theorem gathered_unites_customer :
    let low : String × Value := ("age", .object [("$gte", .int 5)])
    let high : String × Value := ("age", .object [("$lt", .int 9)])
    let tag : String × Value :=
      ("address", .object [("tags", .object [("$elemMatch", .object [("tag", .str "new")])])])
    let street : String × Value := ("address", .object [("street", .object [])])
    let fragments := [low, tag, high, street]
    let whole : Fields :=
      [("age", .object [("$gte", .int 5), ("$lt", .int 9)]),
       ("address", .object [("tags", .object [("$elemMatch", .object [("tag", .str "new")])]),
          ("street", .object [])])]
    (∀ e ∈ fragments, e.2.Keyed) ∧ fragments.Pairwise Separate ∧
      gathered fragments = whole ∧ fragments.reverse.Perm fragments ∧
      (Value.object (gathered fragments.reverse)).Reordered (.object whole) := by
  intro low high tag street fragments whole
  have keyed : ∀ e ∈ fragments, e.2.Keyed := by
    simp [fragments, low, high, tag, street, Value.Keyed, Value.FieldsKeyed, Entries.keys]
  have separate : fragments.Pairwise Separate := by decide
  have same : gathered fragments = whole := rfl
  have turned : fragments.reverse.Perm fragments := List.reverse_perm fragments
  refine ⟨keyed, separate, same, turned, ?_⟩
  rw [← same]
  exact (gathered_unites keyed separate).2.2 fragments.reverse turned

end Selector

end ModelStore
