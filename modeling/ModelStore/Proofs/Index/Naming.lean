import ModelStore.Index.Migration
import ModelStore.Proofs.Noted

/-! Whose index a design document holds. It is named after the model and the index, and a model
takes for its own every document whose name begins with the model's stem. So it may take one of
another model, which it can only where the one model's name goes on from the other's with the
words between the names. -/

namespace ModelStore

namespace Naming

variable {n : Naming} {model other index : String}

/-- Whether a model takes the design document of another one's index for its own. -/
def Claims (n : Naming) (model other index : String) : Prop :=
  (n.modelStem model).toList <+: (n.designName other index).toList

instance : Decidable (n.Claims model other index) :=
  inferInstanceAs (Decidable (_ <+: _))

/-- What stands between the names of a model and of an index. -/
def joint (n : Naming) : List Char := ("__" ++ n.propertyPrefix ++ "__").toList

/-- Whether a model's name goes on from another's so that its stem does so as well. -/
def Continues (n : Naming) (model other : String) : Prop :=
  ∃ t, other.toList = model.toList ++ t ∧ n.joint <+: t ++ n.joint

theorem claims_iff_exists :
    n.Claims model other index ↔ ∃ own, n.designName other index = n.designName model own := by
  constructor
  · rintro ⟨rest, same⟩
    refine ⟨String.ofList rest, String.toList_inj.1 ?_⟩
    rw [← same, designName, String.toList_append, String.toList_ofList]
  · rintro ⟨own, same⟩
    rw [Claims, same, designName, String.toList_append]
    exact List.prefix_append _ _

theorem toList_modelStem (n : Naming) (model : String) :
    (n.modelStem model).toList =
      (n.modelPrefix ++ "__").toList ++ (model.toList ++ n.joint) := by
  simp only [modelStem, joint, String.toList_append, List.append_assoc]

theorem stem_prefix_iff :
    (n.modelStem model).toList <+: (n.modelStem other).toList ↔ n.Continues model other := by
  rw [toList_modelStem, toList_modelStem, List.prefix_append_right_inj]
  constructor
  · intro leads
    have longer : model.toList.length ≤ other.toList.length := by
      have lengths := leads.length_le
      rw [List.length_append, List.length_append] at lengths
      exact Nat.le_of_add_le_add_right lengths
    obtain ⟨t, same⟩ := List.prefix_of_prefix_length_le
      ((List.prefix_append _ _).trans leads) (List.prefix_append _ _) longer
    rw [← same, List.append_assoc, List.prefix_append_right_inj] at leads
    exact ⟨t, same.symm, leads⟩
  · rintro ⟨t, same, leads⟩
    rw [same, List.append_assoc, List.prefix_append_right_inj]
    exact leads

/-- A model claims some index of another if and only if one of the names goes on from the other
with what stands between names. -/
theorem exists_claims_iff :
    (∃ index, n.Claims model other index) ↔ n.Continues model other ∨ n.Continues other model := by
  rw [← stem_prefix_iff, ← stem_prefix_iff]
  constructor
  · rintro ⟨index, claims⟩
    rw [Claims, designName, String.toList_append] at claims
    exact List.prefix_or_prefix_of_prefix claims (List.prefix_append _ _)
  · rintro (leads | ⟨rest, same⟩)
    · refine ⟨"", ?_⟩
      rw [Claims, designName, String.append_empty]
      exact leads
    · refine ⟨String.ofList rest, claims_iff_exists.2 ⟨"", String.toList_inj.1 ?_⟩⟩
      rw [designName, designName, String.append_empty, String.toList_append,
        String.toList_ofList, same]

/-- The word between the names, without what may overlap with itself. -/
def word : String := "__LBIndex"

/-- Whether a model's name goes on from another's with that word, and then with nothing, with an
underscore or with two. -/
def GoesOn (model other : String) : Prop :=
  ∃ rest, other = model ++ word ++ rest ∧
    (rest = "" ∨ rest = "_" ∨ "__".toList <+: rest.toList)

theorem continues_default_iff (different : model ≠ other) :
    default.Continues model other ↔ GoesOn model other := by
  have overlaps : ∀ k ≤ default.joint.length, default.joint.drop k <+: default.joint →
      k = 0 ∨ ∃ rest ∈ ["", "_", "__"], default.joint.take k = word.toList ++ rest.toList := by
    decide
  constructor
  · rintro ⟨t, same, leads⟩
    have proper : t ≠ [] := by
      rintro rfl
      exact different (String.toList_inj.1 (by rw [same, List.append_nil]))
    suffices goes : ∃ rest : String, t = word.toList ++ rest.toList ∧
        (rest = "" ∨ rest = "_" ∨ "__".toList <+: rest.toList) by
      obtain ⟨rest, rfl, ends⟩ := goes
      refine ⟨rest, String.toList_inj.1 ?_, ends⟩
      rw [same, String.toList_append, String.toList_append, List.append_assoc]
    rcases List.prefix_or_prefix_of_prefix leads (List.prefix_append t _) with
      ⟨rest, whole⟩ | short
    · have joint : default.joint = word.toList ++ "__".toList := by decide
      refine ⟨String.ofList ("__".toList ++ rest), ?_, .inr (.inr ?_)⟩
      · rw [String.toList_ofList, ← List.append_assoc, ← joint, whole]
      · exact ⟨rest, String.toList_ofList.symm⟩
    · have turned : default.joint.drop t.length <+: default.joint := by
        obtain ⟨rest, whole⟩ := short
        rw [← whole, List.drop_left, whole]
        rwa [← whole, List.prefix_append_right_inj, whole] at leads
      rcases overlaps t.length short.length_le turned with none_ | ⟨rest, mem, same⟩
      · exact absurd (List.length_eq_zero_iff.1 none_) proper
      · refine ⟨rest, (List.prefix_iff_eq_take.1 short).trans same, ?_⟩
        rcases mem with _ | ⟨_, _ | ⟨_, _ | ⟨_, last⟩⟩⟩
        · exact .inl rfl
        · exact .inr (.inl rfl)
        · exact .inr (.inr (List.prefix_refl _))
        · cases last
  · rintro ⟨rest, rfl, ends⟩
    refine ⟨word.toList ++ rest.toList, ?_, ?_⟩
    · rw [String.toList_append, String.toList_append, List.append_assoc]
    · rcases ends with rfl | rfl | ⟨t, same⟩
      · decide
      · decide
      · rw [← same, List.append_assoc, List.append_assoc, ← List.append_assoc]
        exact List.prefix_append _ _

end Naming

namespace Listing

variable {P : ListedIndex → Prop} {listing : Listing} {i : ListedIndex}

theorem forall_mem_set (each : ∀ e ∈ listing, P e.2) (new : P i) :
    ∀ e ∈ listing.set i, P e.2 := by
  induction listing with
  | nil => exact List.forall_mem_cons.2 ⟨new, nofun⟩
  | cons e rest ih =>
    obtain ⟨first, others⟩ := List.forall_mem_cons.1 each
    unfold set
    split
    · exact List.forall_mem_cons.2 ⟨new, others⟩
    · exact List.forall_mem_cons.2 ⟨first, ih others⟩

theorem of_get? (each : ∀ e ∈ listing, P e.2) {name : String}
    (found : listing.get? name = some i) : P i := by
  obtain ⟨e, here, rfl⟩ := Option.map_eq_some_iff.1 found
  exact each e (List.mem_of_find?_eq_some here)

end Listing

namespace ListedIndex

variable {n : Naming} {model : String} {entry : Value} {entries mine : List Value}
  {listing : Listing}

/-- An entry belongs to a model if its design document is named as that of some index of the
model. -/
theorem owned_iff : owned n model entry = .ok true ↔
    ∃ index, entry.get? "ddoc" = some (.str (designPrefix ++ n.designName model index)) := by
  cases entry with
  | object fields =>
    simp only [owned, Value.fieldsFor, Value.get?, bind, Except.bind]
    split
    · rename_i design here
      rw [here, Except.ok.injEq, Option.isSome_iff_exists]
      constructor
      · rintro ⟨rest, found⟩
        refine ⟨String.ofList rest, congrArg (fun s => some (Value.str s)) ?_⟩
        rw [← String.toList_inj, Text.afterLeading?_eq_some.1 found, Naming.designName]
        simp only [String.toList_append, String.toList_ofList, List.append_assoc]
      · rintro ⟨index, same⟩
        cases same
        refine ⟨index.toList, Text.afterLeading?_eq_some.2 ?_⟩
        rw [Naming.designName, ← String.append_assoc, String.toList_append]
    · rename_i other
      constructor
      · intro wrong
        cases wrong
      · rintro ⟨index, here⟩
        exact absurd here (other _)
  | _ =>
    constructor
    · intro wrong
      cases wrong
    · rintro ⟨index, here⟩
      cases here

theorem mem_of_selectOwned (selected : selectOwned n model entries = .ok mine) :
    entry ∈ mine ↔ entry ∈ entries ∧ owned n model entry = .ok true := by
  induction entries generalizing mine with
  | nil =>
    cases selected
    simp
  | cons first rest ih =>
    obtain ⟨own, here, selected⟩ := Except.bind_eq_ok.1 selected
    obtain ⟨others, there, selected⟩ := Except.bind_eq_ok.1 selected
    cases selected
    have rest_ := ih there
    cases own with
    | true =>
      rw [if_pos rfl, List.mem_cons, List.mem_cons, rest_, or_and_right]
      refine or_congr_left ⟨?_, And.left⟩
      rintro rfl
      exact ⟨rfl, here⟩
    | false =>
      rw [if_neg Bool.false_ne_true, List.mem_cons, rest_, or_and_right, or_iff_right]
      rintro ⟨rfl, own⟩
      rw [here] at own
      cases own

theorem mem_of_selectOwned_iff {other index : String}
    (selected : selectOwned n model entries = .ok mine) (mem : entry ∈ entries)
    (design : entry.get? "ddoc" = some (.str (designPrefix ++ n.designName other index))) :
    entry ∈ mine ↔ n.Claims model other index := by
  rw [mem_of_selectOwned selected, owned_iff, design, Naming.claims_iff_exists]
  simp only [mem, true_and, Option.some.injEq, Value.scalar.injEq, Scalar.str.injEq,
    String.append_right_inj]

theorem forall_mem_list {P : ListedIndex → Prop}
    (each : ∀ entry ∈ entries, ∀ i, ofEntry entry = .ok i → P i)
    (listed : list entries = .ok listing) : ∀ e ∈ listing, P e.2 := by
  suffices folded : ∀ acc : Listing, (∀ e ∈ acc, P e.2) →
      entries.foldlM (fun acc entry => (ofEntry entry).map acc.set) acc = .ok listing →
      ∀ e ∈ listing, P e.2 from folded [] nofun listed
  clear listed
  intro acc before listed
  induction entries generalizing acc with
  | nil =>
    cases listed
    exact before
  | cons entry rest ih =>
    obtain ⟨first, others⟩ := List.forall_mem_cons.1 each
    obtain ⟨next, here, listed⟩ := Except.bind_eq_ok.1 listed
    obtain ⟨i, made, rfl⟩ := Except.map_eq_ok.1 here
    exact ih others _ (Listing.forall_mem_set before (first i made)) listed

theorem design_of_ofEntry {i : ListedIndex} (made : ofEntry entry = .ok i) :
    entry.get? "ddoc" = some i.design := by
  unfold ofEntry at made
  split at made
  · rename_i design _ _ here _
    obtain ⟨items, -, made⟩ := Except.bind_eq_ok.1 made
    obtain ⟨fields, -, made⟩ := Except.bind_eq_ok.1 made
    split at made
    · cases made
      exact here
    · cases made
  · cases made

/-- Whether an index is in a design document that is named as a model's own. -/
def IsOf (n : Naming) (model : String) (i : ListedIndex) : Prop :=
  ∃ index, i.design = .str (designPrefix ++ n.designName model index)

theorem isOf_of_listOwned (listed : listOwned n model entries = .ok listing) :
    ∀ e ∈ listing, e.2.IsOf n model := by
  obtain ⟨mine, selected, listed⟩ := Except.bind_eq_ok.1 listed
  refine forall_mem_list (fun entry mem i made => ?_) listed
  obtain ⟨index, here⟩ := owned_iff.1 ((mem_of_selectOwned selected).1 mem).2
  rw [design_of_ofEntry made, Option.some.injEq] at here
  exact ⟨index, here⟩

end ListedIndex

namespace IndexPlan

variable {P : ListedIndex → Prop} {candidates : Entries Candidate} {listing : Listing}

theorem forall_mem_drop_step {plan : IndexPlan} (each : ∀ e ∈ listing, P e.2)
    (before : ∀ e ∈ plan.drop, P e.2) (c : String × Candidate) :
    ∀ e ∈ (step listing plan c).drop, P e.2 := by
  unfold step
  split
  · exact before
  · rename_i old found
    split
    · exact before
    · exact Listing.forall_mem_set before (Listing.of_get? each found)

theorem forall_mem_drop (each : ∀ e ∈ listing, P e.2) (rebuild : Bool) :
    ∀ e ∈ (of candidates listing rebuild).drop, P e.2 := by
  have folded : ∀ plan : IndexPlan, (∀ e ∈ plan.drop, P e.2) →
      ∀ e ∈ (candidates.foldl (step listing) plan).drop, P e.2 := by
    induction candidates with
    | nil => exact fun plan before => before
    | cons c rest ih => exact fun plan before => ih _ (forall_mem_drop_step each before c)
  cases rebuild with
  | true => exact each
  | false =>
    intro e mem
    rcases List.mem_append.1 mem with misfit | orphan
    · exact folded ⟨[], []⟩ (fun _ none_ => by cases none_) e misfit
    · exact each e (List.mem_filter.1 orphan).1

theorem mem_designs_drop {n : Naming} {model : String} {entries : List Value}
    (listed : ListedIndex.listOwned n model entries = .ok listing) {rebuild : Bool}
    {plan : IndexPlan} (made : make candidates listing rebuild = .ok plan) {design : String}
    (mem : design ∈ Migration.designs plan.drop) :
    ∃ index, design = designPrefix ++ n.designName model index := by
  simp only [make] at made
  split at made
  · cases made
    rw [Migration.designs, List.mem_eraseDups, List.mem_filterMap] at mem
    obtain ⟨e, dropped, text⟩ := mem
    obtain ⟨index, named⟩ := forall_mem_drop (ListedIndex.isOf_of_listOwned listed) rebuild e
      dropped
    rw [named] at text
    cases text
    exact ⟨index, rfl⟩
  · cases made

end IndexPlan

end ModelStore
