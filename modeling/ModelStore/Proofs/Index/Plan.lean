import ModelStore.Index.Plan
import ModelStore.Index.Migration
import ModelStore.Proofs.Index.Candidate

/-! The plan of a migration for a model. The indexes in the model's design documents are listed
as a table by name, and what is added and dropped can be read off it: nothing is dropped
that is wanted and not added again. -/

namespace ModelStore

/-- A model's index as it is listed: what its design document is named after, and its fields. -/
structure PlacedIndex where
  place : String
  fields : List IndexField

variable {h : Handle} {name : String} {i : PlacedIndex} {c : Candidate}

def Handle.ownIndex (h : Handle) (name : String) (i : PlacedIndex) : ListedIndex :=
  ⟨.str name, .str (h.indexDesign i.place), i.fields⟩

def Handle.ownListing (h : Handle) (table : Entries PlacedIndex) : Listing :=
  table.map fun e => (.str e.1, h.ownIndex e.1 e.2)

namespace Listing

variable {table : Entries PlacedIndex}

theorem get?_ownListing (name : String) :
    get? (h.ownListing table) name = (Entries.get? table name).map (h.ownIndex name) := by
  induction table with
  | nil => rfl
  | cons e rest ih =>
    obtain ⟨key, listed⟩ := e
    by_cases same : key = name
    · subst same
      simp [get?, Handle.ownListing, Entries.get?_cons]
    · simpa [get?, Handle.ownListing, Entries.get?_cons, same] using ih

theorem set_ownListing (name : String) (i : PlacedIndex) :
    set (h.ownListing table) (h.ownIndex name i) =
      h.ownListing (Entries.set table name i) := by
  induction table with
  | nil => rfl
  | cons e rest ih =>
    obtain ⟨key, listed⟩ := e
    have first : (Value.str key).same (h.ownIndex name i).name = (key == name) :=
      Value.same_str key name
    show set ((.str key, h.ownIndex key listed) :: h.ownListing rest) _ = _
    rw [set, Entries.set, first, ih]
    by_cases same : key = name
    · subst same
      simp [Handle.ownListing]
    · simp [Handle.ownListing, same]

theorem nodup_eraseDups (designs : List String) : designs.eraseDups.Nodup := by
  match designs with
  | [] => exact List.nodup_nil
  | design :: rest =>
    rw [List.eraseDups_cons, List.nodup_cons, List.mem_eraseDups]
    exact ⟨by simp, nodup_eraseDups (rest.filter fun other => !other == design)⟩
termination_by designs.length
decreasing_by exact Nat.lt_succ_of_le (List.length_filter_le _ rest)

theorem mem_designs {design : String} :
    design ∈ Migration.designs (h.ownListing table) ↔
      ∃ e ∈ table, design = h.indexDesign e.2.place := by
  rw [Migration.designs, List.mem_eraseDups, List.mem_filterMap]
  constructor
  · rintro ⟨e, mem, found⟩
    obtain ⟨entry, member, rfl⟩ := List.mem_map.1 mem
    cases found
    exact ⟨entry, member, rfl⟩
  · rintro ⟨entry, member, rfl⟩
    exact ⟨_, List.mem_map.2 ⟨entry, member, rfl⟩, rfl⟩

end Listing

namespace IndexPlan

theorem sameFields_iff {a b : List IndexField} :
    sameFields a b = true ↔ ∀ f, f ∈ a ↔ f ∈ b := by
  simp only [sameFields, Bool.and_eq_true, List.all_eq_true, List.contains_iff_mem]
  exact ⟨fun both f => ⟨both.1 f, both.2 f⟩, fun each => ⟨fun f => (each f).1, fun f => (each f).2⟩⟩

def lacks (table : Entries PlacedIndex) (e : String × Candidate) : Bool :=
  !(Entries.get? table e.1).any fun old => sameFields e.2.fields old.fields

def misfit? (table : Entries PlacedIndex) (e : String × Candidate) :
    Option (String × PlacedIndex) :=
  ((Entries.get? table e.1).filter fun old => !sameFields e.2.fields old.fields).map (e.1, ·)

variable {table : Entries PlacedIndex} {candidates : Entries Candidate}

theorem misfit?_eq_some {e : String × Candidate} {d : String × PlacedIndex} :
    misfit? table e = some d ↔
      d.1 = e.1 ∧ Entries.get? table e.1 = some d.2 ∧ sameFields e.2.fields d.2.fields = false := by
  obtain ⟨name, i⟩ := d
  simp only [misfit?, Option.map_eq_some_iff, Option.filter_eq_some_iff, Prod.mk.injEq,
    Bool.not_eq_true']
  constructor
  · rintro ⟨old, ⟨here, misfits⟩, rfl, rfl⟩
    exact ⟨rfl, here, misfits⟩
  · rintro ⟨rfl, here, misfits⟩
    exact ⟨i, ⟨here, misfits⟩, rfl, rfl⟩

theorem step_ownListing {plan : IndexPlan} {drop : Entries PlacedIndex}
    (drops : plan.drop = h.ownListing drop) {e : String × Candidate}
    (unadded : e.1 ∉ Entries.keys plan.add) (undropped : e.1 ∉ Entries.keys drop) :
    step (h.ownListing table) plan e =
      ⟨plan.add ++ [e].filter (lacks table),
        h.ownListing (drop ++ [e].filterMap (misfit? table))⟩ := by
  have add : Entries.set plan.add e.1 e.2 = plan.add ++ [e] :=
    Entries.set_of_get?_none (Entries.get?_eq_none.2 unadded) e.2
  rw [step, Listing.get?_ownListing]
  cases here : Entries.get? table e.1 with
  | none => simp [add, drops, lacks, misfit?, here]
  | some old =>
    have dropped : Listing.set plan.drop (h.ownIndex e.1 old) =
        h.ownListing (drop ++ [(e.1, old)]) := by
      rw [drops, Listing.set_ownListing,
        Entries.set_of_get?_none (Entries.get?_eq_none.2 undropped)]
    have fields : (h.ownIndex e.1 old).fields = old.fields := rfl
    cases fits : sameFields e.2.fields old.fields with
    | true => simp [fields, fits, lacks, misfit?, here, Option.filter, ← drops]
    | false => simp [fields, fits, add, dropped, lacks, misfit?, here, Option.filter]

theorem foldl_step {before rest : Entries Candidate}
    (distinct : (Entries.keys (before ++ rest)).Nodup) :
    rest.foldl (step (h.ownListing table))
        ⟨before.filter (lacks table), h.ownListing (before.filterMap (misfit? table))⟩ =
      ⟨(before ++ rest).filter (lacks table),
        h.ownListing ((before ++ rest).filterMap (misfit? table))⟩ := by
  induction rest generalizing before with
  | nil => simp
  | cons e rest ih =>
    have split : before ++ e :: rest = (before ++ [e]) ++ rest := by simp
    have fresh : e.1 ∉ Entries.keys before := by
      rw [Entries.keys, List.map_append, List.nodup_append] at distinct
      intro mem
      exact distinct.2.2 e.1 mem e.1 List.mem_cons_self rfl
    have unadded : e.1 ∉ Entries.keys (before.filter (lacks table)) := by
      intro mem
      obtain ⟨d, member, same⟩ := List.mem_map.1 mem
      exact fresh (List.mem_map.2 ⟨d, (List.mem_filter.1 member).1, same⟩)
    have undropped : e.1 ∉ Entries.keys (before.filterMap (misfit? table)) := by
      intro mem
      obtain ⟨d, member, same⟩ := List.mem_map.1 mem
      obtain ⟨d', member, found⟩ := List.mem_filterMap.1 member
      exact fresh (List.mem_map.2 ⟨d', member, (misfit?_eq_some.1 found).1 ▸ same⟩)
    rw [List.foldl_cons, step_ownListing rfl unadded undropped, ← List.filter_append,
      ← List.filterMap_append, split]
    exact ih (split ▸ distinct)

/-- What a plan drops: the misfits, and what is not wanted. -/
def dropped (candidates : Entries Candidate) (table : Entries PlacedIndex) :
    Entries PlacedIndex :=
  candidates.filterMap (misfit? table) ++ table.filter fun e => !Entries.has candidates e.1

theorem update_ownListing (distinct : (Entries.keys candidates).Nodup) :
    update candidates (h.ownListing table) =
      ⟨candidates.filter (lacks table), h.ownListing (dropped candidates table)⟩ := by
  have folded := @foldl_step h table [] candidates distinct
  have orphans : (h.ownListing table).filter (fun e => !isCandidate candidates e.1) =
      h.ownListing (table.filter fun e => !Entries.has candidates e.1) := by
    rw [Handle.ownListing, List.filter_map]
    rfl
  simp only [List.filter_nil, List.filterMap_nil, List.nil_append] at folded
  rw [update, show (⟨[], []⟩ : IndexPlan) = ⟨[], h.ownListing []⟩ from rfl, folded, orphans,
    dropped, Handle.ownListing, Handle.ownListing, Handle.ownListing, List.map_append]

theorem isOrdered_ownListing {add : Entries Candidate} :
    isOrdered ⟨add, h.ownListing table⟩ = true := by
  have texts : ∀ v ∈ (h.ownListing table).map Prod.fst, ∃ s, v = .str s := by
    intro v mem
    obtain ⟨e, member, rfl⟩ := List.mem_map.1 mem
    obtain ⟨entry, -, rfl⟩ := List.mem_map.1 member
    exact ⟨entry.1, rfl⟩
  rw [isOrdered, Value.sorted?, if_pos]
  · rfl
  · simp only [List.all_eq_true]
    rintro ⟨v, i⟩ mem w later
    obtain ⟨s, rfl⟩ := texts v (List.fst_mem_of_mem_zipIdx mem)
    obtain ⟨t, rfl⟩ := texts w (List.mem_of_mem_drop later)
    rfl

theorem of_ownListing (distinct : (Entries.keys candidates).Nodup) (rebuild : Bool) :
    of candidates (h.ownListing table) rebuild =
      ⟨if rebuild then candidates else candidates.filter (lacks table),
        h.ownListing (if rebuild then table else dropped candidates table)⟩ := by
  cases rebuild with
  | true => rfl
  | false => exact update_ownListing distinct

theorem add_sublist (distinct : (Entries.keys candidates).Nodup) (rebuild : Bool) :
    (of candidates (h.ownListing table) rebuild).add.Sublist candidates := by
  rw [of_ownListing distinct]
  cases rebuild with
  | true => exact List.Sublist.refl candidates
  | false => exact List.filter_sublist

theorem make_ownListing (distinct : (Entries.keys candidates).Nodup) (rebuild : Bool) :
    make candidates (h.ownListing table) rebuild =
      .ok (of candidates (h.ownListing table) rebuild) := by
  rw [make, of_ownListing distinct]
  exact if_pos isOrdered_ownListing

variable {e : String × Candidate}

theorem lacks_eq_false : lacks table e = false ↔
    ∃ old, Entries.get? table e.1 = some old ∧ sameFields e.2.fields old.fields = true := by
  cases here : Entries.get? table e.1 with
  | none => simp [lacks, here]
  | some old => simp [lacks, here]

/-- An index is dropped if it is wanted with other fields, or not wanted at all. -/
theorem mem_dropped : (name, i) ∈ dropped candidates table ↔
    (∃ c, (name, c) ∈ candidates ∧ Entries.get? table name = some i ∧
      sameFields c.fields i.fields = false) ∨
    ((name, i) ∈ table ∧ name ∉ Entries.keys candidates) := by
  rw [dropped, List.mem_append]
  refine or_congr ?_ ?_
  · constructor
    · intro mem
      obtain ⟨⟨key, c⟩, wanted, found⟩ := List.mem_filterMap.1 mem
      obtain ⟨same, here, misfits⟩ := misfit?_eq_some.1 found
      cases same
      exact ⟨c, wanted, here, misfits⟩
    · rintro ⟨c, wanted, here, misfits⟩
      exact List.mem_filterMap.2 ⟨(name, c), wanted, misfit?_eq_some.2 ⟨rfl, here, misfits⟩⟩
  · rw [List.mem_filter, ← Entries.get?_eq_none, Bool.not_eq_true', Entries.has,
      Option.isSome_eq_false_iff, Option.isNone_iff_eq_none]

theorem get?_of_mem_dropped (distinct : (Entries.keys table).Nodup)
    (mem : (name, i) ∈ dropped candidates table) : Entries.get? table name = some i := by
  rcases mem_dropped.1 mem with ⟨-, -, here, -⟩ | ⟨listed, -⟩
  · exact here
  · exact Entries.get?_of_mem distinct listed

theorem of_mem_drop (distinct : (Entries.keys candidates).Nodup)
    (counted : (Entries.keys table).Nodup) {rebuild : Bool} {design : String}
    (mem : design ∈ Migration.designs (of candidates (h.ownListing table) rebuild).drop) :
    ∃ name i, Entries.get? table name = some i ∧ design = h.indexDesign i.place := by
  rw [of_ownListing distinct] at mem
  obtain ⟨⟨name, i⟩, gone, rfl⟩ := Listing.mem_designs.1 mem
  refine ⟨name, i, ?_, rfl⟩
  cases rebuild with
  | true => exact Entries.get?_of_mem counted gone
  | false => exact get?_of_mem_dropped counted gone

theorem fits_of_not_mem_dropped (listed : Entries.get? table name = some i)
    (kept : (name, i) ∉ dropped candidates table) :
    ∃ c, (name, c) ∈ candidates ∧ sameFields c.fields i.fields = true := by
  rw [mem_dropped, not_or] at kept
  have wanted : name ∈ Entries.keys candidates :=
    Classical.byContradiction fun unwanted => kept.2 ⟨Entries.mem_of_get? listed, unwanted⟩
  obtain ⟨c, wanted⟩ := Entries.mem_keys.1 wanted
  exact ⟨c, wanted, Bool.of_not_eq_false fun misfits => kept.1 ⟨c, wanted, listed, misfits⟩⟩

theorem lacks_of_mem_dropped (distinct : (Entries.keys candidates).Nodup)
    (mem : (name, i) ∈ dropped candidates table) (wanted : (name, c) ∈ candidates) :
    lacks table (name, c) = true := by
  rcases mem_dropped.1 mem with ⟨c', wanted', here, misfits⟩ | ⟨-, unwanted⟩
  · have same : some c' = some c := by
      rw [← Entries.get?_of_mem distinct wanted', Entries.get?_of_mem distinct wanted]
    cases same
    simp [lacks, here, misfits]
  · exact absurd (Entries.mem_keys.2 ⟨c, wanted⟩) unwanted

end IndexPlan

end ModelStore
