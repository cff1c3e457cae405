import Mathlib.Logic.ExistsUnique
import ModelStore.Proofs.Index.Completion
import ModelStore.Proofs.Store.Shop

/-! Which indexes a migration leaves. A plan is made by name and dropping goes by design document.
So a wanted index that was to stay goes with its design document if another index in it is
dropped, and an index stays that is listed under the same name as another one. Where every
design document of the model holds one index, and no two hold indexes of one name, neither
happens, and what is left is exactly what is wanted. -/

namespace ModelStore

open Migration Stage
open Shop (customers)

/-- An index that has the fields of a wanted one, with their directions, in any order. -/
def Candidate.Has (c : Candidate) (raw : Value) : Prop :=
  ∃ fields, IndexField.Reads raw fields ∧ ∀ f, f ∈ fields ↔ f ∈ c.fields

/-- The design documents of a model hold the wanted indexes, each once, and no others. -/
structure Designs.Exact (s : Designs) (h : Handle) : Prop where
  wanted : ∀ place name raw, Entries.get? (s.indexes (h.indexDesign place)) name = some raw →
    ∃ c, (name, c) ∈ h.candidates ∧ c.Has raw
  whole : ∀ e ∈ h.candidates,
    ∃! place, ∃ raw, Entries.get? (s.indexes (h.indexDesign place)) e.1 = some raw

/-- Every design document of a model holds at most one index, and no two hold indexes of one
name. -/
structure Designs.Separate (s : Designs) (h : Handle) : Prop where
  alone : ∀ place name name' raw raw',
    Entries.get? (s.indexes (h.indexDesign place)) name = some raw →
    Entries.get? (s.indexes (h.indexDesign place)) name' = some raw' → name = name'
  apart : ∀ place place' name raw raw',
    Entries.get? (s.indexes (h.indexDesign place)) name = some raw →
    Entries.get? (s.indexes (h.indexDesign place')) name = some raw' → place = place'

namespace IndexPlan

variable {h : Handle} {s t : Designs} {p : IndexPlan} {place name : String} {raw : Value}

def Spares (p : IndexPlan) (h : Handle) (s : Designs) (place name : String) (raw : Value) :
    Prop :=
  Entries.get? (s.indexes (h.indexDesign place)) name = some raw ∧
    h.indexDesign place ∉ designs p.drop

/-- Of the indexes that are not dropped, those that are added again stand in their own places,
and the others are the wanted ones that are not added, each once. -/
structure Settles (p : IndexPlan) (h : Handle) (s : Designs) : Prop where
  wanted : ∀ place name raw, p.Spares h s place name raw →
    (name ∈ Entries.keys p.add ∧ place = name) ∨
      (name ∉ Entries.keys p.add ∧ ∃ c, (name, c) ∈ h.candidates ∧ c.Has raw)
  whole : ∀ e ∈ h.candidates, e.1 ∉ Entries.keys p.add →
    ∃! place, ∃ raw, p.Spares h s place e.1 raw

theorem get?_leaves : Entries.get? (p.leaves h s place) name = some raw ↔
    if name = place ∧ name ∈ Entries.keys p.add then
      ∃ c, Entries.get? p.add name = some c ∧ raw = .array (c.fields.map IndexField.toValue)
    else p.Spares h s place name raw := by
  have left : Entries.get? (if h.indexDesign place ∈ designs p.drop then []
      else s.indexes (h.indexDesign place)) name = some raw ↔ p.Spares h s place name raw := by
    unfold Spares
    split <;> simp [*]
  unfold leaves
  cases added : Entries.get? p.add place with
  | none =>
    have absent : ¬(name = place ∧ name ∈ Entries.keys p.add) := by
      intro both
      exact Entries.get?_eq_none.1 added (both.1 ▸ both.2)
    rw [if_neg absent]
    exact left
  | some c =>
    have present : place ∈ Entries.keys p.add :=
      Entries.mem_keys.2 ⟨c, Entries.mem_of_get? added⟩
    show Entries.get? (Entries.set _ place _) name = some raw ↔ _
    rw [Entries.get?_set]
    by_cases same : place = name
    · subst same
      simp [present, added, eq_comm]
    · have other : ¬(name = place ∧ name ∈ Entries.keys p.add) := fun both => same both.1.symm
      rw [if_neg same, if_neg other]
      exact left

theorem has_added (c : Candidate) : c.Has (.array (c.fields.map IndexField.toValue)) :=
  ⟨c.fields, ⟨_, rfl, IndexField.mapM_ofValue c.fields⟩, fun _ => .rfl⟩

/-- What is left is exact if and only if the plan settles what was there. -/
theorem exact_iff (adds : ∀ e ∈ p.add, e ∈ h.candidates)
    (left : ∀ place, t.indexes (h.indexDesign place) = p.leaves h s place) :
    t.Exact h ↔ p.Settles h s := by
  have other {place name raw} (free : ¬(name = place ∧ name ∈ Entries.keys p.add)) :
      Entries.get? (t.indexes (h.indexDesign place)) name = some raw ↔
        p.Spares h s place name raw := by
    rw [left, get?_leaves, if_neg free]
  have own {name} (again : name ∈ Entries.keys p.add) :
      ∃ c, (name, c) ∈ h.candidates ∧ ∀ raw,
        Entries.get? (t.indexes (h.indexDesign name)) name = some raw ↔
          raw = .array (c.fields.map IndexField.toValue) := by
    cases added : Entries.get? p.add name with
    | none => exact absurd again (Entries.get?_eq_none.1 added)
    | some c =>
      refine ⟨c, adds _ (Entries.mem_of_get? added), fun raw => ?_⟩
      rw [left, get?_leaves, if_pos ⟨rfl, again⟩, added]
      simp
  constructor
  · intro exact_
    refine ⟨fun place name raw spared => ?_, fun e mem free => ?_⟩
    · by_cases again : name ∈ Entries.keys p.add
      · refine .inl ⟨again, Classical.byContradiction fun away => ?_⟩
        obtain ⟨c, mem, here⟩ := own again
        have there := (other fun both => away both.1.symm).2 spared
        exact away ((exact_.whole _ mem).unique ⟨raw, there⟩ ⟨_, (here _).2 rfl⟩)
      · have here := (other fun both => again both.2).2 spared
        exact .inr ⟨again, exact_.wanted place name raw here⟩
    · have same : ∀ place raw, Entries.get? (t.indexes (h.indexDesign place)) e.1 = some raw ↔
          p.Spares h s place e.1 raw := fun place raw => other fun both => free both.2
      simpa only [same] using exact_.whole e mem
  · intro settles
    refine ⟨fun place name raw here => ?_, fun e mem => ?_⟩
    · by_cases both : name = place ∧ name ∈ Entries.keys p.add
      · obtain ⟨rfl, again⟩ := both
        obtain ⟨c, wanted, there⟩ := own again
        exact ⟨c, wanted, (there raw).1 here ▸ has_added c⟩
      · rcases settles.wanted place name raw ((other both).1 here) with ⟨again, same⟩ | ⟨-, kept⟩
        · exact absurd ⟨same.symm, again⟩ both
        · exact kept
    · by_cases again : e.1 ∈ Entries.keys p.add
      · obtain ⟨c, -, there⟩ := own again
        refine ⟨e.1, ⟨_, (there _).2 rfl⟩, fun place held => ?_⟩
        obtain ⟨raw, here⟩ := held
        refine Classical.byContradiction fun away => ?_
        have spared := (other fun both => away both.1.symm).1 here
        rcases settles.wanted place e.1 raw spared with ⟨-, same⟩ | ⟨free, -⟩
        · exact away same
        · exact free again
      · have same : ∀ place raw, Entries.get? (t.indexes (h.indexDesign place)) e.1 = some raw ↔
            p.Spares h s place e.1 raw := fun place raw => other fun both => again both.2
        simpa only [same] using settles.whole e mem again

/-- A rebuild settles what was there if every design document with an index has one that counts,
or has only the wanted index that it is named after. -/
theorem settles_rebuild_iff {table : Entries PlacedIndex} :
    (IndexPlan.of h.candidates (h.ownListing table) true).Settles h s ↔
      ∀ place name raw, Entries.get? (s.indexes (h.indexDesign place)) name = some raw →
        (∃ e ∈ table, e.2.place = place) ∨
          (place = name ∧ name ∈ Entries.keys h.candidates) := by
  have dropped (place : String) : h.indexDesign place ∈ designs (h.ownListing table) ↔
      ∃ e ∈ table, e.2.place = place := by
    simp only [Listing.mem_designs, Handle.indexDesign_inj, eq_comm]
  constructor
  · intro settles place name raw here
    by_cases counted : ∃ e ∈ table, e.2.place = place
    · exact .inl counted
    · rcases settles.wanted place name raw ⟨here, mt (dropped place).1 counted⟩ with
        ⟨again, own⟩ | ⟨free, c, wanted, -⟩
      · exact .inr ⟨own, again⟩
      · exact absurd (Entries.mem_keys.2 ⟨c, wanted⟩) free
  · intro each
    refine ⟨fun place name raw spared => .inl ?_, fun e mem free => ?_⟩
    · rcases each place name raw spared.1 with counted | ⟨own, again⟩
      · exact absurd ((dropped place).2 counted) spared.2
      · exact ⟨again, own⟩
    · exact absurd (Entries.mem_keys.2 ⟨e.2, mem⟩) free

end IndexPlan

namespace Designs

variable {h : Handle} {s t : Designs} {table : Entries PlacedIndex} {place name : String}
  {raw : Value}

theorem Tidy.separate (tidy : s.Tidy h) : s.Separate h where
  alone _ _ _ _ _ here there := (tidy.keeps here).1.trans (tidy.keeps there).1.symm
  apart _ _ _ _ _ here there := (tidy.keeps here).1.symm.trans (tidy.keeps there).1

theorem Separate.counted (separate : s.Separate h) (readable : s.Readable h)
    (counts : s.Counts h table)
    (here : Entries.get? (s.indexes (h.indexDesign place)) name = some raw) :
    ∃ fields, IndexField.Reads raw fields ∧ Entries.get? table name = some ⟨place, fields⟩ := by
  obtain ⟨fields, reads⟩ := readable place name raw here
  have holds : s.Holds h name ⟨place, fields⟩ := ⟨raw, here, reads⟩
  obtain ⟨⟨place', fields'⟩, listed⟩ := counts.whole name _ holds
  have holds' := counts.held name _ listed
  obtain ⟨raw', there, -⟩ := id holds'
  have same : place' = place := separate.apart place' place name raw' raw there here
  subst same
  exact ⟨fields, reads, holds.unique holds' ▸ listed⟩

theorem Separate.settles_rebuild (separate : s.Separate h) (readable : s.Readable h)
    (counts : s.Counts h table) :
    (IndexPlan.of h.candidates (h.ownListing table) true).Settles h s := by
  refine IndexPlan.settles_rebuild_iff.2 fun place name raw here => .inl ?_
  obtain ⟨fields, -, listed⟩ := separate.counted readable counts here
  exact ⟨_, Entries.mem_of_get? listed, rfl⟩

theorem Separate.undropped (separate : s.Separate h) (counts : s.Counts h table)
    {c : Candidate} (wanted : (name, c) ∈ h.candidates)
    (settled : IndexPlan.lacks table (name, c) = false)
    (here : Entries.get? (s.indexes (h.indexDesign place)) name = some raw) :
    h.indexDesign place ∉ designs (h.ownListing (IndexPlan.dropped h.candidates table)) := by
  intro gone
  obtain ⟨⟨other, i⟩, dropped, same⟩ := Listing.mem_designs.1 gone
  have listed := IndexPlan.get?_of_mem_dropped counts.distinct dropped
  obtain ⟨raw', there, -⟩ := counts.held other i listed
  rw [← same] at there
  have one : name = other := separate.alone place name other raw raw' here there
  subst one
  have lacking := IndexPlan.lacks_of_mem_dropped h.nodup_candidates dropped wanted
  rw [settled] at lacking
  cases lacking

theorem Separate.settles_update (separate : s.Separate h) (readable : s.Readable h)
    (counts : s.Counts h table) :
    (IndexPlan.of h.candidates (h.ownListing table) false).Settles h s := by
  rw [IndexPlan.of_ownListing h.nodup_candidates]
  have added {name : String} {c : Candidate} (wanted : (name, c) ∈ h.candidates) :=
    Entries.mem_keys_filter h.nodup_candidates wanted (IndexPlan.lacks table)
  refine ⟨fun place name raw spared => .inr ?_, fun e mem free => ?_⟩
  · obtain ⟨fields, reads, listed⟩ := separate.counted readable counts spared.1
    obtain ⟨c, wanted, fits⟩ := IndexPlan.fits_of_not_mem_dropped listed
      fun gone => spared.2 (Listing.mem_designs.2 ⟨_, gone, rfl⟩)
    have settled : IndexPlan.lacks table (name, c) = false :=
      IndexPlan.lacks_eq_false.2 ⟨_, listed, fits⟩
    refine ⟨fun again => ?_, c, wanted, fields, reads, fun f => ?_⟩
    · rw [(added wanted).1 again] at settled
      cases settled
    · exact (IndexPlan.sameFields_iff.1 fits f).symm
  · have settled : IndexPlan.lacks table e = false := Bool.of_not_eq_true (mt (added mem).2 free)
    obtain ⟨i, listed, -⟩ := IndexPlan.lacks_eq_false.1 settled
    obtain ⟨raw, here, -⟩ := counts.held e.1 i listed
    refine ⟨i.place, ⟨raw, here, separate.undropped counts mem settled here⟩, ?_⟩
    intro place spared
    obtain ⟨raw', there, -⟩ := spared
    exact separate.apart place i.place e.1 raw' raw there here

end Designs

namespace Migration

/-- A migration can run to its end as long as the store is reached. It leaves exactly the wanted
indexes if and only if the plan that it made settles what was there; where the indexes are
separate, it does. -/
theorem migrate_exact_iff {h : Handle} {s : Designs} (rebuild : Bool)
    (readable : s.Readable h) :
    (∀ site entries, s.Lists entries → s.Reached h site →
      ∃ t p, s.Runs site (migrate h rebuild) t (.ok p)) ∧
    ∀ site t p, s.Runs site (migrate h rebuild) t (.ok p) →
      ∃ entries listing, s.Lists entries ∧
        ListedIndex.listOwned Naming.default h.name entries = .ok listing ∧
        p = IndexPlan.of h.candidates listing rebuild ∧
        (t.Exact h ↔ p.Settles h s) ∧ (s.Separate h → t.Exact h) := by
  refine ⟨fun site entries lists reached => lists.exists_runs readable reached rebuild, ?_⟩
  intro site t p runs
  obtain ⟨entries, table, lists, counts, owned, plan, left⟩ := runs.of_migrate readable
  have adds : p.add.Sublist h.candidates :=
    plan ▸ IndexPlan.add_sublist h.nodup_candidates rebuild
  have exact_iff := IndexPlan.exact_iff (fun e mem => adds.subset mem) left
  refine ⟨entries, _, lists, owned, plan, exact_iff, fun separate => exact_iff.2 ?_⟩
  rw [plan]
  cases rebuild with
  | true => exact separate.settles_rebuild readable counts
  | false => exact separate.settles_update readable counts

def ascending (field : String) : Value := .array [.object [(field, .str "asc")]]

def shelved (place id : String) : Entries Value :=
  (if id = customers.indexDesign "kind_index" then [("kind_index", ascending "kind")] else []) ++
    if id = customers.indexDesign place then [("old", ascending "age")] else []

def shelf (place : String) : Designs := fun id =>
  if shelved place id = [] then none else some ⟨"1-a", shelved place id⟩

def shelfEntry (place name field : String) : Value :=
  .object [("ddoc", .str (customers.indexDesign place)), ("name", .str name),
    ("def", .object [("fields", ascending field)])]

def shelfEntries (place : String) : List Value :=
  [shelfEntry "kind_index" "kind_index" "kind", shelfEntry place "old" "age"]

theorem get?_shelf {place id name : String} {raw : Value} :
    Entries.get? ((shelf place).indexes id) name = some raw ↔
      (id = customers.indexDesign "kind_index" ∧ name = "kind_index" ∧ raw = ascending "kind") ∨
        (id = customers.indexDesign place ∧ name = "old" ∧ raw = ascending "age") := by
  have indexes : (shelf place).indexes id = shelved place id := by
    unfold Designs.indexes shelf
    split <;> simp [*]
  have each : ∀ (own other : Prop) [Decidable own] [Decidable other],
      Entries.get? ((if own then [("kind_index", ascending "kind")] else []) ++
          if other then [("old", ascending "age")] else []) name = some raw ↔
        (own ∧ name = "kind_index" ∧ raw = ascending "kind") ∨
          (other ∧ name = "old" ∧ raw = ascending "age") := by
    intro own other _ _
    by_cases first : name = "kind_index" <;> by_cases second : name = "old" <;>
      by_cases own <;> by_cases other <;> simp_all [Entries.get?_cons, eq_comm]
  rw [indexes, shelved]
  exact each _ _

theorem of_shelf {place id : String} {d : Design} (here : shelf place id = some d) :
    d.rev = "1-a" ∧
      (id = customers.indexDesign "kind_index" ∨ id = customers.indexDesign place) := by
  unfold shelf at here
  split at here
  · cases here
  · rename_i holds
    cases here
    refine ⟨rfl, Classical.byContradiction fun neither => holds ?_⟩
    rw [not_or] at neither
    rw [shelved, if_neg neither.1, if_neg neither.2]
    rfl

theorem shelf_readable (place : String) : (shelf place).Readable customers := by
  intro place' name raw here
  rcases get?_shelf.1 here with ⟨-, -, rfl⟩ | ⟨-, -, rfl⟩
  · exact ⟨_, _, rfl, rfl⟩
  · exact ⟨_, _, rfl, rfl⟩

theorem shelf_lists (place : String) : (shelf place).Lists (shelfEntries place) := by
  have tells (place name field : String) :
      Designs.Tells (shelfEntry place name field) (customers.indexDesign place) name
        (ascending field) := ⟨_, rfl, rfl, rfl, rfl⟩
  refine ⟨?_, ?_, fun id name raw here => ?_⟩
  · simp [shelfEntries, shelfEntry]
  · simp only [shelfEntries, List.forall_mem_cons]
    refine ⟨fun id named => ?_, fun id named => ?_, by simp⟩
    · cases named
      exact ⟨_, _, get?_shelf.2 (.inl ⟨rfl, rfl, rfl⟩), tells _ _ _⟩
    · cases named
      exact ⟨_, _, get?_shelf.2 (.inr ⟨rfl, rfl, rfl⟩), tells _ _ _⟩
  · rcases get?_shelf.1 here with ⟨rfl, rfl, rfl⟩ | ⟨rfl, rfl, rfl⟩
    · exact ⟨_, .head _, tells _ _ _⟩
    · exact ⟨_, .tail _ (.head _), tells _ _ _⟩

theorem shelf_reached {place : String} (known : place = "kind_index" ∨ place = "old") :
    (shelf place).Reached customers Shop.site := by
  have read (name : String) (known : name = "kind_index" ∨ name = "old") :
      Shop.site.Reaches (.get "shop" (customers.indexDesign name)) ∧
        Shop.site.Reaches (.delete "shop" (customers.indexDesign name) (.str "1-a")) := by
    rcases known with rfl | rfl
    · exact ⟨⟨_, rfl, rfl⟩, _, rfl, rfl⟩
    · exact ⟨⟨_, rfl, rfl⟩, _, rfl, rfl⟩
  have either {other : String} {d : Design}
      (here : shelf place (customers.indexDesign other) = some d) :
      other = "kind_index" ∨ other = "old" := by
    rcases (of_shelf here).2 with same | same
    · exact .inl (Handle.indexDesign_inj.1 same)
    · exact Handle.indexDesign_inj.1 same ▸ known
  refine ⟨⟨_, rfl, rfl⟩, fun other d here => (read other (either here)).1, ?_, ?_⟩
  · intro other d here
    rw [(of_shelf here).1]
    exact (read other (either here)).2
  · intro e mem
    cases List.mem_singleton.1 mem
    exact ⟨_, rfl, rfl⟩

/-- Two indexes in design documents of their own. The one that is wanted stays. -/
theorem migrate_exact_separate :
    ∃ t p, (shelf "old").Readable customers ∧ (shelf "old").Separate customers ∧
      (shelf "old").Runs Shop.site (migrate customers false) t (.ok p) ∧ t.Exact customers := by
  have readable := shelf_readable "old"
  have separate : (shelf "old").Separate customers := by
    constructor
    · intro place name name' raw raw' here there
      rcases get?_shelf.1 here with ⟨own, rfl, -⟩ | ⟨own, rfl, -⟩ <;>
        rcases get?_shelf.1 there with ⟨own', rfl, -⟩ | ⟨own', rfl, -⟩
      · rfl
      · exact absurd (Handle.indexDesign_inj.1 (own.symm.trans own')) (by decide)
      · exact absurd (Handle.indexDesign_inj.1 (own.symm.trans own')) (by decide)
      · rfl
    · intro place place' name raw raw' here there
      rcases get?_shelf.1 here with ⟨own, rfl, -⟩ | ⟨own, rfl, -⟩ <;>
        rcases get?_shelf.1 there with ⟨own', same, -⟩ | ⟨own', same, -⟩
      · exact Handle.indexDesign_inj.1 (own.trans own'.symm)
      · exact absurd same (by decide)
      · exact absurd same (by decide)
      · exact Handle.indexDesign_inj.1 (own.trans own'.symm)
  obtain ⟨completes, leaves⟩ := migrate_exact_iff false readable
  obtain ⟨t, p, runs⟩ := completes Shop.site _ (shelf_lists "old") (shelf_reached (.inr rfl))
  obtain ⟨-, -, -, -, -, -, exact_⟩ := leaves Shop.site t p runs
  exact ⟨t, p, readable, separate, runs, exact_ separate⟩

/-- The same two indexes in one design document. The one that is wanted goes with the other. -/
theorem migrate_loses_index :
    (shelf "kind_index").Readable customers ∧
      (shelf "kind_index").Lists (shelfEntries "kind_index") ∧
      "kind_index" ∈ Entries.keys customers.candidates ∧
      (∃ t p, (shelf "kind_index").Runs Shop.site (migrate customers false) t (.ok p)) ∧
      ∀ site t p, (shelf "kind_index").Runs site (migrate customers false) t (.ok p) →
        (∀ place raw,
          Entries.get? (t.indexes (customers.indexDesign place)) "kind_index" ≠ some raw) ∧
          ¬t.Exact customers := by
  have readable := shelf_readable "kind_index"
  have lists := shelf_lists "kind_index"
  have wanted : ("kind_index", ⟨"kind_index", [⟨"kind", .asc⟩],
      "LBModel__Customer__LBIndex__kind_index"⟩) ∈ customers.candidates := List.mem_singleton_self _
  have key : "kind_index" ∈ Entries.keys customers.candidates := Entries.mem_keys.2 ⟨_, wanted⟩
  refine ⟨readable, lists, key, lists.exists_runs readable (shelf_reached (.inl rfl)) false, ?_⟩
  intro site t p runs
  obtain ⟨entries, table, -, counts, -, plan, left⟩ := runs.of_migrate readable
  rw [IndexPlan.of_ownListing customers.nodup_candidates] at plan
  have dropped : customers.indexDesign "kind_index" ∈ designs p.drop := by
    obtain ⟨j, listed⟩ := counts.whole "old" ⟨"kind_index", [⟨"age", .asc⟩]⟩
      ⟨_, get?_shelf.2 (.inr ⟨rfl, rfl, rfl⟩), _, rfl, rfl⟩
    obtain ⟨raw, here, -⟩ := counts.held "old" j listed
    have unwanted : "old" ∉ Entries.keys customers.candidates := by decide
    have gone := IndexPlan.mem_dropped.2 (.inr ⟨Entries.mem_of_get? listed, unwanted⟩)
    rcases get?_shelf.1 here with ⟨-, other, -⟩ | ⟨place, -, -⟩
    · exact absurd other (by decide)
    · rw [plan, ← place]
      exact Listing.mem_designs.2 ⟨_, gone, rfl⟩
  have unadded : "kind_index" ∉ Entries.keys p.add := by
    obtain ⟨j, listed⟩ := counts.whole "kind_index" ⟨"kind_index", [⟨"kind", .asc⟩]⟩
      ⟨_, get?_shelf.2 (.inl ⟨rfl, rfl, rfl⟩), _, rfl, rfl⟩
    obtain ⟨raw, here, items, array, read⟩ := counts.held "kind_index" j listed
    have fields : j.fields = [⟨"kind", .asc⟩] := by
      rcases get?_shelf.1 here with ⟨-, -, rfl⟩ | ⟨-, other, -⟩
      · cases array
        exact (Except.ok.inj read).symm
      · exact absurd other (by decide)
    have settled : IndexPlan.lacks table ("kind_index", ⟨"kind_index", [⟨"kind", .asc⟩],
        "LBModel__Customer__LBIndex__kind_index"⟩) = false :=
      IndexPlan.lacks_eq_false.2 ⟨j, listed, by rw [fields]; rfl⟩
    rw [plan]
    intro again
    have lacking := (Entries.mem_keys_filter customers.nodup_candidates wanted _).1 again
    rw [settled] at lacking
    cases lacking
  have lost : ∀ place raw,
      Entries.get? (t.indexes (customers.indexDesign place)) "kind_index" ≠ some raw := by
    intro place raw here
    rw [left, IndexPlan.get?_leaves, if_neg fun both => unadded both.2] at here
    rcases get?_shelf.1 here.1 with ⟨own, -, -⟩ | ⟨own, -, -⟩
    · exact here.2 (own ▸ dropped)
    · exact here.2 (own ▸ dropped)
  refine ⟨lost, fun exact_ => ?_⟩
  obtain ⟨place, ⟨raw, here⟩, -⟩ := exact_.whole _ wanted
  exact lost place raw here

end Migration

end ModelStore
