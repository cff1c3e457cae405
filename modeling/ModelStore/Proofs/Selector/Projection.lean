import ModelStore.Proofs.Entries
import ModelStore.Selector.Path
import ModelStore.Selector.Projection

/-! What a projection of undotted names leaves of an instance, and the way it takes: the store is
asked for the fields that are named, or for whole documents of which named fields are dropped
afterwards, or for whole documents that stay as they are. -/

namespace ModelStore

/-- Entries of which those under some keys are left, told by what is found under each key. -/
def Entries.Restricts {α : Type u} (keep : String → Prop) (whole part : Entries α) : Prop :=
  ∀ key, (keep key → get? part key = get? whole key) ∧ (¬keep key → get? part key = none)

namespace Entries.Restricts

variable {α : Type u} {keep : String → Prop} {whole part : Entries α}

theorem refl (whole : Entries α) : Restricts (fun _ => True) whole whole :=
  fun _ => ⟨fun _ => rfl, fun never => absurd trivial never⟩

theorem congr {keep' : String → Prop} (restricts : Restricts keep whole part)
    (same : ∀ key, keep key ↔ keep' key) : Restricts keep' whole part :=
  fun key => ⟨fun kept => (restricts key).1 ((same key).2 kept),
    fun left => (restricts key).2 fun kept => left ((same key).1 kept)⟩

theorem erase (restricts : Restricts keep whole part) (name : String) :
    Restricts keep (Entries.erase whole name) (Entries.erase part name) := by
  intro key
  by_cases same : name = key
  · subst same
    rw [get?_erase_self, get?_erase_self]
    exact ⟨fun _ => rfl, fun _ => rfl⟩
  · rw [get?_erase_ne _ same, get?_erase_ne _ same]
    exact restricts key

theorem set (restricts : Restricts keep whole part) {name : String} (kept : keep name) (v : α) :
    Restricts keep (Entries.set whole name v) (Entries.set part name v) := by
  intro key
  by_cases same : name = key
  · subst same
    rw [get?_set_self, get?_set_self]
    exact ⟨fun _ => rfl, fun left => absurd kept left⟩
  · rw [get?_set_ne _ _ same, get?_set_ne _ _ same]
    exact restricts key

theorem set_whole (restricts : Restricts keep whole part) {name : String} (left : ¬keep name)
    (v : α) : Restricts keep (Entries.set whole name v) part := by
  intro key
  refine ⟨fun kept => ?_, (restricts key).2⟩
  have other : name ≠ key := fun same => left (same ▸ kept)
  rw [get?_set_ne _ _ other]
  exact (restricts key).1 kept

theorem filter (keep : String → Bool) (entries : Entries α) :
    Restricts (keep · = true) entries (entries.filter fun e => keep e.1) := by
  intro key
  induction entries with
  | nil => exact ⟨fun _ => rfl, fun _ => rfl⟩
  | cons e rest ih =>
    obtain ⟨name, v⟩ := e
    by_cases kept : keep name = true
    · rw [List.filter_cons, if_pos kept, get?_cons, get?_cons]
      by_cases same : name = key
      · rw [if_pos same, if_pos same]
        exact ⟨fun _ => rfl, fun left => absurd (same ▸ kept) left⟩
      · rw [if_neg same, if_neg same]
        exact ih
    · rw [List.filter_cons, if_neg kept, get?_cons]
      refine ⟨fun kept' => ?_, ih.2⟩
      have other : name ≠ key := fun same => kept (same ▸ kept')
      rw [if_neg other]
      exact ih.1 kept'

end Entries.Restricts

namespace Projection

theorem restricts_without (dropped : List String) (fields : Fields) :
    Entries.Restricts (· ∉ dropped) fields (without dropped fields) :=
  (Entries.Restricts.filter (fun key => !dropped.contains key) fields).congr fun key => by simp

/-- A projection by a list of names, or by marks on names. -/
inductive Choice where
  | listed (names : List String)
  | marked (marks : List (String × Bool))

namespace Choice

def value : Choice → Value
  | listed names => .array (names.map .str)
  | marked marks => .object (marks.map fun m => (m.1, .bool m.2))

def Undotted : Choice → Prop
  | listed names => ∀ name ∈ names, Selector.isDotted name = false
  | marked marks => ∀ m ∈ marks, Selector.isDotted m.1 = false

/-- The fields that a projection leaves: those listed, those marked true, or all but those marked
false if none is marked true. An empty projection leaves all. -/
def Keeps : Choice → String → Prop
  | listed names, key => names = [] ∨ key ∈ names
  | marked marks, key =>
    (∃ m ∈ marks, m.2 = true) ∧ (key, true) ∈ marks ∨
      (∀ m ∈ marks, m.2 = false) ∧ (key, false) ∉ marks

end Choice

/-- The way that a projection takes, with the fields that it is to leave. -/
inductive Route (h : Handle) (fields : Value) : (String → Prop) → Prop where
  | whole (all : build h fields = .ok none) (unexcluded : excluded fields = [])
      (unlisted : listed fields = .ok none) : Route h fields fun _ => True
  | names (names : List String) (undotted : ∀ name ∈ names, Selector.isDotted name = false)
      (asked : build h fields = .ok (some (project h.idName (names.map .str))))
      (unexcluded : excluded fields = []) (listed : listed fields = .ok (some (names.map .str))) :
      Route h fields (· ∈ names)
  | dropped {name : String} {names : List String} (all : build h fields = .ok none)
      (excluded : excluded fields = name :: names) : Route h fields (· ∉ name :: names)

theorem any_marks (marks : List (String × Bool)) :
    (marks.map fun m => (m.1, Value.bool m.2)).any (fun e => e.2.truthy) = marks.any Prod.snd := by
  rw [List.any_map]
  rfl

theorem Choice.exists_route_kept (h : Handle) {marks : List (String × Bool)}
    (undotted : (marked marks).Undotted) {m : String × Bool} (mem : m ∈ marks) (yes : m.2 = true) :
    ∃ keep, Route h (marked marks).value keep ∧ ∀ key, keep key ↔ (marked marks).Keeps key := by
  have truthy : (marked marks).value.truthy = true := by
    cases marks with
    | nil => cases mem
    | cons _ _ => rfl
  have marked_ : marks.any Prod.snd = true := List.any_eq_true.2 ⟨m, mem, yes⟩
  have unexcluded : excluded (marked marks).value = [] := by
    simp only [value, excluded, any_marks, marked_, if_true]
  have kept_ : names (marked marks).value =
      .ok (((marks.filter Prod.snd).map Prod.fst).map .str) := by
    simp only [value, names, kept, List.filter_map, List.map_map]
    rfl
  have here : m.1 ∈ (marks.filter Prod.snd).map Prod.fst :=
    List.mem_map.2 ⟨m, List.mem_filter.2 ⟨mem, yes⟩, rfl⟩
  refine ⟨_, .names ((marks.filter Prod.snd).map Prod.fst) ?_ ?_ unexcluded ?_, ?_⟩
  · intro name mem'
    obtain ⟨m', member, rfl⟩ := List.mem_map.1 mem'
    exact undotted m' (List.mem_filter.1 member).1
  · simp only [build, truthy, unexcluded, kept_]
    rfl
  · have some_ : (((marks.filter Prod.snd).map Prod.fst).map Value.str).isEmpty = false := by
      rw [List.isEmpty_map, List.isEmpty_eq_false_iff]
      exact List.ne_nil_of_mem here
    simp only [Projection.listed, truthy, kept_, Except.map, some_]
    rfl
  · intro key
    have listed_ : key ∈ (marks.filter Prod.snd).map Prod.fst ↔ (key, true) ∈ marks := by
      simp
    rw [listed_]
    refine ⟨fun mem' => .inl ⟨⟨m, mem, yes⟩, mem'⟩, ?_⟩
    rintro (⟨-, mem'⟩ | ⟨none_, -⟩)
    · exact mem'
    · rw [none_ m mem] at yes
      cases yes

theorem Choice.exists_route_dropped (h : Handle) {marks : List (String × Bool)}
    (false_ : ∀ m ∈ marks, m.2 = false) :
    ∃ keep, Route h (marked marks).value keep ∧ ∀ key, keep key ↔ (marked marks).Keeps key := by
  have unmarked : marks.any Prod.snd = false := List.any_eq_false.2 fun m mem => by
    rw [false_ m mem]
    exact Bool.false_ne_true
  have excluded_ : excluded (marked marks).value = marks.map Prod.fst := by
    simp only [value, excluded, any_marks, unmarked]
    rw [if_neg Bool.false_ne_true, Entries.keys, List.map_map]
    rfl
  have keeps : ∀ key, key ∉ marks.map Prod.fst ↔ (marked marks).Keeps key := by
    intro key
    have named : key ∈ marks.map Prod.fst ↔ (key, false) ∈ marks := by
      constructor
      · intro mem
        obtain ⟨m, member, rfl⟩ := List.mem_map.1 mem
        rw [← false_ m member]
        exact member
      · exact fun mem => List.mem_map.2 ⟨_, mem, rfl⟩
    rw [named]
    refine ⟨fun left => .inr ⟨false_, left⟩, ?_⟩
    rintro (⟨⟨m, mem, yes⟩, -⟩ | ⟨-, left⟩)
    · rw [false_ m mem] at yes
      cases yes
    · exact left
  cases marks with
  | nil => exact ⟨_, .whole rfl rfl rfl, fun key => by simp [Keeps]⟩
  | cons m rest =>
    refine ⟨_, .dropped ?_ excluded_, keeps⟩
    simp only [build, excluded_]
    rfl

/-- Every choice takes one of the ways, and is left the fields that it keeps. -/
theorem Choice.exists_route (h : Handle) {choice : Choice} (undotted : choice.Undotted) :
    ∃ keep, Route h choice.value keep ∧ ∀ key, keep key ↔ choice.Keeps key := by
  cases choice with
  | listed names =>
    cases names with
    | nil => exact ⟨_, .whole rfl rfl rfl, fun key => by simp [Keeps]⟩
    | cons name rest =>
      exact ⟨_, .names (name :: rest) undotted rfl rfl rfl, fun key => by simp [Keeps]⟩
  | marked marks =>
    by_cases some_ : ∃ m ∈ marks, m.2 = true
    · obtain ⟨m, mem, yes⟩ := some_
      exact exists_route_kept h undotted mem yes
    · refine exists_route_dropped h fun m mem => ?_
      cases mark : m.2 with
      | false => rfl
      | true => exact absurd ⟨m, mem, mark⟩ some_

theorem project_eq (idName : String) (names : List String) :
    ∃ asked : List String, project idName (names.map .str) = asked.map .str ∧
      ∀ key, key ∈ asked ↔ key = "_id" ∨ ∃ name ∈ names, key = storedName idName name := by
  have stored_ : ∀ name, stored idName (.str name) = .str (storedName idName name) := by
    intro name
    by_cases same : name = idName
    · simp [stored, storedName, same]
    · simp [stored, storedName, same]
  have elem_ : ∀ (name : String) (asked : List String),
      (Value.str name).elem (asked.map .str) = decide (name ∈ asked) := by
    intro name asked
    rw [Value.elem, List.any_map, Bool.eq_iff_iff, List.any_eq_true, decide_eq_true_iff]
    simp
  have folded : ∀ (names before : List String), ∃ asked : List String,
      (names.map Value.str).foldl (fun projected name => addNew projected (stored idName name))
        (before.map .str) = asked.map .str ∧
      ∀ key, key ∈ asked ↔ key ∈ before ∨ ∃ name ∈ names, key = storedName idName name := by
    intro names
    induction names with
    | nil => exact fun before => ⟨before, rfl, fun key => by simp⟩
    | cons name rest ih =>
      intro before
      rw [List.map_cons, List.foldl_cons, stored_, addNew, elem_]
      by_cases mem : storedName idName name ∈ before
      · obtain ⟨asked, same, members⟩ := ih before
        simp only [mem, decide_true, if_true]
        refine ⟨asked, same, fun key => ?_⟩
        simp only [members, List.mem_cons, exists_eq_or_imp]
        constructor
        · rintro (here | there)
          · exact .inl here
          · exact .inr (.inr there)
        · rintro (here | rfl | there)
          · exact .inl here
          · exact .inl mem
          · exact .inr there
      · obtain ⟨asked, same, members⟩ := ih (before ++ [storedName idName name])
        simp only [mem, decide_false, Bool.false_eq_true, if_false]
        rw [List.map_append] at same
        refine ⟨asked, same, fun key => ?_⟩
        simp only [members, List.mem_append, List.mem_cons, List.not_mem_nil, or_false,
          exists_eq_or_imp, or_assoc]
  obtain ⟨asked, same, members⟩ := folded (names ++ ["_id"]) []
  refine ⟨asked, ?_, fun key => ?_⟩
  · rw [project, ← same, List.map_append]
    rfl
  · rw [members]
    have own : storedName idName "_id" = "_id" := by simp [storedName]
    simp only [List.not_mem_nil, false_or, List.mem_append, List.mem_singleton]
    constructor
    · rintro ⟨name, mem | rfl, rfl⟩
      · exact .inr ⟨name, mem, rfl⟩
      · exact .inl own
    · rintro (rfl | ⟨name, mem, rfl⟩)
      · exact ⟨"_id", .inr rfl, own.symm⟩
      · exact ⟨name, .inl mem, rfl⟩

end Projection

end ModelStore
