import ModelStore.Proofs.Selector.Nesting
import ModelStore.Proofs.Text.Cut

/-! Resolving a path walks along it down the declared properties. The walk is told here without
the path that comes of it: which names are followed, and where they lead. An array has no names of
its own, and the mark of its elements, written right after it, is passed over once. Resolving
succeeds exactly where the walk does, and what comes of it is walked like the path itself. -/

namespace ModelStore

open Selector (elemMatch resolveBelow resolveNames resolvePath)

variable {p q r : Property} {name : String} {path keys names names' : List String}

namespace Property

/-- A name leads to one of the properties of an object, and from an array to where it leads from
the elements. -/
inductive Leads (name : String) : Property → Property → Prop where
  | field {p q : Property} (single : p.isArray = false)
      (has : Entries.get? p.properties name = some q) : Leads name p q
  | element {p q r : Property} (array : p.isArray = true) (items : p.items = some q)
      (below : Leads name q r) : Leads name p r

/-- A path leads by the names to a property. What follows a mark that is passed over is taken for
a name, whatever it is. -/
inductive Walks : Property → List String → List String → Property → Prop where
  | here (p : Property) : Walks p [] [] p
  | last {p : Property} (array : p.isArray = true) : Walks p [elemMatch] [] p
  | element {p q r : Property} {name : String} {path names : List String}
      (array : p.isArray = true) (leads : Leads name p q) (below : Walks q path names r) :
      Walks p (elemMatch :: name :: path) (name :: names) r
  | name {p q r : Property} {name : String} {path names : List String}
      (unmarked : p.isArray = true → name ≠ elemMatch) (leads : Leads name p q)
      (below : Walks q path names r) : Walks p (name :: path) (name :: names) r

theorem child?_eq_some_iff : p.child? name = some q ↔ Leads name p q := by
  constructor
  · intro child
    fun_induction child? p name with
    | case1 _ _ _ items name ih => exact .element rfl rfl (ih child)
    | case2 => cases child
    | case3 type _ _ properties items name inner outer =>
      refine .field ?_ child
      cases type with
      | array =>
        cases items with
        | some q => exact (inner q rfl rfl).elim
        | none => exact (outer rfl rfl).elim
      | _ => rfl
  · intro leads
    induction leads with
    | field single has => exact (child?_single single name).trans has
    | element array items _ ih => exact (child?_array array items name).trans ih

theorem Leads.unique (leads : Leads name p q) (leads' : Leads name p r) : q = r := by
  have child := child?_eq_some_iff.2 leads
  rw [child?_eq_some_iff.2 leads'] at child
  cases child
  rfl

theorem Walks.unique (walks : p.Walks path names q) (walks' : p.Walks path names' r) :
    names' = names ∧ r = q := by
  induction walks generalizing names' with
  | here p =>
    cases walks'
    exact ⟨rfl, rfl⟩
  | last array =>
    cases walks' with
    | last => exact ⟨rfl, rfl⟩
    | name unmarked => exact absurd rfl (unmarked array)
  | element array leads _ ih =>
    cases walks' with
    | element _ leads' below' =>
      cases leads.unique leads'
      obtain ⟨rfl, rfl⟩ := ih below'
      exact ⟨rfl, rfl⟩
    | name unmarked => exact absurd rfl (unmarked array)
  | name unmarked leads _ ih =>
    cases walks' with
    | last array => exact absurd rfl (unmarked array)
    | element array => exact absurd rfl (unmarked array)
    | name _ leads' below' =>
      cases leads.unique leads'
      obtain ⟨rfl, rfl⟩ := ih below'
      exact ⟨rfl, rfl⟩

end Property

/-- A dotted path leads from a document of the model by the names to a property. -/
def ModelDefinition.Walks (d : ModelDefinition) (dotted : String) (names : List String)
    (p : Property) : Prop :=
  d.document.Walks (Text.cut '.' dotted) names p

namespace Selector

theorem resolveBelow_mark (array : p.isArray = true) :
    resolveBelow p [elemMatch] = some [elemMatch] := by
  unfold resolveBelow
  simp only [array, if_true]

theorem resolveBelow_element (array : p.isArray = true) (child : p.child? name = some q)
    (resolved : resolveBelow q path = some keys) :
    resolveBelow p (elemMatch :: name :: path) = some (elemMatch :: name :: keys) := by
  unfold resolveBelow
  simp only [array, if_true, child, resolved, Option.map_some]

/-- Where a walk succeeds the path is resolved. What comes of it has the keys of the path and
marks, is resolved to itself, and leads by the same names to the same property. -/
theorem exists_resolveBelow (walks : p.Walks path names q) :
    ∃ keys, resolveBelow p path = some keys ∧ resolveBelow p keys = some keys ∧
      p.Walks keys names q ∧ ∀ key ∈ keys, key = elemMatch ∨ key ∈ path := by
  induction walks with
  | here p =>
    have none_ : resolveBelow p [] = some [] := by rw [resolveBelow]
    exact ⟨[], none_, none_, .here p, by simp⟩
  | last array =>
    have mark := resolveBelow_mark array
    exact ⟨[elemMatch], mark, mark, .last array, by simp⟩
  | @element p q r name path names array leads _ ih =>
    obtain ⟨keys, resolved, again, walks, from_⟩ := ih
    have child := Property.child?_eq_some_iff.2 leads
    refine ⟨elemMatch :: name :: keys, resolveBelow_element array child resolved,
      resolveBelow_element array child again, .element array leads walks, ?_⟩
    grind
  | @name p q r name path names unmarked leads _ ih =>
    obtain ⟨keys, resolved, again, walks, from_⟩ := ih
    have child := Property.child?_eq_some_iff.2 leads
    -- an array without a mark gets one, and is then walked through it
    cases array : p.isArray with
    | false =>
      refine ⟨name :: keys, resolveBelow_single array child resolved,
        resolveBelow_single array child again, .name unmarked leads walks, ?_⟩
      grind
    | true =>
      refine ⟨elemMatch :: name :: keys, resolveBelow_array array (unmarked array) child resolved,
        resolveBelow_element array child again, .element array leads walks, ?_⟩
      grind

theorem exists_walks (resolved : resolveBelow p path = some keys) :
    ∃ names q, p.Walks path names q := by
  fun_induction resolveBelow p path generalizing keys with
  | case1 p => exact ⟨[], p, .here p⟩
  | case2 p array => exact ⟨[], p, .last array⟩
  | case3 p array name path q child ih =>
    obtain ⟨keys, below, -⟩ := Option.map_eq_some_iff.1 resolved
    obtain ⟨names, r, walks⟩ := ih below
    exact ⟨name :: names, r, .element array (Property.child?_eq_some_iff.1 child) walks⟩
  | case5 p name path array other q child ih =>
    obtain ⟨keys, below, -⟩ := Option.map_eq_some_iff.1 resolved
    obtain ⟨names, r, walks⟩ := ih below
    exact ⟨name :: names, r, .name (fun _ => other) (Property.child?_eq_some_iff.1 child) walks⟩
  | case7 p name path single q child ih =>
    obtain ⟨keys, below, -⟩ := Option.map_eq_some_iff.1 resolved
    obtain ⟨names, r, walks⟩ := ih below
    exact ⟨name :: names, r,
      .name (fun array => absurd array single) (Property.child?_eq_some_iff.1 child) walks⟩
  | _ => cases resolved

/-- A dotted path is resolved exactly if a walk along it succeeds. What comes of it is resolved to
itself, and leads by the same names as the path, and by no others, to the same property. -/
theorem resolvePath_walks (d : ModelDefinition) (dotted : String) :
    ((resolvePath d dotted).isSome = true ↔ ∃ names p, d.Walks dotted names p) ∧
    ∀ resolved, resolvePath d dotted = some resolved →
      resolvePath d resolved = some resolved ∧
      ∃ names p, ∀ names' q,
        (d.Walks dotted names' q ↔ names' = names ∧ q = p) ∧
        (d.Walks resolved names' q ↔ names' = names ∧ q = p) := by
  have below (s : String) := resolveNames_eq (d := d) (Text.cut_ne_nil '.' s)
  constructor
  · rw [resolvePath, Option.isSome_map, below, Option.isSome_iff_exists]
    constructor
    · rintro ⟨keys, found⟩
      exact exists_walks found
    · rintro ⟨names, p, walks⟩
      obtain ⟨keys, found, -⟩ := exists_resolveBelow walks
      exact ⟨keys, found⟩
  · intro resolved given
    obtain ⟨keys, found, rfl⟩ := Option.map_eq_some_iff.1 given
    have some_ : keys ≠ [] := resolveNames_ne_nil found
    rw [below] at found
    obtain ⟨names, p, walks⟩ := exists_walks found
    obtain ⟨_, found', again, walks', from_⟩ := exists_resolveBelow walks
    cases found.symm.trans found'
    have undotted : ∀ key ∈ keys, '.' ∉ key.toList := by
      intro key mem
      rcases from_ key mem with rfl | mem
      · decide
      · exact Text.not_mem_of_mem_cut mem
    have pieces : Text.cut '.' (Text.join '.' keys) = keys := Text.cut_join some_ undotted
    refine ⟨by rw [resolvePath, below, pieces, again, Option.map_some], names, p, ?_⟩
    intro names' q
    rw [ModelDefinition.Walks, ModelDefinition.Walks, pieces]
    constructor
    · exact ⟨walks.unique, fun same => by rw [same.1, same.2]; exact walks⟩
    · exact ⟨walks'.unique, fun same => by rw [same.1, same.2]; exact walks'⟩

/-- The lines of a customer's orders, with only the first of the two arrays marked. -/
theorem resolvePath_walks_orders :
    let line : Property := .record [("sku", .bare .string)]
    let order : Property := .record [("lines", .list line)]
    let d : ModelDefinition := ⟨"Customer", [("orders", .list order)], [], .default⟩
    let dotted := "orders.$elemMatch.lines.sku"
    let resolved := "orders.$elemMatch.lines.$elemMatch.sku"
    resolvePath d dotted = some resolved ∧ resolvePath d resolved = some resolved ∧
      d.Walks resolved ["orders", "lines", "sku"] (.bare .string) := by
  intro line order d dotted resolved
  have given : resolvePath d dotted = some resolved := by decide +kernel
  have pieces : Text.cut '.' dotted = ["orders", elemMatch, "lines", "sku"] := by decide +kernel
  have walks : d.Walks dotted ["orders", "lines", "sku"] (.bare .string) := by
    rw [ModelDefinition.Walks, pieces]
    refine .name nofun (.field rfl rfl) ?_
    refine .element rfl (.element rfl rfl (.field rfl rfl)) ?_
    exact .name (fun _ => by decide) (.element rfl rfl (.field rfl rfl)) (.here _)
  obtain ⟨again, names, p, leads⟩ := (resolvePath_walks d _).2 resolved given
  obtain ⟨rfl, rfl⟩ := (leads _ _).1.1 walks
  exact ⟨given, again, (leads _ _).2.2 ⟨rfl, rfl⟩⟩

end Selector

end ModelStore
