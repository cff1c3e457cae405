import ModelStore.Proofs.Selector.Retrieval

/-! Paths that go down through arrays. A value is found at a path if it stands there in one element
of every array on the way, level by level. A selector enters an array only once before the next
name, so it finds these values wherever no array has arrays for its elements, and none below such
an array. -/

namespace ModelStore

/-- Something with a property is found at a path. A name leads to a field of an object; in an
array that is followed by a name some element is chosen. -/
inductive Reaches (P : Value → Prop) : List String → Value → Prop where
  | here {v : Value} (found : P v) : Reaches P [] v
  | field {name : String} {rest : List String} {fields : Fields} {v : Value}
      (has : Entries.get? fields name = some v) (below : Reaches P rest v) :
      Reaches P (name :: rest) (.object fields)
  | element {name : String} {rest : List String} {items : List Value} {v : Value}
      (mem : v ∈ items) (below : Reaches P (name :: rest) v) :
      Reaches P (name :: rest) (.array items)

namespace Property

def bare (type : PropertyType) : Property := ⟨type, false, false, [], none⟩

def record (properties : Entries Property) : Property :=
  ⟨.object, false, false, properties, none⟩

def list (items : Property) : Property := ⟨.array, false, false, [], some items⟩

end Property

def ModelDefinition.document (d : ModelDefinition) : Property := .record d.properties

namespace Property

/-- The names lead down the declared properties. -/
inductive Declares : Property → List String → Prop where
  | here (p : Property) : Declares p []
  | field {p q : Property} {name : String} {rest : List String} (single : p.isArray = false)
      (has : Entries.get? p.properties name = some q) (below : Declares q rest) :
      Declares p (name :: rest)
  | element {p q : Property} {name : String} {rest : List String} (array : p.isArray = true)
      (items : p.items = some q) (below : Declares q (name :: rest)) : Declares p (name :: rest)

/-- The value has the declared shapes along the names: no object stands for an array and no array
for anything else that is followed by a name. Fields may be missing, and scalars be anywhere. -/
inductive Shapes : Property → List String → Value → Prop where
  | here (p : Property) (v : Value) : Shapes p [] v
  | scalar (p : Property) (name : String) (rest : List String) (s : Scalar) :
      Shapes p (name :: rest) (.scalar s)
  | field {p : Property} {name : String} {rest : List String} {fields : Fields}
      (single : p.isArray = false) (each : ∀ q v, Entries.get? p.properties name = some q →
        Entries.get? fields name = some v → Shapes q rest v) :
      Shapes p (name :: rest) (.object fields)
  | element {p : Property} {name : String} {rest : List String} {items : List Value}
      (array : p.isArray = true)
      (each : ∀ q v, p.items = some q → v ∈ items → Shapes q (name :: rest) v) :
      Shapes p (name :: rest) (.array items)

/-- Some array along the names has arrays for its elements and is followed by a name. -/
inductive Stacks : Property → List String → Prop where
  | here {p q : Property} {name : String} {rest : List String} (outer : p.isArray = true)
      (items : p.items = some q) (inner : q.isArray = true) : Stacks p (name :: rest)
  | field {p q : Property} {name : String} {rest : List String} (single : p.isArray = false)
      (has : Entries.get? p.properties name = some q) (below : Stacks q rest) :
      Stacks p (name :: rest)
  | element {p q : Property} {name : String} {rest : List String} (array : p.isArray = true)
      (items : p.items = some q) (below : Stacks q (name :: rest)) : Stacks p (name :: rest)

variable {p q : Property} {name : String} {rest : List String}

theorem child?_single (single : p.isArray = false) (name : String) :
    p.child? name = Entries.get? p.properties name := by
  obtain ⟨type, index, id, properties, items⟩ := p
  cases type with
  | array => cases single
  | _ => rfl

theorem child?_array (array : p.isArray = true) (items : p.items = some q) (name : String) :
    p.child? name = q.child? name := by
  obtain ⟨type, index, id, properties, _⟩ := p
  cases of_decide_eq_true array
  cases items
  rfl

theorem exists_child (declared : Declares p (name :: rest)) :
    ∃ q, p.child? name = some q ∧ Declares q rest := by
  generalize same : name :: rest = names at declared
  induction declared with
  | here => cases same
  | field single has below =>
    cases same
    exact ⟨_, (child?_single single name).trans has, below⟩
  | element array items _ ih =>
    cases same
    rw [child?_array array items]
    exact ih rfl

theorem stacks_single_iff (single : p.isArray = false)
    (has : Entries.get? p.properties name = some q) :
    Stacks p (name :: rest) ↔ Stacks q rest := by
  constructor
  · intro piled
    cases piled with
    | here outer => cases single.symm.trans outer
    | field _ has' below =>
      cases has.symm.trans has'
      exact below
    | element array => cases single.symm.trans array
  · exact Stacks.field single has

theorem stacks_array_iff (array : p.isArray = true) (items : p.items = some q) :
    Stacks p (name :: rest) ↔ q.isArray = true ∨ Stacks q (name :: rest) := by
  constructor
  · intro piled
    cases piled with
    | here _ items' inner =>
      cases items.symm.trans items'
      exact .inl inner
    | field single => cases single.symm.trans array
    | element _ items' below =>
      cases items.symm.trans items'
      exact .inr below
  · rintro (inner | below)
    · exact .here array items inner
    · exact .element array items below

end Property

section Reaches

variable {P : Value → Prop} {name : String} {rest : List String} {v : Value}

theorem reaches_nil_iff : Reaches P [] v ↔ P v := by
  constructor
  · rintro ⟨found⟩
    exact found
  · exact .here

theorem reaches_object_iff {fields : Fields} : Reaches P (name :: rest) (.object fields) ↔
    ∃ w, Entries.get? fields name = some w ∧ Reaches P rest w := by
  constructor
  · intro reaches
    cases reaches with
    | field has below => exact ⟨_, has, below⟩
  · rintro ⟨w, has, below⟩
    exact .field has below

theorem reaches_array_iff {items : List Value} : Reaches P (name :: rest) (.array items) ↔
    ∃ w ∈ items, Reaches P (name :: rest) w := by
  constructor
  · intro reaches
    cases reaches with
    | element mem below => exact ⟨_, mem, below⟩
  · rintro ⟨w, mem, below⟩
    exact .element mem below

theorem not_reaches_scalar (s : Scalar) : ¬Reaches P (name :: rest) (.scalar s) := nofun

end Reaches

namespace Selector

/-- Keys to nest a condition below: names of fields, and the key for elements ahead of others. -/
inductive Nestable : List String → Prop where
  | nil : Nestable []
  | name {name : String} {rest : List String} (plain : isOperator name = false)
      (undotted : '.' ∉ name.toList) (below : Nestable rest) : Nestable (name :: rest)
  | element {key : String} {rest : List String} (below : Nestable (key :: rest)) :
      Nestable (elemMatch :: key :: rest)

def fits (search : Search) (operand : Value) : List String → Value → Bool
  | [], v => v.same operand
  | key :: rest, v => holds search true key (nest rest operand) (some v)

variable {search : Search} {joins : Bool} {operand v : Value} {name key : String}
  {rest : List String}

theorem holds_elements (v : Option Value) :
    holds search joins elemMatch (nest (key :: rest) operand) v =
      v.any fun w => (elements w).any (fits search operand (key :: rest)) := by
  have single : ∀ w, holdsAll search true [(key, nest rest operand)] (some w) =
      fits search operand (key :: rest) w := by
    intro w
    rw [holdsAll, holdsAll, Bool.and_true, fits]
  show holds search joins elemKey (.object [(key, nest rest operand)]) v = _
  rw [holds_elemMatch]
  simp only [single]
  cases v <;> rfl

theorem holds_name (leaf : isObject operand = false) (nestable : Nestable rest)
    (plain : isOperator name = false) (undotted : '.' ∉ name.toList) (v : Value) :
    holds search joins name (nest rest operand) (some v) =
      (v.get? name).any (fits search operand rest) := by
  induction nestable generalizing joins name v with
  | nil =>
    show holds search joins name operand (some v) = _
    rw [holds_literal plain leaf, Option.bind_some, fieldAt_eq_get? undotted]
    rfl
  | @name key rest plain' undotted' below ih =>
    show holds search joins name (.object [(key, nest rest operand)]) (some v) = _
    have selector : ([(key, nest rest operand)].all fun e => isOperator e.1) = false := by
      simp [plain']
    rw [holds_field plain rfl, selector, if_neg Bool.false_ne_true, Option.bind_some,
      fieldAt_eq_get? undotted]
    cases v.get? name with
    | none => rfl
    | some w =>
      -- A value that is no object has no field of the next name, so it is not met anyway.
      simp only [Option.any_some, holdsAll, Bool.and_true, fits, ih plain' undotted']
      cases w <;> rfl
  | @element key rest _ _ =>
    show holds search joins name (.object [(elemMatch, nest (key :: rest) operand)]) (some v) = _
    have operators : ([(elemMatch, nest (key :: rest) operand)].all fun e => isOperator e.1) =
        true := by
      simp only [List.all_cons, List.all_nil, Bool.and_true]
      decide
    rw [holds_field plain rfl, operators, if_pos rfl, Option.bind_some, fieldAt_eq_get? undotted,
      holdsAll, holdsAll, Bool.and_true, holds_elements]
    refine congrArg (Option.any · _) (funext fun w => ?_)
    rw [fits, holds_elements, Option.any_some]

variable {p q r : Property} {path : List String}

/-- That a value equal to the operand is found at the names and no arrays stand within arrays. -/
def Finds (operand : Value) (p : Property) (names : List String) (v : Value) : Prop :=
  Reaches (fun w => w.same operand = true) names v ∧ ¬p.Stacks names

theorem fits_name_iff (leaf : isObject operand = false) (nestable : Nestable path)
    (plain : isOperator name = false) (undotted : '.' ∉ name.toList) (single : p.isArray = false)
    (has : Entries.get? p.properties name = some q)
    (means : ∀ v, q.Shapes rest v → (fits search operand path v = true ↔ Finds operand q rest v))
    (shapes : p.Shapes (name :: rest) v) :
    fits search operand (name :: path) v = true ↔ Finds operand p (name :: rest) v := by
  rw [fits, holds_name leaf nestable plain undotted, Finds, Property.stacks_single_iff single has]
  cases shapes with
  | scalar =>
    constructor
    · rintro ⟨⟩
    · exact fun finds => absurd finds.1 (not_reaches_scalar _)
  | @field _ _ _ fields _ each =>
    rw [reaches_object_iff, Option.any_eq_true]
    constructor
    · rintro ⟨w, there, met⟩
      obtain ⟨reaches, flat⟩ := (means w (each q w has there)).1 met
      exact ⟨⟨w, there, reaches⟩, flat⟩
    · rintro ⟨⟨w, there, reaches⟩, flat⟩
      exact ⟨w, there, (means w (each q w has there)).2 ⟨reaches, flat⟩⟩
  | element array => cases single.symm.trans array

/-- Of an array whose elements are arrays nothing is met, since these have no fields. -/
theorem not_fits_stacked (leaf : isObject operand = false) (nestable : Nestable path)
    (plain : isOperator name = false) (undotted : '.' ∉ name.toList) (inner : q.isArray = true)
    (shapes : q.Shapes (name :: rest) v) : fits search operand (name :: path) v = false := by
  rw [fits, holds_name leaf nestable plain undotted]
  cases shapes with
  | scalar => rfl
  | field single => cases single.symm.trans inner
  | element => rfl

theorem fits_element_iff (leaf : isObject operand = false) (nestable : Nestable path)
    (plain : isOperator name = false) (undotted : '.' ∉ name.toList) (array : p.isArray = true)
    (items : p.items = some r) (child : r.child? name = some q)
    (means : ∀ v, q.Shapes rest v → (fits search operand path v = true ↔ Finds operand q rest v))
    (shapes : p.Shapes (name :: rest) v) :
    fits search operand (elemMatch :: name :: path) v = true ↔
      Finds operand p (name :: rest) v := by
  rw [fits, holds_elements, Option.any_some, Finds, Property.stacks_array_iff array items]
  cases shapes with
  | scalar =>
    constructor
    · rintro ⟨⟩
    · exact fun finds => absurd finds.1 (not_reaches_scalar _)
  | field single => cases single.symm.trans array
  | @element _ _ _ values _ each =>
    rw [elements, List.any_eq_true, reaches_array_iff]
    by_cases inner : r.isArray = true
    · constructor
      · rintro ⟨w, mem, met⟩
        rw [not_fits_stacked leaf nestable plain undotted inner (each r w items mem)] at met
        cases met
      · exact fun finds => absurd (.inl inner) finds.2
    · have single : r.isArray = false := Bool.not_eq_true _ ▸ inner
      have has := (Property.child?_single single name).symm.trans child
      have below := fun w mem => fits_name_iff leaf nestable plain undotted single has means
        (each r w items mem)
      constructor
      · rintro ⟨w, mem, met⟩
        obtain ⟨reaches, flat⟩ := (below w mem).1 met
        exact ⟨⟨w, mem, reaches⟩, fun piled => piled.elim inner flat⟩
      · rintro ⟨⟨w, mem, reaches⟩, flat⟩
        exact ⟨w, mem, (below w mem).2 ⟨reaches, fun piled => flat (.inr piled)⟩⟩

theorem resolveBelow_single (single : p.isArray = false) (child : p.child? name = some q)
    (resolved : resolveBelow q rest = some path) :
    resolveBelow p (name :: rest) = some (name :: path) := by
  unfold resolveBelow
  simp only [single, Bool.false_eq_true, if_false, child, resolved, Option.map_some]

theorem resolveBelow_array (array : p.isArray = true) (other : name ≠ elemMatch)
    (child : p.child? name = some q) (resolved : resolveBelow q rest = some path) :
    resolveBelow p (name :: rest) = some (elemMatch :: name :: path) := by
  unfold resolveBelow
  simp only [array, if_true, other, if_false, child, resolved, Option.map_some]

theorem exists_keys (search : Search) (leaf : isObject operand = false) {names : List String}
    (plain : ∀ name ∈ names, isOperator name = false ∧ '.' ∉ name.toList)
    (declared : p.Declares names) :
    ∃ keys, resolveBelow p names = some keys ∧ Nestable keys ∧
      ∀ v, p.Shapes names v → (fits search operand keys v = true ↔ Finds operand p names v) := by
  induction names generalizing p with
  | nil =>
    refine ⟨[], by rw [resolveBelow], .nil, fun v _ => ?_⟩
    rw [fits, Finds, reaches_nil_iff]
    exact (and_iff_left nofun).symm
  | cons name rest ih =>
    obtain ⟨⟨field, undotted⟩, later⟩ := List.forall_mem_cons.1 plain
    obtain ⟨q, child, below⟩ := Property.exists_child declared
    obtain ⟨path, resolved, nestable, means⟩ := ih later below
    cases array : p.isArray with
    | false =>
      refine ⟨name :: path, resolveBelow_single array child resolved,
        .name field undotted nestable, fun v shapes => ?_⟩
      have has := (Property.child?_single array name).symm.trans child
      exact fits_name_iff leaf nestable field undotted array has means shapes
    | true =>
      have other : name ≠ elemMatch := by
        rintro rfl
        cases field
      refine ⟨elemMatch :: name :: path, resolveBelow_array array other child resolved,
        .element (.name field undotted nestable), fun v shapes => ?_⟩
      cases declared with
      | field single => cases single.symm.trans array
      | @element _ r _ _ _ items _ =>
        have child := (Property.child?_array array items name).symm.trans child
        exact fits_element_iff leaf nestable field undotted array items child means shapes

variable {h : Handle} {d : ModelDefinition}

theorem resolveNames_eq {names : List String} (some_ : names ≠ []) :
    resolveNames d names = resolveBelow d.document names := by
  cases names with
  | nil => exact absurd rfl some_
  | cons first rest =>
    rw [resolveNames, resolveBelow.eq_def d.document]
    rfl

theorem ofName?_of_dotted {path : String} (dotted : isDotted path = true) :
    Junction.ofName? path = none := by
  cases name : Junction.ofName? path with
  | none => rfl
  | some j =>
    have plain : isDotted j.name = false := by cases j <;> decide
    rw [Junction.name_of_ofName? name, dotted] at plain
    cases plain

/-- The entry of a path that is declared is met where the operand is found. -/
theorem meets_slot_iff {path : String} (dotted : isDotted path = true)
    (leaf : isObject operand = false)
    (plain : ∀ name ∈ Text.cut '.' path, isOperator name = false)
    (declared : d.document.Declares (Text.cut '.' path)) {doc : Fields}
    (shapes : d.document.Shapes (Text.cut '.' path) (.object doc)) :
    meets search [slot d path operand] doc = true ↔
      Finds operand d.document (Text.cut '.' path) (.object doc) := by
  obtain ⟨keys, resolved, -, means⟩ := exists_keys search leaf
    (fun name mem => ⟨plain name mem, Text.not_mem_of_mem_cut mem⟩) declared
  have path_ : keysOf d path = keys := by
    rw [keysOf, if_pos dotted, resolveNames_eq (Text.cut_ne_nil '.' path), resolved]
    rfl
  rw [← means _ shapes, slot]
  cases keys with
  | nil => exact absurd path_ (keysOf_ne_nil d path)
  | cons first rest =>
    rw [path_]
    exact Iff.of_eq (congrArg (· = true) (meets_single first (nest rest operand) doc))

/-- The selector for a value at a declared path. A document of the declared shapes meets it if it
belongs to the model and the value is found at the path, and no array on the way holds arrays. The
name of the id, dotted or not, stands for the id. -/
theorem build_nests (h : Handle) {path : String} {v : Value} (dotted : isDotted path = true)
    (leaf : isObject v = false) (plain : ∀ name ∈ Text.cut '.' path, isOperator name = false)
    (declared : h.definition.document.Declares (Text.cut '.' path)) :
    ∃ selector, (build h (.object [(path, v)])).outcome = .ok selector ∧
      ∀ search doc, h.definition.document.Shapes (Text.cut '.' path) (.object doc) →
        (path ≠ h.idName →
          (meets search selector doc = true ↔
            (∀ base, h.Constrains base → meets search base doc = true) ∧
            Reaches (fun w => w.same v = true) (Text.cut '.' path) (.object doc) ∧
            ¬h.definition.document.Stacks (Text.cut '.' path))) ∧
        (path = h.idName →
          (meets search selector doc = true ↔
            (∀ base, h.Constrains base → meets search base doc = true) ∧
            ∃ id, Entries.get? doc "_id" = some id ∧ id.same (idOperand v) = true)) := by
  have accepted := parse_single_literal (ofName?_of_dotted dotted) leaf
  obtain ⟨selector, built, met⟩ := exists_build (h := h) accepted
    (compile_single.2 ⟨_, entry_literal, rfl⟩)
  rw [searches_literal leaf] at met
  refine ⟨selector, built, fun search doc shapes => ⟨fun other => ?_, fun own => ?_⟩⟩
  · have field : fieldOf h.definition path = path := if_neg other
    have operand : operandOf h.definition path v = v := if_neg other
    rw [field, operand] at met
    exact (met search doc).trans
      (and_congr_right fun _ => meets_slot_iff dotted leaf plain declared shapes)
  · have field : fieldOf h.definition path = "_id" := if_pos own
    have operand : operandOf h.definition path v = idOperand v := if_pos own
    rw [field, operand, slot_undotted (by decide)] at met
    refine (met search doc).trans (and_congr_right fun _ => ?_)
    have leaf := (isObject_idOperand v).trans leaf
    rw [guarded, if_neg (by simp), meets_single, holds_literal (by decide) leaf, Option.bind_some,
      fieldAt_eq_get? (by decide), Option.any_eq_true]
    rfl

/-- Lines within orders: one order out of two has a line of the sort that is looked for. -/
theorem build_nests_orders :
    let d : ModelDefinition := ⟨"Customer", [("orders", .list (.record
      [("lines", .list (.record [("sort", .bare .string)]))]))], [], .default⟩
    let h : Handle := ⟨d, "shop", some "kind", none⟩
    let line (sort : String) : Value := .object [("sort", .str sort)]
    let doc : Fields := [("kind", .str "Customer"), ("orders", .array
      [.object [("lines", .array [])], .object [("lines", .array [line "a", line "b"])]])]
    d.document.Declares ["orders", "lines", "sort"] ∧
      d.document.Shapes ["orders", "lines", "sort"] (.object doc) ∧
      ∃ selector, (build h (.object [("orders.lines.sort", .str "b")])).outcome = .ok selector ∧
        ∀ search, meets search selector doc = true := by
  intro d h line doc
  have path : Text.cut '.' "orders.lines.sort" = ["orders", "lines", "sort"] := by decide
  have declared : d.document.Declares ["orders", "lines", "sort"] :=
    .field rfl rfl (.element rfl rfl (.field rfl rfl (.element rfl rfl (.field rfl rfl (.here _)))))
  have shapes : d.document.Shapes ["orders", "lines", "sort"] (.object doc) := by
    refine .field rfl fun _ orders has there => ?_
    cases has
    cases there
    refine .element rfl fun _ order items mem => ?_
    cases items
    have order_ : ∃ lines : List String, order = .object [("lines", .array (lines.map line))] := by
      simp only [List.mem_cons, List.not_mem_nil, or_false] at mem
      rcases mem with rfl | rfl
      · exact ⟨[], rfl⟩
      · exact ⟨["a", "b"], rfl⟩
    obtain ⟨lines, rfl⟩ := order_
    refine .field rfl fun _ v has there => ?_
    cases has
    cases there
    refine .element rfl fun _ w items mem => ?_
    cases items
    obtain ⟨sort, -, rfl⟩ := List.mem_map.1 mem
    exact .field rfl fun _ w has _ => by cases has; exact .here _ _
  have dotted : isDotted "orders.lines.sort" = true := by decide
  have leaf : isObject (.str "b") = false := rfl
  obtain ⟨selector, built, met⟩ := build_nests h dotted leaf (by rw [path]; decide)
    (path ▸ declared)
  refine ⟨declared, shapes, selector, built, fun search => ?_⟩
  refine ((met search doc (path ▸ shapes)).1 (by decide)).2 ⟨?_, ?_, ?_⟩
  · intro base constrains
    cases constrains with
    | selector own => cases own
    | discriminator plain given named =>
      cases given
      rw [meets_single]
      exact (carries_iff (by decide)).2 ((fieldAt_eq_get? (by decide) _).trans rfl)
  · rw [path]
    exact .field rfl (.element (List.mem_cons_of_mem _ List.mem_cons_self) (.field rfl
      (.element (List.mem_cons_of_mem _ List.mem_cons_self) (.field rfl (.here rfl)))))
  · rw [path]
    rw [Property.stacks_single_iff rfl rfl, Property.stacks_array_iff rfl rfl,
      Property.stacks_single_iff rfl rfl, Property.stacks_array_iff rfl rfl,
      Property.stacks_single_iff rfl rfl]
    exact fun piled => piled.elim nofun fun below => below.elim nofun nofun

/-- A cell of a grid is found in a row of its rows, and not by the selector. -/
theorem build_misses_cell :
    let d : ModelDefinition :=
      ⟨"Customer", [("grid", .list (.list (.record [("cell", .bare .number)])))], [], .default⟩
    let h : Handle := ⟨d, "shop", some "kind", none⟩
    let row : Value := .array [.object [("cell", .int 1)]]
    let doc : Fields := [("kind", .str "Customer"), ("grid", .array [row])]
    let selector : Fields := [("kind", .str "Customer"),
      ("grid", .object [("$elemMatch", .object [("cell", .int 1)])])]
    d.document.Declares ["grid", "cell"] ∧ d.document.Shapes ["grid", "cell"] (.object doc) ∧
      Reaches (fun w => w.same (.int 1) = true) ["grid", "cell"] (.object doc) ∧
      (build h (.object [("grid.cell", .int 1)])).outcome = .ok selector ∧
      ∀ search, meets search selector doc = false := by
  intro d h row doc selector
  refine ⟨?_, ?_, ?_, ?_, fun search => ?_⟩
  · exact .field rfl rfl (.element rfl rfl (.element rfl rfl (.field rfl rfl (.here _))))
  · refine .field rfl fun _ grid has there => ?_
    cases has
    cases there
    refine .element rfl fun _ row items mem => ?_
    cases items
    cases List.mem_singleton.1 mem
    refine .element rfl fun _ cell items mem => ?_
    cases items
    cases List.mem_singleton.1 mem
    exact .field rfl fun _ _ has _ => by cases has; exact .here _ _
  · exact .field rfl (.element List.mem_cons_self (.element List.mem_cons_self
      (.field rfl (.here rfl))))
  · have keys : keysOf d "grid.cell" = ["grid", "$elemMatch", "cell"] := by decide +kernel
    have compiled : (compile d [.field "grid.cell" (.literal (.int 1))]).outcome =
        .ok [("grid", nest ["$elemMatch", "cell"] (.int 1))] := by
      refine compile_single.2 ⟨_, entry_literal, ?_⟩
      rw [fieldOf, if_neg (by decide), operandOf, if_neg (by decide), slot, keys]
    rw [build, parse_single_literal (by decide) rfl]
    exact Noted.bind_eq_ok.2 ⟨_, compiled, rfl⟩
  · have missed : holds search true "grid" (nest [elemMatch, "cell"] (.int 1))
        (some (.object doc)) = false := by
      rw [holds_name rfl (.element (.name (by decide) (by decide) .nil)) (by decide) (by decide)]
      show fits search (.int 1) [elemMatch, "cell"] (.array [row]) = false
      rw [fits, holds_elements]
      show (fits search (.int 1) ["cell"] row || false) = false
      rw [fits, holds_name rfl .nil (by decide) (by decide)]
      rfl
    refine Bool.eq_false_iff.2 fun met => ?_
    have met := holdsAll_iff.1 met _ (List.mem_cons_of_mem _ List.mem_cons_self)
    exact Bool.false_ne_true (missed.symm.trans met)

end Selector

end ModelStore
