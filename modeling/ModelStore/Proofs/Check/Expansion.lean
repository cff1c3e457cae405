import ModelStore.Proofs.Check
import ModelStore.Selector.Path

/-! Short forms of property declarations, written out. A form and the full form that it stands for
are read alike, and a full form stands for itself, so it does not matter how often a form is
written out before it is read. The spellings of an array differ in just that. -/

namespace ModelStore.Check

mutual

/-- The full form that a declaration stands for. Only the outermost form is written out, and
that of the elements where it is one of an array. -/
def expand : Value → Value
  | .property p => .property p
  | .array items => .object [("type", .str "array"), ("items", expandFirst items)]
  | .object fields =>
    match expandListed fields with
    | some first => .object (Entries.set (Entries.set fields "type" (.str "array")) "items" first)
    | none =>
      if Entries.has fields "type" || fields.isEmpty then .object fields
      else .object [("type", .str "object"), ("properties", .object fields)]
  | v => .object [("type", v)]

/-- The elements that a mapping declares by a list under `type`. -/
def expandListed : List (String × Value) → Option Value
  | [] => none
  | (key, v) :: rest => if key = "type" then expandType v else expandListed rest

def expandType : Value → Option Value
  | .array items => some (expandFirst items)
  | _ => none

def expandFirst : List Value → Value
  | [] => .null
  | v :: _ => expand v

end

theorem expandListed_eq (fields : Fields) :
    expandListed fields = (Entries.get? fields "type").bind expandType := by
  induction fields with
  | nil => rfl
  | cons e rest ih =>
    obtain ⟨key, v⟩ := e
    rw [expandListed, Entries.get?_cons]
    split
    · rfl
    · exact ih

def IsFull : Value → Prop
  | .property _ => True
  | .object fields => fields = [] ∨ ∃ v, Entries.get? fields "type" = some v ∧ expandType v = none
  | _ => False

theorem expand_full (v : Value) : IsFull (expand v) := by
  cases v with
  | property p => trivial
  | array items => exact .inr ⟨.str "array", rfl, rfl⟩
  | object fields =>
    rw [expand]
    split
    · refine .inr ⟨.str "array", ?_, rfl⟩
      rw [Entries.get?_set_ne _ _ (by decide), Entries.get?_set_self]
    · rename_i unlisted
      rw [expandListed_eq] at unlisted
      split
      · rename_i given
        cases typed : Entries.get? fields "type" with
        | some v =>
          rw [typed] at unlisted
          exact .inr ⟨v, typed, unlisted⟩
        | none => exact .inl (by simpa [Entries.has, typed] using given)
      · exact .inr ⟨.str "object", rfl, rfl⟩
  | _ => exact .inr ⟨_, rfl, rfl⟩

theorem expand_of_full {v : Value} (full : IsFull v) : expand v = v := by
  cases v with
  | property p => rfl
  | object fields =>
    rcases full with rfl | ⟨v, typed, unlisted⟩
    · rfl
    · have none_ : expandListed fields = none := by rw [expandListed_eq, typed]; exact unlisted
      rw [expand, none_]
      simp [Entries.has, typed]
  | _ => cases full

theorem expand_expand (v : Value) : expand (expand v) = expand v :=
  expand_of_full (expand_full v)

theorem get?_readings (fields : Fields) (key : String) :
    Entries.get? (readings fields) key = (Entries.get? fields key).map reading := by
  induction fields with
  | nil => rfl
  | cons e rest ih =>
    obtain ⟨k, v⟩ := e
    rw [readings, Entries.get?_cons, Entries.get?_cons, ih]
    split <;> rfl

@[simp] theorem reading_value (v : Value) : (reading v).value = v := by
  cases v <;> rfl

theorem property_of_full {v : Value} (full : IsFull v) : property v = fullProperty v := by
  cases v with
  | property p => rfl
  | object fields =>
    rcases full with rfl | ⟨v, typed, unlisted⟩
    · rfl
    · show mapping (readings fields) = explicit (readings fields)
      rw [mapping, get?_readings, typed]
      cases v with
      | array items => cases unlisted
      | _ => rfl
  | _ => cases full

theorem isNull_expand (v : Value) : (expand v).isNull = false := by
  have full := expand_full v
  cases expanded : expand v with
  | scalar s =>
    rw [expanded] at full
    cases full
  | _ => rfl

theorem fullProperty_of_array {fields : Fields} {elements : Value}
    (typed_ : Entries.get? fields "type" = some (.str "array"))
    (given : Entries.get? fields "items" = some elements) :
    fullProperty (.object fields) =
      fullForm (readings fields) (.ok .array) (itemsOf (reading elements)) := by
  show explicit (readings fields) = _
  rw [explicit, declaredItems, get?_readings, get?_readings, typed_, given]
  rfl

theorem fullForm_congr {parts others : Entries Reading} (type : Checked PropertyType)
    (items : Checked (Option Property))
    (same : ∀ key, key ≠ "type" → key ≠ "items" →
      Entries.get? parts key = Entries.get? others key) :
    fullForm parts type items = fullForm others type items := by
  rw [fullForm, fullForm, same "index" (by decide) (by decide), same "id" (by decide) (by decide),
    same "properties" (by decide) (by decide)]

theorem property_of_listed {fields : Fields} {items : List Value}
    (typed_ : Entries.get? fields "type" = some (.array items)) :
    property (.object fields) = fullForm (readings fields) (.ok .array) (firstReading items) := by
  show mapping (readings fields) = _
  rw [mapping, get?_readings, typed_]
  rfl

theorem property_of_tree {fields : Fields} (some_ : fields.isEmpty = false)
    (untyped : Entries.get? fields "type" = none) :
    property (.object fields) = plain .object (shapes (readings fields)) (.ok none) := by
  have parts : (readings fields).isEmpty = false := by
    cases fields with
    | nil => cases some_
    | cons e rest => rfl
  show mapping (readings fields) = _
  rw [mapping, get?_readings, untyped]
  simp [parts]

mutual

theorem property_expand (v : Value) : property (expand v) = property v := by
  cases v with
  | array items =>
    rw [property_of_full (expand_full _), expand, fullProperty_of_array rfl rfl,
      itemsOf_expandFirst items]
    rfl
  | object fields =>
    rw [property_of_full (expand_full _), expand]
    split
    · rename_i first listed
      obtain ⟨items, typed_, read⟩ := itemsOf_expandListed fields listed
      rw [property_of_listed typed_, fullProperty_of_array _ (Entries.get?_set_self _ _ _), read]
      · refine fullForm_congr _ _ fun key untyped other => ?_
        rw [get?_readings, get?_readings, Entries.get?_set_ne _ _ (Ne.symm other),
          Entries.get?_set_ne _ _ (Ne.symm untyped)]
      · rw [Entries.get?_set_ne _ _ (by decide), Entries.get?_set_self]
    · rename_i unlisted
      split
      · rename_i stays
        have same : expand (.object fields) = .object fields := by
          rw [expand, unlisted, if_pos stays]
        exact (property_of_full (same ▸ expand_full (.object fields))).symm
      · rename_i tree
        rw [Bool.or_eq_true, not_or, Bool.not_eq_true, Bool.not_eq_true] at tree
        rw [property_of_tree tree.2 (by simpa [Entries.has] using tree.1)]
        rfl
  | _ => rfl

theorem itemsOf_expandFirst (items : List Value) :
    itemsOf (reading (expandFirst items)) = firstReading items := by
  cases items with
  | nil => rfl
  | cons v rest =>
    rw [expandFirst, itemsOf, reading_value, isNull_expand, if_neg Bool.false_ne_true]
    exact congrArg (Except.map some) (property_expand v)

theorem itemsOf_expandListed (fields : List (String × Value)) {first : Value}
    (listed : expandListed fields = some first) :
    ∃ items, Entries.get? fields "type" = some (.array items) ∧
      itemsOf (reading first) = firstReading items := by
  cases fields with
  | nil => cases listed
  | cons e rest =>
    obtain ⟨key, v⟩ := e
    rw [expandListed] at listed
    rw [Entries.get?_cons]
    split at listed
    · rename_i here
      rw [if_pos here]
      cases v with
      | array items =>
        cases listed
        exact ⟨items, rfl, itemsOf_expandFirst items⟩
      | _ => cases listed
    · rename_i other
      rw [if_neg other]
      exact itemsOf_expandListed rest listed

end

/-- A declaration in any form is checked as the full form that it stands for. -/
theorem property_eq_fullProperty (v : Value) : property v = fullProperty (expand v) := by
  rw [← property_expand, property_of_full (expand_full v)]

def arrayOf (elements : Property) : Property := ⟨.array, false, false, [], some elements⟩

/-- The ways to declare an array of the given elements. -/
def arraySpellings (x : Value) : List Value :=
  [.array [x], .object [("type", .str "array"), ("items", x)], .object [("type", .array [x])]]

theorem fullProperty_array {x : Value} (some_ : x.isNull = false) :
    fullProperty (.object [("type", .str "array"), ("items", x)]) =
      (Checked.inside "items" (property x)).map arrayOf := by
  have elements : itemsOf (reading x) = (property x).map some := by
    rw [itemsOf, reading_value, some_, if_neg Bool.false_ne_true]
    rfl
  rw [fullProperty_of_array rfl rfl, elements]
  cases property x <;> rfl

theorem property_of_arraySpelling {x s : Value} (some_ : x.isNull = false)
    (spelled : s ∈ arraySpellings x) :
    property s = (Checked.inside "items" (property x)).map arrayOf := by
  have written : fullProperty (.object [("type", .str "array"), ("items", expand x)]) =
      (Checked.inside "items" (property x)).map arrayOf := by
    rw [fullProperty_array (isNull_expand x), property_expand]
  rw [property_eq_fullProperty]
  simp only [arraySpellings, List.mem_cons, List.not_mem_nil, or_false] at spelled
  rcases spelled with rfl | rfl | rfl
  · exact written
  · exact fullProperty_array some_
  · exact written

theorem properties_object (fields : Fields) :
    properties (.object fields) = Checked.entries (fields.map fun e => (e.1, property e.2)) := by
  show Checked.entries ((readings fields).map fun e => (e.1, e.2.property)) = _
  congr 1
  induction fields with
  | nil => rfl
  | cons e rest ih => rw [readings, List.map_cons, List.map_cons, ih, property]

def RawDefinition.declaring (raw : RawDefinition) (before : Fields) (key : String) (v : Value)
    (after : Fields) : RawDefinition :=
  { raw with properties := .object (before ++ (key, v) :: after) }

/-- Declarations that are read alike make the same definition. -/
theorem definition_declaring (raw : RawDefinition) (before : Fields) (key : String) {v w : Value}
    (same : property v = property w) (after : Fields) :
    definition (raw.declaring before key v after) =
      definition (raw.declaring before key w after) := by
  have table (u : Value) : properties (orEmpty (.object (before ++ (key, u) :: after))) =
      Checked.entries ((before.map fun e => (e.1, property e.2)) ++
        (key, property u) :: after.map fun e => (e.1, property e.2)) := by
    rw [orEmpty, if_pos (by simp [Value.truthy]), properties_object, List.map_append,
      List.map_cons]
  simp only [definition, RawDefinition.declaring, table, same]

end ModelStore.Check

namespace ModelStore.ModelDefinition

open Check

/-- The spellings of an array of the given elements are accepted if the elements are, they declare
the same property, and a definition in which one takes the place of another is the same
definition, along which each path is resolved as before. -/
theorem array_spellings_agree (raw : RawDefinition) (before : Fields) (key : String)
    (after : Fields) {x : Value} (some_ : x ≠ .null) :
    (∀ s ∈ arraySpellings x,
      property s = (Checked.inside "items" (property x)).map arrayOf) ∧
    ∀ s ∈ arraySpellings x, ∀ t ∈ arraySpellings x,
      build (raw.declaring before key s after) = build (raw.declaring before key t after) ∧
      ∀ path, (build (raw.declaring before key s after)).map (Selector.resolvePath · path) =
        (build (raw.declaring before key t after)).map (Selector.resolvePath · path) := by
  have given : x.isNull = false := by
    cases x with
    | scalar s =>
      cases s with
      | null => exact absurd rfl some_
      | _ => rfl
    | _ => rfl
  have read : ∀ s ∈ arraySpellings x, property s = _ := fun s => property_of_arraySpelling given
  refine ⟨read, fun s first t second => ?_⟩
  have alike : property s = property t := (read s first).trans (read t second).symm
  have same : build (raw.declaring before key s after) =
      build (raw.declaring before key t after) := by
    rw [build, build, definition_declaring raw before key alike]
    rfl
  exact ⟨same, fun path => by rw [same]⟩

/-- A table of cells, by rows. -/
theorem array_spellings_agree_grid :
    let x : Value := .array [.object [("cell", .scalar (.native .integer))]]
    let raw : RawDefinition := ⟨.str "Customer", .null, .null, .null⟩
    x ≠ .null ∧ ∀ s ∈ arraySpellings x,
      (build (raw.declaring [] "grid" s [])).map (Selector.resolvePath · "grid.cell") =
        .ok (some "grid.$elemMatch.cell") := by
  intro x raw
  have some_ : x ≠ .null := nofun
  refine ⟨some_, fun s spelled => ?_⟩
  have same := (array_spellings_agree raw [] "grid" [] some_).2 s spelled _ List.mem_cons_self
  let cell : Property := ⟨.number, false, false, [], none⟩
  let row : Property := ⟨.object, false, false, [("cell", cell)], none⟩
  have built : build (raw.declaring [] "grid" (.array [x]) []) =
      .ok ⟨"Customer", [("grid", arrayOf (arrayOf row))], [], .default⟩ := rfl
  rw [same.2, built]
  exact congrArg Except.ok (by decide +kernel)

end ModelStore.ModelDefinition
