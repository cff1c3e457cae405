import ModelStore.Proofs.Mapper
import ModelStore.Proofs.Selector.Confinement

/-! Finding a document by a value it was written with. Two conversions have to agree: the one
that gives a value its stored form and the one that makes it the operand of a selector. Ids
become text on either way, but for truth values, which a selector keeps. Fields are given
their stored form on the way in alone, so a date is written as text and looked for as a date,
for which a query has no form. -/

namespace ModelStore

open Selector (isDotted isOperator isObject)

/-- Whether a scalar can be data: it is a number that is finite, or no number at all, and
neither a pattern nor a type. -/
def Scalar.IsData : Scalar → Prop
  | .float x => x.isFinite = true
  | .pattern _ | .native _ => False
  | _ => True

def Scalar.isJson : Scalar → Bool
  | .date _ | .moment _ | .uuid _ | .decimal _ => false
  | _ => true

namespace Value

mutual

/-- Data without objects: scalars, and lists of such values. -/
def Flat : Value → Prop
  | scalar s => s.IsData
  | array items => AllFlat items
  | tuple items => AllFlat items
  | _ => False

def AllFlat : List Value → Prop
  | [] => True
  | v :: rest => v.Flat ∧ AllFlat rest

end

mutual

def isJson : Value → Bool
  | scalar s => s.isJson
  | array items => allJson items
  | tuple items => allJson items
  | _ => false

def allJson : List Value → Bool
  | [] => true
  | v :: rest => v.isJson && allJson rest

end

variable {v w : Value}

theorem encode_scalar_iff {s : Scalar} (data : s.IsData) :
    Json.encode (scalar s) = .ok w ↔ s.isJson = true ∧ w = (scalar s).stored := by
  rw [Json.encode]
  cases s with
  | float x =>
    have finite : x.isFinite = true := data
    simp [Json.scalarFault?, finite, Scalar.isJson, stored, storedScalar, eq_comm]
  | pattern p => exact data.elim
  | native t => exact data.elim
  | _ => simp [Json.scalarFault?, Scalar.isJson, stored, storedScalar, eq_comm]

mutual

theorem encode_flat_iff (v : Value) (flat : v.Flat) {w : Value} :
    Json.encode v = .ok w ↔ v.isJson = true ∧ w = v.stored := by
  cases v with
  | scalar s => exact encode_scalar_iff flat
  | array items =>
    rw [Json.encode, Except.map_eq_ok, isJson, stored]
    simp only [encodeItems_flat_iff items flat]
    exact ⟨fun ⟨_, ⟨json, same⟩, eq⟩ => ⟨json, by rw [← eq, same]⟩,
      fun ⟨json, eq⟩ => ⟨_, ⟨json, rfl⟩, eq.symm⟩⟩
  | tuple items =>
    rw [Json.encode, Except.map_eq_ok, isJson, stored]
    simp only [encodeItems_flat_iff items flat]
    exact ⟨fun ⟨_, ⟨json, same⟩, eq⟩ => ⟨json, by rw [← eq, same]⟩,
      fun ⟨json, eq⟩ => ⟨_, ⟨json, rfl⟩, eq.symm⟩⟩
  | _ => exact flat.elim

theorem encodeItems_flat_iff (items : List Value) (flat : AllFlat items) {ws : List Value} :
    Json.encodeItems items = .ok ws ↔ allJson items = true ∧ ws = storedItems items := by
  cases items with
  | nil => simp [Json.encodeItems, allJson, storedItems, eq_comm]
  | cons v rest =>
    rw [Json.encodeItems_cons, allJson, storedItems, Bool.and_eq_true_iff]
    simp only [encode_flat_iff v flat.1, encodeItems_flat_iff rest flat.2]
    constructor
    · rintro ⟨_, _, ⟨json, rfl⟩, ⟨others, rfl⟩, rfl⟩
      exact ⟨⟨json, others⟩, rfl⟩
    · rintro ⟨⟨json, others⟩, rfl⟩
      exact ⟨_, _, ⟨json, rfl⟩, ⟨others, rfl⟩, rfl⟩

end

theorem same_scalar_self {s : Scalar} (data : s.IsData) (json : s.isJson = true) :
    (scalar s).same (scalar s) = true := by
  show s.same s = true
  cases s with
  | float x =>
    have finite : x.exponentField < 2047 := of_decide_eq_true data
    have known : x.isNaN = false := by
      simp [Binary64.isNaN, Nat.ne_of_lt finite]
    have bounded : x.isInfinite = false := by
      simp [Binary64.isInfinite, Nat.ne_of_lt finite]
    simp only [Scalar.same, Scalar.quantity?, Quantity.ofBinary, known, bounded, Quantity.same,
      Bool.false_eq_true, if_false, beq_self_eq_true]
  | date d => cases json
  | moment m => cases json
  | uuid u => cases json
  | decimal d => cases json
  | pattern p => exact data.elim
  | native t => exact data.elim
  | _ => simp [Scalar.same, Scalar.quantity?, Quantity.same]

mutual

theorem same_stored (v : Value) (flat : v.Flat) (json : v.isJson = true) :
    v.stored.same v.stored = true := by
  cases v with
  | scalar s =>
    have kept : storedScalar s = s := by
      cases s <;> first | rfl | cases json
    rw [stored, kept]
    exact same_scalar_self flat json
  | array items => exact sameItems_stored items flat json
  | tuple items => exact sameItems_stored items flat json
  | _ => exact flat.elim

theorem sameItems_stored (items : List Value) (flat : AllFlat items)
    (json : allJson items = true) : sameItems (storedItems items) (storedItems items) = true := by
  cases items with
  | nil => rfl
  | cons v rest =>
    obtain ⟨first, others⟩ := Bool.and_eq_true_iff.1 json
    rw [storedItems, sameItems, same_stored v flat.1 first,
      sameItems_stored rest flat.2 others, Bool.and_true]

end

theorem isObject_of_flat (flat : v.Flat) : isObject v = false := by
  cases v with
  | object fields => exact flat.elim
  | _ => rfl

theorem isObject_encode (leaf : isObject v = false) (form : Json.encode v = .ok w) :
    isObject w = false := by
  cases v with
  | scalar s =>
    rw [Json.encode] at form
    split at form <;> cases form
    rfl
  | array items =>
    obtain ⟨ws, -, rfl⟩ := Except.map_eq_ok.1 form
    rfl
  | tuple items =>
    obtain ⟨ws, -, rfl⟩ := Except.map_eq_ok.1 form
    rfl
  | object fields => cases leaf
  | _ => cases form

end Value

namespace Selector

variable {h : Handle} {d : ModelDefinition} {base selector : Fields} {p mark : String}
  {v f : Value}

def operandOf (d : ModelDefinition) (path : String) (v : Value) : Value :=
  if path = d.idName then idOperand v else v

theorem isObject_idOperand (id : Value) : isObject (idOperand id) = isObject id := by
  cases id with
  | scalar s => cases s <;> rfl
  | _ => rfl

theorem entry_literal : (entry d (.field p (.literal v))).outcome =
    .ok (slot d (fieldOf d p) (operandOf d p v)) := by
  by_cases own : p = d.idName
  · rw [entry, addressed, fieldOf, operandOf, if_pos own, if_pos own, if_pos own]
    rfl
  · rw [entry, addressed, fieldOf, operandOf, if_neg own, if_neg own, if_neg own]
    rfl

/-- A filter with one literal becomes one entry beside the constraint. -/
theorem build_literal_iff (constrains : h.Constrains base) (undotted : isDotted p = false)
    (name : Junction.ofName? p = none) (flat : v.Flat) :
    (build h (.object [(p, v)])).outcome = .ok selector ↔
      selector = constrain base [(fieldOf h.definition p, operandOf h.definition p v)] := by
  have leaf := Value.isObject_of_flat flat
  have accepted := parse_single_literal name leaf
  have unguarded : searches [.field p (.literal v)] = false := searches_literal leaf
  have compiled : ∀ whole, (compile h.definition [.field p (.literal v)]).outcome = .ok whole ↔
      whole = [(fieldOf h.definition p, operandOf h.definition p v)] := by
    intro whole
    have field : isDotted (fieldOf h.definition p) = false := by
      unfold fieldOf
      split
      · decide
      · exact undotted
    rw [compile_single, entry_literal, slot_undotted field]
    simp
  rw [build_ok_iff constrains]
  constructor
  · rintro ⟨tree, whole, read, made, rfl⟩
    cases accepted.symm.trans read
    rw [(compiled whole).1 made, unguarded]
    rfl
  · rintro rfl
    refine ⟨_, _, accepted, (compiled _).2 rfl, ?_⟩
    rw [unguarded]
    rfl

theorem exists_encode_constrain {base' selector' : Fields}
    (left : Json.encodeFields base = .ok base')
    (right : Json.encodeFields selector = .ok selector') :
    ∃ coded, Json.encodeFields (constrain base selector) = .ok coded := by
  have first : Json.encode (.object base) = .ok (.object base') :=
    Except.map_eq_ok.2 ⟨base', left, rfl⟩
  have second : Json.encode (.object selector) = .ok (.object selector') :=
    Except.map_eq_ok.2 ⟨selector', right, rfl⟩
  have both : Json.encode (.array [.object base, .object selector]) =
      .ok (.array [.object base', .object selector']) :=
    Except.map_eq_ok.2 ⟨_, Json.encodeItems_cons.2
      ⟨_, _, first, Json.encodeItems_cons.2 ⟨_, [], second, rfl, rfl⟩, rfl⟩, rfl⟩
  unfold constrain
  split
  · exact ⟨[("$and", _)], Json.encodeFields_cons.2 ⟨_, [], both, rfl, rfl⟩⟩
  · exact ⟨_, Json.encodeFields_append_of left right⟩

/-- A document with the model's mark is found by one entry if the entry has a JSON form that
equals what the document has in that field. -/
theorem finds_entry_iff {doc : Fields} (field' : isOperator mark = false)
    (undotted' : isDotted mark = false) (carried : Entries.get? doc mark = some (.str h.name))
    (field : isOperator p = false) (undotted : isDotted p = false)
    (leaf : isObject f = false) :
    (∃ coded, Json.encodeFields (constrain [(mark, .str h.name)] [(p, f)]) = .ok coded ∧
        ∀ search, meets search coded doc = true) ↔
      ∃ u, Entries.get? doc p = some u ∧ ∃ w, Json.encode f = .ok w ∧ u.same w = true := by
  have marked : ∀ search, meets search [(mark, .str h.name)] doc = true := by
    intro search
    rw [meets_single, carries_iff field', fieldAt_eq_get? (isDotted_iff.1 undotted')]
    exact carried
  have here : ∀ search w, isObject w = false →
      (meets search [(p, w)] doc = true ↔
        ∃ u, Entries.get? doc p = some u ∧ u.same w = true) := by
    intro search w leaf
    rw [meets_single, holds_literal field leaf, Option.bind_some,
      fieldAt_eq_get? (isDotted_iff.1 undotted), Option.any_eq_true]
    exact Iff.rfl
  constructor
  · rintro ⟨coded, form, met⟩
    obtain ⟨base', selector', -, right, means⟩ := encode_constrain form
    obtain ⟨w, _, alone, rest, rfl⟩ := Json.encodeFields_cons.1 right
    cases rest
    have found := ((means (fun _ _ => false) doc).1 (met _)).2
    obtain ⟨u, stands, same⟩ := (here _ w (Value.isObject_encode leaf alone)).1 found
    exact ⟨u, stands, w, alone, same⟩
  · rintro ⟨u, stands, w, alone, same⟩
    have left : Json.encodeFields [(mark, .str h.name)] = .ok [(mark, .str h.name)] := rfl
    have right : Json.encodeFields [(p, f)] = .ok [(p, w)] :=
      Json.encodeFields_cons.2 ⟨w, [], alone, rfl, rfl⟩
    obtain ⟨coded, form⟩ := exists_encode_constrain left right
    obtain ⟨base', selector', first, second, means⟩ := encode_constrain form
    cases left.symm.trans first
    cases right.symm.trans second
    refine ⟨coded, form, fun search => (means search doc).2 ⟨marked search, ?_⟩⟩
    exact (here search w (Value.isObject_encode leaf alone)).2 ⟨u, stands, same⟩

theorem idOperand_eq_str {s : Scalar} (data : s.IsData) (given : (Value.scalar s).isNull = false)
    (other : ∀ b, Value.scalar s ≠ .bool b) :
    idOperand (.scalar s) = .str (Value.scalar s).text := by
  cases s with
  | null => cases given
  | bool b => exact absurd rfl (other b)
  | pattern p => exact data.elim
  | native t => exact data.elim
  | _ => rfl

theorem finds_idOperand_iff {s : Scalar} (data : s.IsData)
    (given : (Value.scalar s).isNull = false) (t : String) :
    (∃ w, Json.encode (idOperand (.scalar s)) = .ok w ∧ (Value.str t).same w = true) ↔
      (∀ b, Value.scalar s ≠ .bool b) ∧ (Value.scalar s).text = t := by
  by_cases truth : ∃ b, Value.scalar s = .bool b
  · obtain ⟨b, same⟩ := truth
    cases same
    constructor
    · rintro ⟨_, ⟨⟩, ⟨⟩⟩
    · rintro ⟨other, -⟩
      exact absurd rfl (other b)
  · have other : ∀ b, Value.scalar s ≠ .bool b := fun b same => truth ⟨b, same⟩
    have form : Json.encode (idOperand (.scalar s)) = .ok (.str (Value.scalar s).text) := by
      rw [idOperand_eq_str data given other]
      rfl
    rw [form]
    simp only [Except.ok.injEq, exists_eq_left', Value.same_str, beq_iff_eq]
    exact ⟨fun same => ⟨other, same.symm⟩, fun same => same.2.symm⟩

/-- A document is found by the value of one of its fields exactly if the value is of kinds that
JSON knows. It is found by its id exactly if the id is no truth value, and, where the mark
stands in its place, has the text of the mark. -/
theorem build_finds (h : Handle) {mark p : String} {v : Value} {source doc : Fields}
    (own : h.modelSelector = none) (marked : h.mark? = some mark)
    (undotted' : isDotted mark = false) (field' : isOperator mark = false)
    (undotted : isDotted p = false) (field : isOperator p = false)
    (name : Junction.ofName? p = none) (apart : p ≠ "_id") (unmarked : p ≠ mark)
    (flat : v.Flat) (given : v.isNull = false) (single : p = h.idName → ∃ s, v = .scalar s)
    (distinct : (Entries.keys source).Nodup) (here : Entries.get? source p = some v)
    (stored : (Mapper.ofHandle h).toDoc (.object source) = .ok doc) :
    (∃ selector coded, (build h (.object [(p, v)])).outcome = .ok selector ∧
        Json.encodeFields selector = .ok coded ∧ ∀ search, meets search coded doc = true) ↔
      if p = h.idName then (∀ b, v ≠ .bool b) ∧ (mark = "_id" → v.text = h.name)
      else v.isJson = true := by
  obtain ⟨present, named⟩ := Option.filter_eq_some_iff.1 marked
  have constrains : h.Constrains [(mark, .str h.name)] :=
    .discriminator own present (by simpa using named)
  have stamped : (Mapper.ofHandle h).mark? = some mark := marked
  have carried : Entries.get? doc mark = some (.str h.name) := by
    rw [Mapper.toDoc_ok stored, Value.get?_storedFields, Mapper.layOut, Mapper.get?_stamp,
      if_pos stamped]
    rfl
  have sent : (∃ selector coded, (build h (.object [(p, v)])).outcome = .ok selector ∧
        Json.encodeFields selector = .ok coded ∧ ∀ search, meets search coded doc = true) ↔
      ∃ coded, Json.encodeFields (constrain [(mark, .str h.name)]
          [(fieldOf h.definition p, operandOf h.definition p v)]) = .ok coded ∧
        ∀ search, meets search coded doc = true := by
    simp only [build_literal_iff constrains undotted name flat]
    constructor
    · rintro ⟨_, coded, made, rest⟩
      exact ⟨coded, made ▸ rest⟩
    · rintro ⟨coded, rest⟩
      exact ⟨_, coded, rfl, rest⟩
  rw [sent]
  by_cases id : p = h.idName
  · obtain ⟨s, rfl⟩ := single id
    have operand : operandOf h.definition p (.scalar s) = idOperand (.scalar s) := if_pos id
    have slot : fieldOf h.definition p = "_id" := if_pos id
    have under : Entries.get? doc "_id" =
        some (.str (if mark = "_id" then h.name else (Value.scalar s).text)) := by
      rw [Mapper.get?_id_toDoc stored (by rw [← here, id]; rfl) given, stamped]
      simp only [Option.some.injEq]
      rfl
    have leaf : isObject (idOperand (.scalar s)) = false := by cases s <;> rfl
    rw [if_pos id, operand, slot,
      finds_entry_iff field' undotted' carried (by decide) (by decide) leaf, under]
    simp only [Option.some.injEq, exists_eq_left']
    rw [finds_idOperand_iff flat given]
    by_cases taken : mark = "_id" <;> simp [taken]
  · have operand : operandOf h.definition p v = v := if_neg id
    have slot : fieldOf h.definition p = p := if_neg id
    have stands : Entries.get? doc p = some v.stored := by
      have free : (Mapper.ofHandle h).mark? ≠ some p := fun same =>
        unmarked (Option.some.inj (same.symm.trans stamped))
      rw [Mapper.get?_toDoc_field stored distinct free apart id, here, Option.filter_some, given]
      rfl
    rw [if_neg id, operand, slot,
      finds_entry_iff field' undotted' carried field undotted (Value.isObject_of_flat flat)]
    simp only [Value.encode_flat_iff v flat]
    constructor
    · rintro ⟨u, -, w, ⟨json, -⟩, -⟩
      exact json
    · intro json
      exact ⟨_, stands, _, ⟨json, rfl⟩, Value.same_stored v flat json⟩

theorem build_finds_tags :
    let h : Handle := ⟨⟨"Customer", [], [], .default⟩, "shop", some "kind", none⟩
    let v : Value := .array [.str "new", .tuple [.int 5, .bool true]]
    let source : Fields := [("id", .int 7), ("tags", v)]
    let doc : Fields := [("tags", .array [.str "new", .array [.int 5, .bool true]]),
      ("_id", .str "7"), ("kind", .str "Customer")]
    v.Flat ∧ (Entries.keys source).Nodup ∧ Entries.get? source "tags" = some v ∧
      (Mapper.ofHandle h).toDoc (.object source) = .ok doc ∧
      ∃ selector coded, (build h (.object [("tags", v)])).outcome = .ok selector ∧
        Json.encodeFields selector = .ok coded ∧ ∀ search, meets search coded doc = true := by
  intro h v source doc
  have flat : v.Flat := ⟨trivial, ⟨trivial, trivial, trivial⟩, trivial⟩
  have distinct : (Entries.keys source).Nodup := by decide
  refine ⟨flat, distinct, rfl, rfl, ?_⟩
  have marked : h.mark? = some "kind" := rfl
  exact (build_finds h rfl marked (by decide) (by decide) (by decide) (by decide) (by decide)
    (by decide) (by decide) flat rfl (fun same => absurd same (by decide)) distinct rfl rfl).2 rfl

/-- A truth value that is an id is written as text and looked for as a truth value. -/
theorem build_misses_truth :
    let h : Handle := ⟨⟨"Customer", [], [], .default⟩, "shop", some "kind", none⟩
    let doc : Fields := [("_id", .str "True"), ("kind", .str "Customer")]
    (Mapper.ofHandle h).toDoc (.object [("id", .bool true)]) = .ok doc ∧
      ∃ selector, (build h (.object [("id", .bool true)])).outcome = .ok selector ∧
        Json.encodeFields selector = .ok selector ∧
        ∀ search, meets search selector doc = false :=
  ⟨rfl, [("kind", .str "Customer"), ("_id", .bool true)], rfl, rfl, fun _ => rfl⟩

end Selector

end ModelStore
