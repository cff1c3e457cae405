import ModelStore.Proofs.Selector.Retrieval

/-! Picking out a document by its id. The id stands in a filter under the id property, and a
filter is read: an object there names operators, and a property that is called like a junction
takes a list for branches. An id that is neither is compared with the ids of the documents, as
text, and can only be met by the document of which it is the text. -/

namespace ModelStore

/-- Whether a value is read as operators where it stands under a field. -/
def Value.namesOperators : Value → Bool
  | .object fields => fields.any fun e => e.1 ≠ optionsKey
  | _ => false

/-- Whether an id is compared where it stands under the id property, and not read as a part of the
filter. -/
def Handle.Compares (h : Handle) (id : Value) : Prop :=
  if (Junction.ofName? h.idName).isSome then id.items? = none else id.namesOperators = false

namespace Selector

variable {h : Handle} {id : Value} {selector : Fields}

theorem parse_literal {conditions : List Condition} (plain : id.namesOperators = false)
    (parsed : Condition.parse id = .ok conditions) : conditions = [.literal id] := by
  cases id with
  | object fields =>
    have none_ : (fields.filter fun e => e.1 ≠ optionsKey) = [] := by
      rw [List.filter_eq_nil_iff]
      exact List.any_eq_false.1 plain
    obtain ⟨options, -, same⟩ := Except.map_eq_ok.1 parsed
    rw [none_] at same
    exact same.symm
  | _ =>
    cases parsed
    rfl

theorem parse_id {tree : Filter} (compares : h.Compares id)
    (parsed : Filter.parse (.object [(h.idName, id)]) = .ok tree) :
    tree = [.field h.idName (.literal id)] ∧ id.namesOperators = false := by
  rw [Filter.parse, Filter.parseEntries] at parsed
  cases name : Junction.ofName? h.idName with
  | some j =>
    have unlisted : id.items? = none := by simpa [Handle.Compares, name] using compares
    rw [name] at parsed
    obtain ⟨branches, listed, -⟩ := Except.bind_eq_ok.1 parsed
    cases id with
    | array items => cases unlisted
    | tuple items => cases unlisted
    | _ => cases listed
  | none =>
    have plain : id.namesOperators = false := by simpa [Handle.Compares, name] using compares
    rw [name] at parsed
    obtain ⟨conditions, literal, rest⟩ := Except.bind_eq_ok.1 parsed
    rw [parse_literal plain literal] at rest
    cases rest
    exact ⟨rfl, plain⟩

theorem compile_id {compiled : Fields}
    (made : (compile h.definition [.field h.idName (.literal id)]).outcome = .ok compiled) :
    compiled = [(idKey, idOperand id)] := by
  obtain ⟨e, first, rfl⟩ := compile_single.1 made
  have here : (entry h.definition (.field h.idName (.literal id))).outcome =
      .ok (idKey, idOperand id) := by
    have own : h.idName = h.definition.idName := rfl
    rw [entry, addressed, if_pos own]
    exact congrArg Except.ok (slot_undotted (by decide) _)
  rw [here] at first
  cases first
  rfl

theorem meets_operand {coded doc : Fields} {search : Search} (compares : h.Compares id)
    (built : (build h (.object [(h.idName, id)])).outcome = .ok selector)
    (form : Json.encodeFields selector = .ok coded) (met : meets search coded doc = true) :
    id.namesOperators = false ∧
      ∃ w, Json.encode (idOperand id) = .ok w ∧ meets search [(idKey, w)] doc = true := by
  have single : ∀ selector' : Fields, Json.encodeFields [(idKey, idOperand id)] = .ok selector' →
      meets search selector' doc = true →
      ∃ w, Json.encode (idOperand id) = .ok w ∧ meets search [(idKey, w)] doc = true := by
    intro selector' form' met'
    obtain ⟨w, _, operand, rest, rfl⟩ := Json.encodeFields_cons.1 form'
    cases rest
    exact ⟨w, operand, met'⟩
  unfold build at built
  cases parsed : Filter.parse (.object [(h.idName, id)]) with
  | error e =>
    rw [parsed] at built
    cases built
  | ok tree =>
    rw [parsed] at built
    obtain ⟨rfl, plain⟩ := parse_id compares parsed
    refine ⟨plain, ?_⟩
    obtain ⟨compiled, made, constrained⟩ := Noted.bind_eq_ok.1 built
    cases compile_id made
    have unguarded : ∀ searching, guarded searching [(idKey, idOperand id)] =
        [(idKey, idOperand id)] := by
      intro searching
      have present : Entries.has [(idKey, idOperand id)] idKey = true := rfl
      rw [guarded, present]
      simp
    rw [unguarded] at constrained
    cases base : base? h with
    | none =>
      rw [base] at constrained
      cases constrained
      exact single coded form met
    | some base =>
      rw [base] at constrained
      cases constrained
      obtain ⟨_, selector', -, right, means⟩ := encode_constrain form
      exact single selector' right ((means search doc).1 met).2

theorem text_of_idOperand {text : String} (operand : idOperand id = .str text) :
    text = id.text := by
  cases id with
  | scalar s =>
    cases s with
    | null => cases operand
    | bool b => cases operand
    | pattern p => cases operand
    | _ =>
      cases operand
      rfl
  | array items => cases operand
  | tuple items => cases operand
  | object fields => cases operand
  | _ =>
    cases operand
    rfl

theorem eq_of_same_text {w : Value} {text : String} (same : (Value.str text).same w = true) :
    w = .str text := by
  cases w with
  | scalar s => cases s <;> simp_all [Value.same, Scalar.same, Scalar.quantity?]
  | _ => simp [Value.same] at same

theorem not_holds_object {search : Search} {key text : String} {fields : Fields} {v : Option Value}
    (field : isOperator key = false) (stands : v.bind (fieldAt key) = some (.str text))
    (plain : ∀ name ∈ Entries.keys fields, isOperator name = false) :
    holds search true key (.object fields) v = false := by
  cases fields with
  | nil =>
    have other : key ≠ elemKey := by
      rintro rfl
      cases field
    rw [holds, if_pos rfl, ofKey?_of_not_operator field]
    simp [other, field, stands, Value.same]
  | cons e rest =>
    have first : isOperator e.1 = false := plain e.1 List.mem_cons_self
    rw [holds_field field rfl, stands]
    simp [first, isObject]

/-- A document that is found by an id that is compared has the text of that id for its own. -/
theorem id_of_build {coded doc : Fields} {search : Search} {text : String}
    (compares : h.Compares id)
    (built : (build h (.object [(h.idName, id)])).outcome = .ok selector)
    (form : Json.encodeFields selector = .ok coded) (met : meets search coded doc = true)
    (stored : Entries.get? doc idKey = some (.str text)) : text = id.text := by
  obtain ⟨plain, w, operand, met⟩ := meets_operand compares built form met
  have stands : (some (Value.object doc)).bind (fieldAt idKey) = some (.str text) := by
    rw [Option.bind_some, fieldAt_eq_get? (by decide)]
    exact stored
  rw [meets_single] at met
  cases leaf : isObject w with
  | false =>
    rw [holds_literal (by decide) leaf, stands, Option.any_some] at met
    rw [eq_of_same_text met] at operand
    exact text_of_idOperand (Json.eq_str_of_encode operand)
  | true =>
    have object : isObject id = true := by
      cases other : isObject id with
      | true => rfl
      | false =>
        rw [← isObject_idOperand] at other
        rw [Value.isObject_encode other operand] at leaf
        cases leaf
    cases id with
    | object names =>
      obtain ⟨fields, coded', rfl⟩ := Except.map_eq_ok.1 operand
      have unnamed : ∀ name ∈ Entries.keys fields, isOperator name = false := by
        intro name mem
        rw [Json.keys_encodeFields coded'] at mem
        obtain ⟨e, member, rfl⟩ := List.mem_map.1 mem
        have own : e.1 = optionsKey := by simpa using List.any_eq_false.1 plain e member
        rw [own]
        decide
      rw [not_holds_object (by decide) stands unnamed] at met
      cases met
    | _ => cases object

end Selector

end ModelStore
