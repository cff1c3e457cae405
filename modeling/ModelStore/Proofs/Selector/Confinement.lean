import ModelStore.Proofs.Json.Encoding
import ModelStore.Proofs.Selector.Meaning

/-! The constraint to a model, whatever filter stands beside it. The keys of a filter are up to
its caller and may be those of the constraint. The selector is a table all the same, in
which neither is written over the other; it asks for both, and of a document with an id
it asks for nothing else. -/

namespace ModelStore

/-- What picks out the documents of a model: a selector of its own, or else the model's name
under the discriminator. -/
inductive Handle.Constrains (h : Handle) : Fields → Prop where
  | selector {base : Fields} (own : h.modelSelector = some base) : Constrains h base
  | discriminator {mark : String} (plain : h.modelSelector = none)
      (given : h.discriminator = some mark) (named : mark ≠ "") :
      Constrains h [(mark, .str h.name)]

namespace Selector

variable {h : Handle} {d : ModelDefinition} {base selector : Fields}

theorem base?_of_constrains (constrains : h.Constrains base) : base? h = some base := by
  cases constrains with
  | selector own => rw [base?, own]
  | @discriminator mark plain given named =>
    have marked : h.mark? = some mark := by simp [Handle.mark?, given, named]
    exact base?_of_mark plain marked

theorem constrains_of_base? (given : base? h = some base) : h.Constrains base := by
  unfold base? at given
  split at given
  · rename_i own
    cases given
    exact .selector own
  · rename_i own
    obtain ⟨mark, marked, rfl⟩ := Option.map_eq_some_iff.1 given
    obtain ⟨given, named⟩ := Option.filter_eq_some_iff.1 marked
    exact .discriminator own given (of_decide_eq_true named)

theorem compile_keyed {branch : Filter} (keyed : Filter.Keyed branch)
    (compiled : (compile d branch).outcome = .ok selector) : (Value.object selector).Keyed := by
  obtain ⟨es, each, rfl⟩ := compile_ok_iff.1 compiled
  have entries : Value.FieldsKeyed es := Value.fieldsKeyed_iff.2 (entries_keyed branch keyed each)
  exact keyed_mergeAll es entries (Value.keyed_object.2 (by simp [Entries.keys]))

theorem guarded_keyed (searching : Bool) (keyed : (Value.object selector).Keyed) :
    (Value.object (guarded searching selector)).Keyed := by
  unfold guarded
  split
  · exact keyed.set (Value.keyed_single.2 trivial)
  · exact keyed

theorem constrain_keyed (table : (Value.object base).Keyed)
    (keyed : (Value.object selector).Keyed) : (Value.object (constrain base selector)).Keyed := by
  unfold constrain
  split
  · refine Value.keyed_single.2 (Value.keyed_array.2 ?_)
    exact List.forall_mem_cons.2 ⟨table, List.forall_mem_cons.2 ⟨keyed, by simp⟩⟩
  · rename_i apart
    obtain ⟨distinct, each⟩ := Value.keyed_object.1 table
    obtain ⟨distinct', each'⟩ := Value.keyed_object.1 keyed
    have disjoint : ∀ key ∈ Entries.keys base, key ∉ Entries.keys selector := by
      intro key mem
      obtain ⟨e, member, rfl⟩ := List.mem_map.1 mem
      have free : Entries.has selector e.1 = false := by
        rw [Bool.not_eq_true, List.any_eq_false] at apart
        simpa using apart e member
      rwa [Entries.has, Option.isSome_eq_false_iff, Option.isNone_iff_eq_none,
        Entries.get?_eq_none] at free
    rw [Value.keyed_object, Entries.keys, List.map_append, List.nodup_append]
    refine ⟨⟨distinct, distinct', ?_⟩, fun e mem => ?_⟩
    · rintro key mem _ mem' rfl
      exact disjoint key mem mem'
    · exact (List.mem_append.1 mem).elim (each e) (each' e)

theorem encode_constrain {coded : Fields}
    (form : Json.encodeFields (constrain base selector) = .ok coded) :
    ∃ base' selector', Json.encodeFields base = .ok base' ∧
      Json.encodeFields selector = .ok selector' ∧ ∀ search doc,
        (meets search coded doc = true ↔
          meets search base' doc = true ∧ meets search selector' doc = true) := by
  unfold constrain at form
  split at form
  · obtain ⟨_, _, joined, rest, rfl⟩ := Json.encodeFields_cons.1 form
    cases rest
    obtain ⟨items, list, rfl⟩ := Except.map_eq_ok.1 joined
    obtain ⟨_, _, first, others, rfl⟩ := Json.encodeItems_cons.1 list
    obtain ⟨_, _, second, rest, rfl⟩ := Json.encodeItems_cons.1 others
    cases rest
    obtain ⟨base', left, rfl⟩ := Except.map_eq_ok.1 first
    obtain ⟨selector', right, rfl⟩ := Except.map_eq_ok.1 second
    exact ⟨base', selector', left, right, fun search doc => meets_and base' selector' doc⟩
  · obtain ⟨base', selector', left, right, rfl⟩ := Json.encodeFields_append form
    exact ⟨base', selector', left, right, fun search doc => meets_append base' selector' doc⟩

/-- A filter becomes a selector exactly if it can be read and its clauses can be compiled. -/
theorem build_ok_iff (constrains : h.Constrains base) {raw : Value} :
    (build h raw).outcome = .ok selector ↔
      ∃ tree compiled, Filter.parse raw = .ok tree ∧
        (compile h.definition tree).outcome = .ok compiled ∧
        selector = constrain base (guarded (searches tree) compiled) := by
  unfold build
  cases accepted : Filter.parse raw with
  | error e =>
    constructor
    · intro built
      cases built
    · rintro ⟨tree, compiled, same, -⟩
      cases same
  | ok tree =>
    have built : (ofFilter h tree).outcome = .ok selector ↔
        ∃ compiled, (compile h.definition tree).outcome = .ok compiled ∧
          constrain base (guarded (searches tree) compiled) = selector := by
      rw [ofFilter, Noted.bind_eq_ok, base?_of_constrains constrains]
      simp
    constructor
    · intro made
      obtain ⟨compiled, alone, same⟩ := built.1 made
      exact ⟨tree, compiled, rfl, alone, same.symm⟩
    · rintro ⟨_, compiled, ⟨⟩, alone, same⟩
      exact built.2 ⟨compiled, alone, same.symm⟩

/-- The selector of a filter is met by what meets the constraint, if there is one, and the filter
alone. -/
theorem exists_build {raw : Value} {tree : Filter} {compiled : Fields}
    (accepted : Filter.parse raw = .ok tree)
    (alone : (compile h.definition tree).outcome = .ok compiled) :
    ∃ selector, (build h raw).outcome = .ok selector ∧ ∀ search doc,
      (meets search selector doc = true ↔
        (∀ base, h.Constrains base → meets search base doc = true) ∧
          meets search (guarded (searches tree) compiled) doc = true) := by
  rw [build, accepted]
  cases given : base? h with
  | none =>
    refine ⟨_, Noted.bind_eq_ok.2 ⟨compiled, alone, by rw [given]; rfl⟩, fun search doc => ?_⟩
    refine (and_iff_right fun base constrains => ?_).symm
    cases given.symm.trans (base?_of_constrains constrains)
  | some base =>
    refine ⟨_, Noted.bind_eq_ok.2 ⟨compiled, alone, by rw [given]; rfl⟩, fun search doc => ?_⟩
    rw [meets_constrain]
    refine and_congr_left fun _ => ⟨fun met other constrains => ?_, fun each => ?_⟩
    · cases given.symm.trans (base?_of_constrains constrains)
      exact met
    · exact each base (constrains_of_base? given)

theorem parse_single_literal {path : String} {v : Value} (name : Junction.ofName? path = none)
    (leaf : isObject v = false) :
    Filter.parse (.object [(path, v)]) = .ok [.field path (.literal v)] := by
  have literal : Condition.parse v = .ok [.literal v] := by
    cases v with
    | object fields => cases leaf
    | _ => rfl
  rw [Filter.parse, Filter.parseEntries, name]
  simp only [literal, Filter.parseEntries]
  rfl

theorem searches_literal {path : String} {v : Value} (leaf : isObject v = false) :
    searches [.field path (.literal v)] = false := by
  cases v with
  | object fields => cases leaf
  | _ => rfl

/-- What a model's selector asks for, as it is sent, carries the mark of the model, if the mark
is read as the name of a field. -/
theorem carries_of_build {mark : String} (own : h.modelSelector = none)
    (marked : h.mark? = some mark) (undotted : isDotted mark = false)
    (field : isOperator mark = false) {raw : Value} {coded : Fields}
    (built : (build h raw).outcome = .ok selector)
    (form : Json.encodeFields selector = .ok coded) {search : Search} {doc : Fields}
    (met : meets search coded doc = true) : Entries.get? doc mark = some (.str h.name) := by
  obtain ⟨given, named⟩ := Option.filter_eq_some_iff.1 marked
  have constrains : h.Constrains [(mark, .str h.name)] :=
    .discriminator own given (by simpa using named)
  obtain ⟨tree, compiled, -, -, rfl⟩ := (build_ok_iff constrains).1 built
  obtain ⟨base', selector', left, -, means⟩ := encode_constrain form
  cases left
  have carried := ((means search doc).1 met).1
  rw [meets_single, carries_iff field,
    fieldAt_eq_get? (isDotted_iff.1 undotted)] at carried
  exact carried

/-- A dotted mark leads down into objects, past the field of that name. -/
example : meets (fun _ _ => false) [("a.b", .str "Customer")]
    [("a", .object [("b", .str "Customer")]), ("a.b", .str "Order")] = true := by
  rfl

/-- The constraint refuses no filter. What is built from a filter is a table, and it is met by
the documents that meet both the constraint and the filter alone. -/
theorem build_confines (h : Handle) (constrains : h.Constrains base)
    (table : (Value.object base).Keyed) {raw : Value} (keyed : raw.Keyed) :
    ((∃ selector, (build h raw).outcome = .ok selector) ↔
      ∃ tree compiled, Filter.parse raw = .ok tree ∧
        (compile h.definition tree).outcome = .ok compiled) ∧
    ∀ selector tree compiled, (build h raw).outcome = .ok selector →
      Filter.parse raw = .ok tree → (compile h.definition tree).outcome = .ok compiled →
      (Value.object selector).Keyed ∧
        ∀ search doc id, Entries.get? doc idKey = some (.str id) →
          (meets search selector doc = true ↔
            meets search base doc = true ∧ meets search compiled doc = true) := by
  constructor
  · constructor
    · rintro ⟨selector, built⟩
      obtain ⟨tree, compiled, accepted, alone, -⟩ := (build_ok_iff constrains).1 built
      exact ⟨tree, compiled, accepted, alone⟩
    · rintro ⟨tree, compiled, accepted, alone⟩
      exact ⟨_, (build_ok_iff constrains).2 ⟨tree, compiled, accepted, alone, rfl⟩⟩
  · intro selector tree compiled built accepted alone
    obtain ⟨tree', compiled', accepted', alone', rfl⟩ := (build_ok_iff constrains).1 built
    cases accepted.symm.trans accepted'
    cases alone.symm.trans alone'
    have whole : (Value.object compiled).Keyed :=
      compile_keyed (Filter.parse_keyed raw keyed accepted) alone
    refine ⟨constrain_keyed table (guarded_keyed _ whole), fun search doc id stored => ?_⟩
    rw [meets_constrain, meets_guarded _ _ stored]

/-- A filter that names the keys of the model's own selector, and `$or`, and searches by a
pattern besides. -/
theorem build_confines_collision :
    let base : Fields := [("kind", .str "vip"), ("$or", .array [.object [("age", .int 7)]])]
    let h : Handle := ⟨⟨"Customer", [], [], .default⟩, "shop", none, some base⟩
    let any : Value := .array [.object [("age", .int 9)]]
    let raw : Value := .object [("kind", .str "none"), ("$or", any),
      ("name", .object [("like", .str "x")])]
    let compiled : Fields := [("kind", .str "none"), ("$or", any),
      ("name", .object [("$regex", .str "x")])]
    h.Constrains base ∧ (Value.object base).Keyed ∧ raw.Keyed ∧
      ∃ selector, (build h raw).outcome = .ok selector ∧ (Value.object selector).Keyed ∧
        ∀ search doc id, Entries.get? doc idKey = some (.str id) →
          (meets search selector doc = true ↔
            meets search base doc = true ∧ meets search compiled doc = true) := by
  intro base h any raw compiled
  have constrains : h.Constrains base := .selector rfl
  have table : (Value.object base).Keyed := by
    simp [base, Value.Keyed, Value.AllKeyed, Value.FieldsKeyed, Entries.keys]
  have keyed : raw.Keyed := by
    simp [raw, any, Value.Keyed, Value.AllKeyed, Value.FieldsKeyed, Entries.keys]
  obtain ⟨accepts, means⟩ := build_confines h constrains table keyed
  obtain ⟨selector, built⟩ := accepts.2 ⟨_, compiled, rfl, rfl⟩
  exact ⟨constrains, table, keyed, selector, built, means selector _ compiled built rfl rfl⟩

end Selector

end ModelStore
