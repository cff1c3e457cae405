import Mathlib.Data.List.Basic
import ModelStore.Proofs.Filter.Grammar
import ModelStore.Proofs.Selector.Confinement

/-! The condition on `_id` that guards a search by pattern. It is there exactly if some operator of
the filter, at any depth, becomes a pattern and no clause at the top asks for `_id` itself; what
such clauses ask for is left as it is. So it is beside the constraint to the model and within
the conjunction with it alike. -/

namespace ModelStore

def Operator.patternNames : List String := ["like", "nlike", "regexp", "regex", "$regex"]

def Condition.UsesPattern : Condition → Prop
  | literal _ => False
  | operator name _ _ => name ∈ Operator.patternNames

/-- Whether a clause, or one below it, uses an operator that becomes a pattern. -/
inductive Clause.UsesPattern : Clause → Prop where
  | field {path : String} {c : Condition} (uses : c.UsesPattern) : UsesPattern (.field path c)
  | inside {op : Junction} {branches : List (List Clause)} {branch : List Clause} {clause : Clause}
      (one : branch ∈ branches) (mem : clause ∈ branch) (uses : UsesPattern clause) :
      UsesPattern (.logical op branches)

theorem Clause.usesPattern_field {path : String} {c : Condition} :
    (field path c).UsesPattern ↔ c.UsesPattern := by
  constructor
  · rintro ⟨uses⟩
    exact uses
  · exact .field

theorem Clause.usesPattern_logical {op : Junction} {branches : List (List Clause)} :
    (logical op branches).UsesPattern ↔
      ∃ branch ∈ branches, ∃ clause ∈ branch, clause.UsesPattern := by
  constructor
  · rintro (_ | ⟨one, mem, uses⟩)
    exact ⟨_, one, _, mem, uses⟩
  · rintro ⟨branch, one, clause, mem, uses⟩
    exact .inside one mem uses

theorem Clause.exists_usesPattern_append {first second : Filter} :
    (∃ clause ∈ first ++ second, clause.UsesPattern) ↔
      (∃ clause ∈ first, clause.UsesPattern) ∨ ∃ clause ∈ second, clause.UsesPattern := by
  simp only [List.mem_append, or_and_right, exists_or]

theorem Operator.dollar_eq_regexKey {name : String} :
    dollar name = regexKey ↔ name = "regex" ∨ name = "$regex" := by
  unfold dollar
  split
  · rename_i rest chars
    constructor
    · exact .inr
    · rintro (rfl | same)
      · cases chars
      · exact same
  · rename_i chars
    constructor
    · intro same
      have same : "$" ++ name = "$" ++ "regex" := same
      exact .inl ((String.append_right_inj "$").1 same)
    · rintro (rfl | rfl)
      · rfl
      · exact absurd rfl (chars _)

theorem Condition.searches_operator {name : String} {v : Value} {options : Option String} :
    (operator name v options).searches = true ↔ (operator name v options).UsesPattern := by
  simp only [searches, UsesPattern, Bool.or_eq_true, beq_iff_eq, Operator.dollar_eq_regexKey,
    Operator.isPattern, Operator.patternNames, decide_eq_true_eq, List.mem_cons, List.not_mem_nil,
    or_false, or_assoc]

theorem Condition.Reads.searches_iff {v : Value} {conditions : List Condition}
    (reads : Reads v conditions) {c : Condition} (mem : c ∈ conditions) :
    c.searches = true ↔ c.UsesPattern := by
  cases reads with
  | literal plain =>
    cases List.mem_singleton.1 mem
    cases v with
    | object fields => cases plain
    | _ => simp [searches, UsesPattern, Value.get?]
  | @bare fields fit none_ =>
    cases List.mem_singleton.1 mem
    have absent : Entries.get? fields Operator.regexKey = none := by
      rw [Entries.get?_eq_none, Entries.mem_keys]
      rintro ⟨w, mem⟩
      have same : Operator.regexKey = optionsKey := none_ _ mem
      exact absurd same (by decide)
    simp [searches, UsesPattern, Value.get?, absent]
  | operators fit some_ =>
    obtain ⟨e, -, rfl⟩ := List.mem_map.1 mem
    exact searches_operator

namespace Selector

theorem searches_append (first second : Filter) :
    searches (first ++ second) = (searches first || searches second) := by
  induction first with
  | nil => rfl
  | cons clause rest ih => rw [List.cons_append, searches, searches, ih, Bool.or_assoc]

theorem searches_fields {key : String} {conditions : List Condition}
    (each : ∀ c ∈ conditions, c.searches = true ↔ c.UsesPattern) :
    searches (conditions.map (.field key)) = true ↔
      ∃ clause ∈ conditions.map (Clause.field key), clause.UsesPattern := by
  induction conditions with
  | nil => simp [searches]
  | cons c rest ih =>
    obtain ⟨here, others⟩ := List.forall_mem_cons.1 each
    rw [List.map_cons, searches, Bool.or_eq_true, clauseSearches, here, ih others,
      ← @Clause.usesPattern_field key, List.exists_mem_cons_iff]

end Selector

namespace Filter

open Selector

mutual

theorem Reads.searches_iff {v : Value} {tree : Filter} :
    Reads v tree → (searches tree = true ↔ ∃ clause ∈ tree, clause.UsesPattern)
  | .nothing => by simp [searches]
  | .object entries => entries.searches_iff

theorem ReadsEntries.searches_iff {fields : Fields} {clauses : Filter} :
    ReadsEntries fields clauses → (searches clauses = true ↔ ∃ clause ∈ clauses, clause.UsesPattern)
  | .nil => by simp [searches]
  | @ReadsEntries.logical op v items branches rest clauses list each others => by
    rw [searches, Bool.or_eq_true, clauseSearches, each.anySearches_iff,
      ← @Clause.usesPattern_logical op, others.searches_iff, List.exists_mem_cons_iff]
  | @ReadsEntries.field key v conditions rest clauses named states others => by
    rw [searches_append, Bool.or_eq_true, searches_fields fun c mem => states.searches_iff mem,
      others.searches_iff, Clause.exists_usesPattern_append]

theorem ReadsAll.anySearches_iff {items : List Value} {branches : List Filter} :
    ReadsAll items branches → (anySearches branches = true ↔
      ∃ branch ∈ branches, ∃ clause ∈ branch, clause.UsesPattern)
  | .nil => by simp [anySearches]
  | .cons first others => by
    rw [anySearches, Bool.or_eq_true, first.searches_iff, others.anySearches_iff,
      List.exists_mem_cons_iff]

end

end Filter

namespace Selector

variable {h : Handle} {d : ModelDefinition} {key : String}

def compilesTo (d : ModelDefinition) (key : String) (clause : Clause) : Bool :=
  match (compile d [clause]).outcome with
  | .ok part => Entries.has part key
  | .error _ => false

theorem compilesTo_iff {clause : Clause} {e : String × Value}
    (compiled : (entry d clause).outcome = .ok e) :
    compilesTo d key clause = true ↔ e.1 = key := by
  obtain ⟨k, v⟩ := e
  rw [compilesTo, compile_single.2 ⟨_, compiled, rfl⟩]
  by_cases same : k = key <;> simp [Entries.has, Entries.get?_cons, same]

theorem entries_filter {branch : Filter} {es : List (String × Value)}
    (compiled : (entries d branch).outcome = .ok es) (key : String) :
    (entries d (branch.filter (compilesTo d key))).outcome =
      .ok (es.filter fun e => e.1 = key) := by
  induction branch generalizing es with
  | nil =>
    cases compiled
    rfl
  | cons clause rest ih =>
    obtain ⟨e, others, first, second, rfl⟩ := entries_cons_ok.1 compiled
    by_cases same : e.1 = key
    · have kept : compilesTo d key clause = true := (compilesTo_iff first).2 same
      rw [List.filter_cons_of_pos kept, List.filter_cons_of_pos (by simpa using same)]
      exact entries_cons_ok.2 ⟨e, _, first, ih second, rfl⟩
    · have dropped : ¬compilesTo d key clause = true := mt (compilesTo_iff first).1 same
      rw [List.filter_cons_of_neg dropped, List.filter_cons_of_neg (by simpa using same)]
      exact ih second

theorem get?_mergeAll_filter {target target' : Fields}
    (same : Entries.get? target key = Entries.get? target' key) (es : List (String × Value)) :
    Entries.get? (mergeAll target es) key =
      Entries.get? (mergeAll target' (es.filter fun e => e.1 = key)) key := by
  induction es generalizing target target' with
  | nil => exact same
  | cons e rest ih =>
    obtain ⟨k, v⟩ := e
    by_cases here : k = key
    · subst here
      rw [List.filter_cons_of_pos (by simp), mergeAll, mergeAll]
      exact ih (by rw [get?_mergeAt_self, get?_mergeAt_self, same])
    · rw [List.filter_cons_of_neg (by simpa using here), mergeAll]
      exact ih (by rw [get?_mergeAt_ne _ _ here, same])

theorem mergeAll_of_key {v : Value} {es : List (String × Value)} (under : ∀ e ∈ es, e.1 = key) :
    ∃ w, mergeAll [(key, v)] es = [(key, w)] := by
  induction es generalizing v with
  | nil => exact ⟨v, rfl⟩
  | cons e rest ih =>
    obtain ⟨k, u⟩ := e
    obtain ⟨rfl, under⟩ := List.forall_mem_cons.1 under
    rw [mergeAll, mergeAt_eq]
    simpa [Entries.set] using ih under

/-- Where some clauses compile to a key, what stands under it is what they alone compile to. -/
theorem get?_compile {branch : Filter} {whole : Fields}
    (compiled : (compile d branch).outcome = .ok whole) (key : String) :
    (branch.filter (compilesTo d key) = [] ∧ Entries.get? whole key = none) ∨
      branch.filter (compilesTo d key) ≠ [] ∧ ∃ v, Entries.get? whole key = some v ∧
        (compile d (branch.filter (compilesTo d key))).outcome = .ok [(key, v)] := by
  obtain ⟨es, each, rfl⟩ := compile_ok_iff.1 compiled
  have some_ := entries_filter each key
  have under : ∀ e ∈ es.filter fun e => e.1 = key, e.1 = key := by simp
  rw [get?_mergeAll_filter rfl es]
  cases named : branch.filter (compilesTo d key) with
  | nil =>
    rw [named] at some_
    have none_ : [] = es.filter fun e => e.1 = key := Except.ok.inj some_
    exact .inl ⟨rfl, by rw [← none_]; rfl⟩
  | cons clause rest =>
    rw [named] at some_
    obtain ⟨⟨k, u⟩, others, -, -, same⟩ := entries_cons_ok.1 some_
    rw [same] at under some_ ⊢
    obtain ⟨rfl, there⟩ := List.forall_mem_cons.1 under
    obtain ⟨v, merged_⟩ : ∃ v, mergeAll [] ((k, u) :: others) = [(k, v)] := by
      rw [mergeAll, mergeAt_eq, Entries.get?_nil, merged_none]
      exact mergeAll_of_key there
    refine .inr ⟨by simp, v, ?_, compile_ok_iff.2 ⟨_, some_, merged_.symm⟩⟩
    rw [merged_, Entries.get?_cons, if_pos rfl]

/-- The clauses at the top of a filter that compile to the id of a document. -/
def idClauses (d : ModelDefinition) (tree : Filter) : Filter := tree.filter (compilesTo d idKey)

theorem get?_guarded_of_some {searching : Bool} {fields : Fields} {v : Value}
    (own : Entries.get? fields idKey = some v) :
    Entries.get? (guarded searching fields) idKey = some v := by
  have there : Entries.has fields idKey = true := by rw [Entries.has, own, Option.isSome_some]
  rw [guarded, there]
  simpa using own

theorem get?_guarded_of_none {searching : Bool} {fields : Fields}
    (free : Entries.get? fields idKey = none) :
    Entries.get? (guarded searching fields) idKey =
      if searching then some (.object [("$gt", .null)]) else none := by
  have absent : Entries.has fields idKey = false := by rw [Entries.has, free, Option.isSome_none]
  rw [guarded, absent]
  cases searching <;> simp [free]

end Selector

/-- How a selector is made of the constraint to a model, if there is one, and a part beside it. -/
inductive Handle.Frames (h : Handle) (part : Fields) : Fields → Prop where
  | free (free : ∀ base, ¬h.Constrains base) : Frames h part part
  | beside {base : Fields} (constrains : h.Constrains base)
      (apart : ∀ key ∈ Entries.keys base, key ∉ Entries.keys part) : Frames h part (base ++ part)
  | joined {base : Fields} (constrains : h.Constrains base)
      (shared : ∃ key ∈ Entries.keys base, key ∈ Entries.keys part) :
      Frames h part [("$and", .array [.object base, .object part])]

namespace Handle

variable {h : Handle}

theorem Constrains.unique {base other : Fields} (constrains : h.Constrains base)
    (constrains' : h.Constrains other) : base = other :=
  Option.some.inj ((Selector.base?_of_constrains constrains).symm.trans
    (Selector.base?_of_constrains constrains'))

theorem append_ne_joined {base part other : Fields} (some_ : base ≠ []) :
    base ++ part ≠ [("$and", .array [.object base, .object other])] := by
  intro same
  cases base with
  | nil => exact some_ rfl
  | cons e rest =>
    have within : e = ("$and", .array [.object (e :: rest), .object other]) :=
      (List.cons.inj same).1
    have size := congrArg sizeOf within
    simp only [Prod.mk.sizeOf_spec, Value.array.sizeOf_spec, List.cons.sizeOf_spec,
      Value.object.sizeOf_spec] at size
    omega

theorem Frames.unique {part other selector : Fields} (frames : h.Frames part selector)
    (frames' : h.Frames other selector) : part = other := by
  have filled {base part : Fields}
      (shared : ∃ key ∈ Entries.keys base, key ∈ Entries.keys part) : base ≠ [] := by
    rintro rfl
    obtain ⟨key, mem, -⟩ := shared
    cases mem
  cases frames with
  | free free =>
    cases frames' with
    | free => rfl
    | beside constrains => exact absurd constrains (free _)
    | joined constrains => exact absurd constrains (free _)
  | @beside base constrains apart =>
    generalize selected : base ++ part = selector at frames'
    cases frames' with
    | free free => exact absurd constrains (free _)
    | beside constrains' =>
      cases constrains.unique constrains'
      exact List.append_cancel_left selected
    | joined constrains' shared =>
      cases constrains.unique constrains'
      exact absurd selected (append_ne_joined (filled shared))
  | @joined base constrains shared =>
    generalize selected : [("$and", Value.array [.object base, .object part])] = selector at frames'
    cases frames' with
    | free free => exact absurd constrains (free _)
    | beside constrains' =>
      cases constrains.unique constrains'
      exact absurd selected.symm (append_ne_joined (filled shared))
    | joined constrains' =>
      cases selected
      rfl

end Handle

namespace Selector

variable {h : Handle}

theorem frames_constrain {base : Fields} (constrains : h.Constrains base) (part : Fields) :
    h.Frames part (constrain base part) := by
  have present {key : String} : Entries.has part key = true ↔ key ∈ Entries.keys part := by
    rw [Entries.has, Option.isSome_iff_ne_none, Ne, Entries.get?_eq_none, Decidable.not_not]
  unfold constrain
  split
  · rename_i shared
    obtain ⟨e, mem, there⟩ := List.any_eq_true.1 shared
    exact .joined constrains ⟨e.1, List.mem_map_of_mem mem, present.1 there⟩
  · rename_i apart
    refine .beside constrains fun key mem there => ?_
    obtain ⟨v, entry⟩ := Entries.mem_keys.1 mem
    exact apart (List.any_eq_true.2 ⟨(key, v), entry, present.2 there⟩)

/-- What is built from a filter frames what the filter alone compiles to, with its guard. -/
theorem frames_of_build {raw : Value} {selector : Fields}
    (built : (build h raw).outcome = .ok selector) :
    ∃ tree compiled, Filter.parse raw = .ok tree ∧
      (compile h.definition tree).outcome = .ok compiled ∧
      h.Frames (guarded (searches tree) compiled) selector := by
  unfold build at built
  cases accepted : Filter.parse raw with
  | error e =>
    rw [accepted] at built
    cases built
  | ok tree =>
    rw [accepted] at built
    obtain ⟨compiled, alone, made⟩ := Noted.bind_eq_ok.1 built
    refine ⟨tree, compiled, rfl, alone, ?_⟩
    cases given : base? h with
    | none =>
      rw [given] at made
      cases made
      exact .free fun base constrains => by cases given.symm.trans (base?_of_constrains constrains)
    | some base =>
      rw [given] at made
      cases made
      exact frames_constrain (constrains_of_base? given) _

/-- A filter in which some operator becomes a pattern asks for an id at its own top level, in the
words of the clauses that do so or else by the guard, and one without asks for an id only if some
of its clauses do. -/
theorem build_guards (h : Handle) {raw : Value} {selector : Fields}
    (built : (build h raw).outcome = .ok selector) :
    ∃ tree part, Filter.parse raw = .ok tree ∧ (∀ other, h.Frames other selector ↔ other = part) ∧
      ((∃ clause ∈ tree, clause.UsesPattern) →
        (idClauses h.definition tree = [] →
          Entries.get? part idKey = some (.object [("$gt", .null)])) ∧
        (idClauses h.definition tree ≠ [] → ∃ v, Entries.get? part idKey = some v ∧
          (compile h.definition (idClauses h.definition tree)).outcome = .ok [(idKey, v)])) ∧
      ((∀ clause ∈ tree, ¬clause.UsesPattern) → ∀ v, Entries.get? part idKey = some v →
        idClauses h.definition tree ≠ [] ∧
          (compile h.definition (idClauses h.definition tree)).outcome = .ok [(idKey, v)]) := by
  obtain ⟨tree, compiled, accepted, alone, frames⟩ := frames_of_build built
  have searching : searches tree = true ↔ ∃ clause ∈ tree, clause.UsesPattern :=
    (Filter.reads_of_parse accepted).searches_iff
  refine ⟨tree, _, accepted, fun other => ⟨fun other' => other'.unique frames, ?_⟩, ?_⟩
  · rintro rfl
    exact frames
  rcases get?_compile alone idKey with ⟨none_, free⟩ | ⟨some_, v, own, ids⟩
  · rw [get?_guarded_of_none free]
    refine ⟨fun uses => ⟨fun _ => if_pos (searching.2 uses), fun some_ => absurd none_ some_⟩, ?_⟩
    intro plain v present
    have unguarded : ¬searches tree = true := fun searches_ => by
      obtain ⟨clause, mem, uses⟩ := searching.1 searches_
      exact plain clause mem uses
    rw [if_neg unguarded] at present
    cases present
  · rw [get?_guarded_of_some own]
    refine ⟨fun _ => ⟨fun none_ => absurd none_ some_, fun _ => ⟨v, rfl, ids⟩⟩, ?_⟩
    rintro - _ ⟨⟩
    exact ⟨some_, ids⟩

/-- A search below `$or`, in a selector that is joined with the constraint by `$and`. -/
theorem build_guards_joined :
    let h : Handle := ⟨⟨"Customer", [], [], .default⟩, "shop", some "kind", none⟩
    let raw : Value := .object [("kind", .str "none"),
      ("or", .array [.object [("name", .object [("like", .str "x")])]])]
    let selector : Fields := [("$and", .array [.object [("kind", .str "Customer")],
      .object [("kind", .str "none"),
        ("$or", .array [.object [("name", .object [("$regex", .str "x")])]]),
        ("_id", .object [("$gt", .null)])]])]
    (build h raw).outcome = .ok selector ∧ ∃ part, h.Frames part selector ∧
      Entries.get? part idKey = some (.object [("$gt", .null)]) := by
  intro h raw selector
  have built : (build h raw).outcome = .ok selector := rfl
  obtain ⟨tree, part, accepted, frames, guards, -⟩ := build_guards h built
  cases accepted
  have like : Condition.UsesPattern (.operator "like" (.str "x") none) := by
    simp [Condition.UsesPattern, Operator.patternNames]
  have uses : Clause.UsesPattern
      (.logical .or [[.field "name" (.operator "like" (.str "x") none)]]) :=
    .inside List.mem_cons_self List.mem_cons_self (.field like)
  exact ⟨built, part, (frames part).2 rfl,
    (guards ⟨_, List.mem_cons_of_mem _ List.mem_cons_self, uses⟩).1 rfl⟩

end Selector

end ModelStore
