import ModelStore.Proofs.Selector.Agreement
import ModelStore.Proofs.Selector.Compilation

/-! What a filter keeps of its clauses. A document that meets the whole of a branch meets each
of its clauses alone, provided that any two clauses agree on what they have in common; and
the clauses are all still in the selector only if they do. Clauses that disagree lose the
earlier of them: the later operand is written over it. -/

namespace ModelStore.Selector

variable {key : String} {fields : Fields} {search : Search}

theorem holds_joins (h : Junction.ofKey? key = none) (c : Value) (joins : Bool)
    (v : Option Value) : holds search joins key c v = holds search false key c v := by
  cases c <;> simp [holds, h]

theorem holdsAll_joins (plain : ∀ k ∈ Entries.keys fields, Junction.ofKey? k = none)
    (joins : Bool) (v : Option Value) :
    holdsAll search joins fields v = holdsAll search false fields v := by
  induction fields with
  | nil => rfl
  | cons e rest ih =>
    obtain ⟨key, c⟩ := e
    obtain ⟨here, others⟩ := List.forall_mem_cons.1 plain
    rw [holdsAll, holdsAll, ih others, holds_joins here]

theorem isEmpty_of_mem_keys (h : ∃ k, k ∈ Entries.keys fields) : fields.isEmpty = false := by
  cases fields with
  | nil => simp [Entries.keys] at h
  | cons e rest => rfl

theorem AllKept.all_operators {part : Fields} (kept : AllKept part fields)
    (h : (fields.all fun e => isOperator e.1) = true) :
    (part.all fun e => isOperator e.1) = true := by
  refine List.all_eq_true.2 fun e he => ?_
  obtain ⟨w, found, -⟩ := allKept_iff.1 kept e he
  exact List.all_eq_true.1 h (e.1, w) (Entries.mem_of_get? found)

mutual

theorem holds_of_kept {key : String} {joins : Bool} {whole : Value} {v : Option Value}
    (part : Value) (kept : Kept key part whole) (h : holds search joins key whole v = true) :
    holds search joins key part v = true := by
  cases hp : opened key part with
  | false => rwa [← (kept_closed hp).1 kept]
  | true =>
    cases part with
    | object fs =>
      obtain ⟨gs, rfl, hg, inner⟩ := (kept_opened hp).1 kept
      obtain ⟨leads, present, plain⟩ := opens_iff.1 hp
      obtain ⟨-, present', -⟩ := opens_iff.1 hg
      by_cases elem : key = elemKey
      · subst elem
        rw [holds_elemMatch, Option.any_eq_true] at h ⊢
        obtain ⟨items, hitems, found⟩ := h
        obtain ⟨w, hw, meets⟩ := List.any_eq_true.1 found
        exact ⟨items, hitems, List.any_eq_true.2 ⟨w, hw, holdsAll_of_kept fs inner meets⟩⟩
      · have field : isOperator key = false := leads.resolve_right elem
        rw [holds_field field (isEmpty_of_mem_keys present')] at h
        rw [holds_field field (isEmpty_of_mem_keys present)]
        split at h
        · rename_i operators
          rw [if_pos (inner.all_operators operators)]
          exact holdsAll_of_kept fs inner h
        · obtain ⟨object, selects⟩ := Bool.and_eq_true_iff.1 h
          split
          · rw [← holdsAll_joins plain true]
            exact holdsAll_of_kept fs inner selects
          · rw [object, holdsAll_of_kept fs inner selects]
            rfl
    | _ => cases hp

theorem holdsAll_of_kept {joins : Bool} {fields : Fields} {v : Option Value}
    (part : List (String × Value)) (kept : AllKept part fields)
    (h : holdsAll search joins fields v = true) : holdsAll search joins part v = true := by
  cases part with
  | nil => rfl
  | cons e rest =>
    obtain ⟨key, p⟩ := e
    obtain ⟨⟨w, found, here⟩, others⟩ := kept
    have first : holds search joins key w v = true :=
      holdsAll_iff.1 h _ (Entries.mem_of_get? found)
    rw [holdsAll, holds_of_kept p here first, holdsAll_of_kept rest others h]
    rfl

end

variable {d : ModelDefinition}

/-- Whether the second of two clauses may be merged after the first without loss. -/
def ClausesAgree (d : ModelDefinition) (first second : Clause) : Prop :=
  ∀ key p q, (compile d [first]).outcome = .ok [(key, p)] →
    (compile d [second]).outcome = .ok [(key, q)] → Agrees key q p

theorem clausesAgree_iff {c c' : Clause} {e e' : String × Value}
    (h : (entry d c).outcome = .ok e) (h' : (entry d c').outcome = .ok e') :
    ClausesAgree d c c' ↔ Compatible e e' := by
  obtain ⟨k, p⟩ := e
  obtain ⟨l, q⟩ := e'
  constructor
  · rintro agree ⟨⟩
    exact agree k p q (compile_single.2 ⟨_, h, rfl⟩) (compile_single.2 ⟨_, h', rfl⟩)
  · intro compatible key p' q' first second
    obtain ⟨_, he, same⟩ := compile_single.1 first
    cases h.symm.trans he
    obtain ⟨_, he', same'⟩ := compile_single.1 second
    cases h'.symm.trans he'
    cases same
    cases same'
    exact compatible rfl

theorem clausesAgree_pairwise {branch : Filter} {es : List (String × Value)}
    (h : List.Forall₂ (fun c e => (entry d c).outcome = .ok e) branch es) :
    branch.Pairwise (ClausesAgree d) ↔ es.Pairwise Compatible := by
  induction h with
  | nil => simp
  | cons first others ih =>
    rw [List.pairwise_cons, List.pairwise_cons, ih]
    refine and_congr_left' (forall_mem_congr others fun c e he => clausesAgree_iff first he)

/-- The clauses of a branch are all still in its selector exactly if any two agree, and then
a document that matches the selector matches that of each clause alone. -/
theorem compile_retains (d : ModelDefinition) {raw : Value} (keyed : raw.Keyed)
    {tree branch : Filter} (accepted : Filter.parse raw = .ok tree)
    (within : tree.HasBranch branch) {whole : Fields}
    (compiled : (compile d branch).outcome = .ok whole) :
    (branch.Pairwise (ClausesAgree d) ↔
      ∀ c ∈ branch, ∃ part, (compile d [c]).outcome = .ok part ∧ AllKept part whole) ∧
    (branch.Pairwise (ClausesAgree d) →
      ∀ c ∈ branch, ∃ part, (compile d [c]).outcome = .ok part ∧
        ∀ search doc, meets search whole doc = true → meets search part doc = true) := by
  obtain ⟨es, each, rfl⟩ := compile_ok_iff.1 compiled
  have clauses := forall₂_entries each
  have operands : ∀ e ∈ es, e.2.Keyed :=
    entries_keyed branch (within.keyed (Filter.parse_keyed raw keyed accepted)) each
  have kept : branch.Pairwise (ClausesAgree d) ↔
      ∀ c ∈ branch, ∃ part, (compile d [c]).outcome = .ok part ∧
        AllKept part (mergeAll [] es) := by
    rw [clausesAgree_pairwise clauses, ← allKept_mergeAll_iff operands, allKept_iff]
    refine (forall_mem_congr clauses fun c e he => ?_).symm
    constructor
    · rintro ⟨part, alone, here⟩
      obtain ⟨_, he', rfl⟩ := compile_single.1 alone
      cases he.symm.trans he'
      exact here.1
    · intro here
      exact ⟨[e], compile_single.2 ⟨e, he, rfl⟩, here, trivial⟩
  refine ⟨kept, fun agree c hc => ?_⟩
  obtain ⟨part, alone, here⟩ := kept.1 agree c hc
  exact ⟨part, alone, fun search doc h => holdsAll_of_kept part here h⟩

theorem compile_retains_range :
    let d : ModelDefinition := ⟨"Customer", [], [], .default⟩
    let branch : Filter := [.field "age" (.operator "gte" (.int 5) none),
      .field "age" (.operator "lt" (.int 9) none)]
    ∃ raw tree whole, raw.Keyed ∧ Filter.parse raw = .ok tree ∧ tree.HasBranch branch ∧
      (compile d branch).outcome = .ok whole ∧
      ∀ c ∈ branch, ∃ part, (compile d [c]).outcome = .ok part ∧
        ∀ search doc, meets search whole doc = true → meets search part doc = true := by
  intro d branch
  let inner : Value := .object [("age", .object [("gte", .int 5), ("lt", .int 9)])]
  have keyed : (Value.object [("or", .array [inner])]).Keyed := by
    simp [inner, Value.Keyed, Value.AllKeyed, Value.FieldsKeyed, Entries.keys]
  have within : Filter.HasBranch [.logical .or [branch]] branch :=
    .inside .whole List.mem_cons_self List.mem_cons_self
  have agree : branch.Pairwise (ClausesAgree d) := by
    have bounds :
        Compatible ("age", .object [("$gte", .int 5)]) ("age", .object [("$lt", .int 9)]) :=
      fun _ => (agrees_opened (by decide)).2
        ⟨_, rfl, by decide, by simp [allAgree_iff, Entries.get?]⟩
    have pair : List.Pairwise Compatible
        [("age", .object [("$gte", .int 5)]), ("age", .object [("$lt", .int 9)])] := by
      simpa using bounds
    exact (clausesAgree_pairwise (.cons rfl (.cons rfl .nil))).2 pair
  refine ⟨_, _, [("age", .object [("$gte", .int 5), ("$lt", .int 9)])], keyed, rfl, within, rfl, ?_⟩
  exact (compile_retains d keyed rfl within rfl).2 agree

/-- Of two operators with a name in common on one field the later one wins. -/
theorem compile_not_retains :
    ¬ ∀ (d : ModelDefinition) (raw : Value) (tree branch : Filter) (whole : Fields),
      raw.Keyed → Filter.parse raw = .ok tree → tree.HasBranch branch →
      (compile d branch).outcome = .ok whole →
      ∀ c ∈ branch, ∀ part, (compile d [c]).outcome = .ok part →
        ∀ search doc, meets search whole doc = true → meets search part doc = true := by
  intro retains
  let between : Value := .array [.int 1, .int 10]
  let raw : Value := .object [("age", .object [("gte", .int 5), ("between", between)])]
  let d : ModelDefinition := ⟨"Customer", [], [], .default⟩
  have keyed : raw.Keyed := by
    simp [raw, between, Value.Keyed, Value.AllKeyed, Value.FieldsKeyed, Entries.keys]
  have lost := retains d raw
    [.field "age" (.operator "gte" (.int 5) none), .field "age" (.operator "between" between none)]
    _ [("age", .object [("$gte", .int 1), ("$lte", .int 10)])] keyed rfl .whole rfl
    (.field "age" (.operator "gte" (.int 5) none)) List.mem_cons_self
    [("age", .object [("$gte", .int 5)])] rfl (fun _ _ => false) [("age", .int 3)] (by decide)
  exact absurd lost (by decide)

end ModelStore.Selector
