import Mathlib.Data.List.Defs
import ModelStore.Proofs.Filter.Branches
import ModelStore.Proofs.Selector.Merging
import ModelStore.Selector.Build

/-! What a filter compiles to, clause by clause. Each clause contributes one entry, whatever
clauses stand beside it, and the selector of a branch is the entries merged in order. -/

namespace ModelStore.Selector

variable {d : ModelDefinition}

def slot (d : ModelDefinition) (path : String) (fragment : Value) : String × Value :=
  match keysOf d path with
  | [] => (path, fragment)
  | first :: rest => (first, nest rest fragment)

def entry (d : ModelDefinition) : Clause → Noted (String × Value)
  | .field path condition => do
    let (path, condition) := addressed d path condition
    let fragment ← condition.fragment
    pure (slot d path fragment)
  | .logical op branches => do
    let compiled ← compileAll d branches
    pure (op.key, .array compiled)

def entries (d : ModelDefinition) : List Clause → Noted (List (String × Value))
  | [] => pure []
  | clause :: rest => do
    let e ← entry d clause
    let others ← entries d rest
    pure (e :: others)

theorem resolveNames_ne_nil {names keys : List String} (h : resolveNames d names = some keys) :
    keys ≠ [] := by
  cases names with
  | nil => cases h
  | cons first rest =>
    rw [resolveNames] at h
    split at h
    · obtain ⟨tail, -, rfl⟩ := Option.map_eq_some_iff.1 h
      exact List.cons_ne_nil first tail
    · cases h

theorem keysOf_ne_nil (d : ModelDefinition) (path : String) : keysOf d path ≠ [] := by
  unfold keysOf
  split
  · cases h : resolveNames d (Text.cut '.' path) with
    | none => simp
    | some keys => exact resolveNames_ne_nil h
  · simp

theorem place_eq (selector : Fields) (d : ModelDefinition) (path : String) (fragment : Value) :
    place selector (keysOf d path) fragment =
      mergeAt selector (slot d path fragment).1 (slot d path fragment).2 := by
  unfold slot
  cases h : keysOf d path with
  | nil => exact absurd h (keysOf_ne_nil d path)
  | cons first rest => rfl

theorem compileClause_eq (selector : Fields) (clause : Clause) :
    compileClause d selector clause =
      entry d clause >>= fun e => pure (mergeAt selector e.1 e.2) := by
  cases clause with
  | field path condition => simp only [compileClause, entry, bind_assoc, pure_bind, place_eq]
  | logical op branches => simp only [compileClause, entry, bind_assoc, pure_bind, mergeAt]

theorem compileInto_eq (selector : Fields) (branch : Filter) :
    compileInto d selector branch =
      entries d branch >>= fun es => pure (mergeAll selector es) := by
  induction branch generalizing selector with
  | nil => simp only [compileInto, entries, pure_bind, mergeAll]
  | cons clause rest ih =>
    simp only [compileInto, entries, compileClause_eq, bind_assoc, pure_bind, ih, mergeAll]

theorem compile_eq (branch : Filter) :
    compile d branch = entries d branch >>= fun es => pure (mergeAll [] es) :=
  compileInto_eq [] branch

theorem compile_ok_iff {branch : Filter} {whole : Fields} :
    (compile d branch).outcome = .ok whole ↔
      ∃ es, (entries d branch).outcome = .ok es ∧ whole = mergeAll [] es := by
  rw [compile_eq, Noted.bind_eq_ok]
  simp [eq_comm]

theorem mergeAll_single (e : String × Value) : mergeAll [] [e] = [e] := by
  simp [mergeAll, mergeAt_eq, Entries.set]

theorem compile_single {clause : Clause} {part : Fields} :
    (compile d [clause]).outcome = .ok part ↔
      ∃ e, (entry d clause).outcome = .ok e ∧ part = [e] := by
  rw [compile_ok_iff]
  constructor
  · rintro ⟨es, h, rfl⟩
    obtain ⟨e, first, h⟩ := Noted.bind_eq_ok.1 h
    cases h
    exact ⟨e, first, mergeAll_single e⟩
  · rintro ⟨e, first, rfl⟩
    exact ⟨[e], Noted.bind_eq_ok.2 ⟨e, first, rfl⟩, (mergeAll_single e).symm⟩

theorem entries_cons_ok {clause : Clause} {rest : List Clause} {es : List (String × Value)} :
    (entries d (clause :: rest)).outcome = .ok es ↔
      ∃ e others, (entry d clause).outcome = .ok e ∧ (entries d rest).outcome = .ok others ∧
        es = e :: others := by
  rw [entries, Noted.bind_eq_ok]
  constructor
  · rintro ⟨e, first, h⟩
    obtain ⟨others, second, h⟩ := Noted.bind_eq_ok.1 h
    cases h
    exact ⟨e, others, first, second, rfl⟩
  · rintro ⟨e, others, first, second, rfl⟩
    exact ⟨e, first, Noted.bind_eq_ok.2 ⟨others, second, rfl⟩⟩

theorem forall₂_entries {branch : Filter} {es : List (String × Value)}
    (h : (entries d branch).outcome = .ok es) :
    List.Forall₂ (fun c e => (entry d c).outcome = .ok e) branch es := by
  induction branch generalizing es with
  | nil =>
    cases h
    exact .nil
  | cons clause rest ih =>
    obtain ⟨e, others, first, second, rfl⟩ := entries_cons_ok.1 h
    exact .cons first (ih second)

theorem forall_mem_congr {α β : Type} {R : α → β → Prop} {P : α → Prop} {Q : β → Prop}
    {xs : List α} {ys : List β} (related : List.Forall₂ R xs ys)
    (h : ∀ x y, R x y → (P x ↔ Q y)) : (∀ x ∈ xs, P x) ↔ ∀ y ∈ ys, Q y := by
  induction related with
  | nil => simp
  | cons first _ ih => rw [List.forall_mem_cons, List.forall_mem_cons, h _ _ first, ih]

theorem exists_clause {branch : Filter} {es : List (String × Value)}
    (h : List.Forall₂ (fun c e => (entry d c).outcome = .ok e) branch es) {e : String × Value}
    (he : e ∈ es) : ∃ c ∈ branch, (entry d c).outcome = .ok e := by
  induction h with
  | nil => cases he
  | cons first _ ih =>
    rcases List.mem_cons.1 he with rfl | later
    · exact ⟨_, List.mem_cons_self, first⟩
    · obtain ⟨c, hc, compiled⟩ := ih later
      exact ⟨c, List.mem_cons_of_mem _ hc, compiled⟩

mutual

theorem keyed_idOperand (v : Value) (keyed : v.Keyed) : (idOperand v).Keyed := by
  cases v with
  | scalar s => cases s <;> trivial
  | array items => exact keyed_idOperands items keyed
  | tuple items => exact keyed_idOperands items keyed
  | object fields => exact keyed
  | _ => trivial

theorem keyed_idOperands (items : List Value) (keyed : Value.AllKeyed items) :
    Value.AllKeyed (idOperands items) := by
  cases items with
  | nil => trivial
  | cons v rest => exact ⟨keyed_idOperand v keyed.1, keyed_idOperands rest keyed.2⟩

end

theorem addressed_keyed {path : String} {c : Condition} (keyed : c.operand.Keyed) :
    (addressed d path c).2.operand.Keyed := by
  unfold addressed
  split
  · cases c with
    | literal v => exact keyed_idOperand v keyed
    | operator name v options =>
      rw [idCondition]
      split
      · exact keyed
      · exact keyed_idOperand v keyed
  · exact keyed

theorem items?_keyed {v : Value} (keyed : v.Keyed) {items : List Value}
    (h : v.items? = some items) : ∀ w ∈ items, w.Keyed := by
  cases v with
  | array items =>
    cases h
    exact Value.allKeyed_iff.1 keyed
  | tuple items =>
    cases h
    exact Value.allKeyed_iff.1 keyed
  | _ => cases h

theorem compare_keyed {name : String} {v fragment : Value} (keyed : v.Keyed)
    (h : Operator.compare name v = .ok fragment) : fragment.Keyed := by
  unfold Operator.compare at h
  split at h
  · split at h
    · rename_i lo hi pair
      cases h
      have each := items?_keyed keyed pair
      exact (Value.keyed_single.2 (each lo (by simp))).set (each hi (by simp))
    · cases h
  · split at h
    · split at h
      · split at h
        · rename_i list
          cases h
          exact Value.keyed_single.2 (Value.keyed_array.2 (items?_keyed keyed list))
        · cases h
      · cases h
        exact Value.keyed_single.2 keyed
    · cases h
      exact Value.keyed_single.2 keyed

theorem fragment_keyed {c : Condition} {fragment : Value} (keyed : c.operand.Keyed)
    (h : c.fragment.outcome = .ok fragment) : fragment.Keyed := by
  cases c with
  | literal v =>
    cases h
    exact keyed
  | operator name v options =>
    rw [Condition.fragment, Operator.fragment, Operator.search?] at h
    split at h
    · obtain ⟨text, -, h⟩ := Noted.bind_eq_ok.1 h
      cases h
      exact Value.keyed_single.2 trivial
    · exact compare_keyed keyed h

theorem nest_keyed {keys : List String} {v : Value} (keyed : v.Keyed) : (nest keys v).Keyed := by
  induction keys with
  | nil => exact keyed
  | cons key rest ih => exact Value.keyed_single.2 ih

mutual

theorem entry_keyed {e : String × Value} (clause : Clause) (keyed : clause.Keyed)
    (h : (entry d clause).outcome = .ok e) : e.2.Keyed := by
  cases clause with
  | field path condition =>
    obtain ⟨fragment, compiled, h⟩ := Noted.bind_eq_ok.1 h
    cases h
    have inner : fragment.Keyed := fragment_keyed (addressed_keyed keyed) compiled
    unfold slot
    split
    · exact inner
    · exact nest_keyed inner
  | logical op branches =>
    rw [entry] at h
    obtain ⟨compiled, inner, h⟩ := Noted.bind_eq_ok.1 h
    cases h
    exact Value.keyed_array.2 (compileAll_keyed branches keyed inner)

theorem entries_keyed {es : List (String × Value)} (branch : List Clause)
    (keyed : Filter.Keyed branch) (h : (entries d branch).outcome = .ok es) :
    ∀ e ∈ es, e.2.Keyed := by
  cases branch with
  | nil =>
    cases h
    simp
  | cons clause rest =>
    obtain ⟨e, others, first, second, rfl⟩ := entries_cons_ok.1 h
    exact List.forall_mem_cons.2
      ⟨entry_keyed clause keyed.1 first, entries_keyed rest keyed.2 second⟩

theorem compileAll_keyed {compiled : List Value} (branches : List (List Clause))
    (keyed : Filter.AllKeyed branches) (h : (compileAll d branches).outcome = .ok compiled) :
    ∀ v ∈ compiled, v.Keyed := by
  cases branches with
  | nil =>
    cases h
    simp
  | cons branch rest =>
    rw [compileAll] at h
    obtain ⟨fields, first, h⟩ := Noted.bind_eq_ok.1 h
    obtain ⟨others, second, h⟩ := Noted.bind_eq_ok.1 h
    cases h
    obtain ⟨es, each, rfl⟩ := compile_ok_iff.1 first
    have inner : (Value.object (mergeAll [] es)).Keyed :=
      keyed_mergeAll es (Value.fieldsKeyed_iff.2 (entries_keyed branch keyed.1 each))
        (Value.keyed_object.2 (by simp [Entries.keys]))
    exact List.forall_mem_cons.2 ⟨inner, compileAll_keyed rest keyed.2 second⟩

end

end ModelStore.Selector
