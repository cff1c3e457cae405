import ModelStore.Proofs.Selector.Compilation
import ModelStore.Proofs.Selector.Condition

/-! What a selector means. The clauses of a filter become entries that are met where the clauses
hold, by induction on the filter; the entries of a branch are merged without loss as long as
no two of them meet in one operator of one field. The guard for searches asks for nothing,
and the constraint to the model asks for the model's mark. -/

namespace ModelStore

open Selector (compile isDotted isOperator)

/-- Whether two clauses, if they are about one field of the store, become operators that are
named differently. -/
def Clause.Apart (d : ModelDefinition) (first second : Clause) : Prop :=
  match first, second with
  | .field _ _, .field _ _ =>
    ∀ key f g, (compile d [first]).outcome = .ok [(key, f)] →
      (compile d [second]).outcome = .ok [(key, g)] →
      ∃ gs hs, f = .object gs ∧ g = .object hs ∧ ∀ k ∈ Entries.keys gs, k ∉ Entries.keys hs
  | _, _ => True

mutual

/-- Whether a filter names fields and not paths, holds no literal objects and only known
operators, and has no branch in which clauses on one field meet in an operator. -/
def Clause.Plain (d : ModelDefinition) : Clause → Prop
  | .field path condition =>
    isDotted path = false ∧ isOperator path = false ∧ condition.Fits
  | .logical _ branches => Filter.AllPlain d branches

def Filter.Plain (d : ModelDefinition) : List Clause → Prop
  | [] => True
  | clause :: rest =>
    clause.Plain d ∧ (∀ other ∈ rest, clause.Apart d other) ∧ Filter.Plain d rest

def Filter.AllPlain (d : ModelDefinition) : List (List Clause) → Prop
  | [] => True
  | branch :: rest => Filter.Plain d branch ∧ Filter.AllPlain d rest

end

theorem Filter.plain_of_mem {d : ModelDefinition} {filter : Filter} (h : Filter.Plain d filter) :
    ∀ c ∈ filter, c.Plain d := by
  induction filter with
  | nil => simp
  | cons c rest ih => exact List.forall_mem_cons.2 ⟨h.1, ih h.2.2⟩

namespace Selector

variable {d : ModelDefinition} {search : Search}

theorem isDotted_iff {path : String} : isDotted path = false ↔ '.' ∉ path.toList := by
  simp [isDotted]

def fieldOf (d : ModelDefinition) (path : String) : String :=
  if path = d.idName then idKey else path

theorem fieldOf_plain {path : String} (undotted : isDotted path = false)
    (field : isOperator path = false) :
    isDotted (fieldOf d path) = false ∧ isOperator (fieldOf d path) = false := by
  unfold fieldOf
  split
  · decide
  · exact ⟨undotted, field⟩

theorem slot_undotted {path : String} (h : isDotted path = false) (f : Value) :
    slot d path f = (path, f) := by
  rw [slot, keysOf, h]
  rfl

/-- A clause on a field becomes an entry under that field that says what the clause says. -/
theorem field_means {path : String} {c : Condition} (undotted : isDotted path = false)
    (field : isOperator path = false) (fits : c.Fits) :
    ∃ f, (entry d (.field path c)).outcome = .ok (fieldOf d path, f) ∧ IsCondition f ∧
      ∀ search found, Pattern.Reads search found → ∀ doc,
        holds search true (fieldOf d path) f (some (.object doc)) =
          Filter.clauseSatisfies found d.idName (.field path c) doc := by
  obtain ⟨undotted', field'⟩ := fieldOf_plain (d := d) undotted field
  have look : ∀ doc, (some (.object doc)).bind (fieldAt (fieldOf d path)) =
      Entries.get? doc (fieldOf d path) := fun doc =>
    fieldAt_eq_get? (isDotted_iff.1 undotted') (.object doc)
  by_cases own : path = d.idName
  · obtain ⟨f, compiled, condition, means⟩ := fragment_means (fits_asId fits)
    have name : fieldOf d path = idKey := if_pos own
    rw [name] at undotted' field' look ⊢
    have here : addressed d path c = (idKey, c.asId) := by
      rw [addressed, if_pos own, idCondition_eq fits]
    refine ⟨f, ?_, condition, fun search found reads doc => ?_⟩
    · rw [entry, here]
      exact Noted.bind_eq_ok.2 ⟨f, compiled, by rw [slot_undotted undotted']; rfl⟩
    · rw [means _ field' search found reads, look, Filter.clauseSatisfies, if_pos own]
      rfl
  · obtain ⟨f, compiled, condition, means⟩ := fragment_means fits
    have name : fieldOf d path = path := if_neg own
    rw [name] at look ⊢
    have here : addressed d path c = (path, c) := by
      rw [addressed, if_neg own]
    refine ⟨f, ?_, condition, fun search found reads doc => ?_⟩
    · rw [entry, here]
      exact Noted.bind_eq_ok.2 ⟨f, compiled, by rw [slot_undotted undotted]; rfl⟩
    · rw [means _ field search found reads, look, Filter.clauseSatisfies, if_neg own]

theorem holds_junction (op : Junction) (compiled : List Value) (v : Option Value) :
    holds search true op.key (.array compiled) v =
      match op with
      | .and => allMeet search compiled v
      | .or => someMeets search compiled v
      | .nor => noneMeets search compiled v := by
  cases op <;> rw [holds] <;> simp [Junction.ofKey?_key]

def keyOf (d : ModelDefinition) : Clause → String
  | .field path _ => fieldOf d path
  | .logical op _ => op.key

theorem entry_key {clause : Clause} (plain : clause.Plain d) {e : String × Value}
    (h : (entry d clause).outcome = .ok e) : e.1 = keyOf d clause := by
  cases clause with
  | field path c =>
    obtain ⟨undotted, field, fits⟩ := plain
    obtain ⟨f, compiled, -, -⟩ := field_means (d := d) undotted field fits
    cases compiled.symm.trans h
    rfl
  | logical op branches =>
    rw [entry] at h
    obtain ⟨compiled, -, h⟩ := Noted.bind_eq_ok.1 h
    cases h
    rfl

theorem key_injective {op op' : Junction} (h : op.key = op'.key) : op = op' := by
  have same := congrArg Junction.ofKey? h
  rw [Junction.ofKey?_key, Junction.ofKey?_key] at same
  exact Option.some.inj same

theorem entries_apart {c c' : Clause} {e e' : String × Value} (plain : c.Plain d)
    (plain' : c'.Plain d) (apart : c.Apart d c')
    (once : ∀ op bs bs', c = .logical op bs → c' ≠ .logical op bs')
    (h : (entry d c).outcome = .ok e) (h' : (entry d c').outcome = .ok e') : Apart e e' := by
  intro same
  have keys : keyOf d c = keyOf d c' := by rw [← entry_key plain h, same, entry_key plain' h']
  cases c with
  | field path c =>
    cases c' with
    | field path' c' =>
      obtain ⟨k, f⟩ := e
      obtain ⟨l, g⟩ := e'
      cases same
      exact apart k f g (compile_single.2 ⟨_, h, rfl⟩) (compile_single.2 ⟨_, h', rfl⟩)
    | logical op bs =>
      have field := (fieldOf_plain (d := d) plain.1 plain.2.1).2
      rw [show fieldOf d path = op.key from keys, isOperator_key] at field
      cases field
  | logical op bs =>
    cases c' with
    | field path c =>
      have field := (fieldOf_plain (d := d) plain'.1 plain'.2.1).2
      rw [show fieldOf d path = op.key from keys.symm, isOperator_key] at field
      cases field
    | logical op' bs' =>
      cases key_injective keys
      exact absurd rfl (once op bs bs' rfl)

mutual

theorem clause_means (clause : Clause) (plain : clause.Plain d) (once : clause.Once) :
    ∃ e, (entry d clause).outcome = .ok e ∧ IsPlain e ∧
      ∀ search found, Pattern.Reads search found → ∀ doc,
        holds search true e.1 e.2 (some (.object doc)) =
          Filter.clauseSatisfies found d.idName clause doc := by
  cases clause with
  | field path c =>
    obtain ⟨undotted, field, fits⟩ := plain
    obtain ⟨f, compiled, condition, means⟩ := field_means (d := d) undotted field fits
    exact ⟨_, compiled, ⟨condition, fun _ => (fieldOf_plain undotted field).2⟩, means⟩
  | logical op branches =>
    obtain ⟨compiled, inner, each⟩ := branches_mean branches plain once
    refine ⟨(op.key, .array compiled), ?_, ⟨isCondition_of_not_object rfl, nofun⟩, ?_⟩
    · rw [entry]
      exact Noted.bind_eq_ok.2 ⟨compiled, inner, rfl⟩
    · intro search found reads doc
      obtain ⟨all, one, none_⟩ := each search found reads doc
      rw [holds_junction]
      cases op with
      | and => exact all
      | or => exact one
      | nor => exact none_

/-- The entries of a branch are met where the branch is satisfied. -/
theorem entries_mean (branch : List Clause) (plain : Filter.Plain d branch)
    (once : Filter.Once branch) :
    ∃ es, (entries d branch).outcome = .ok es ∧ (∀ e ∈ es, IsPlain e) ∧ es.Pairwise Apart ∧
      ∀ search found, Pattern.Reads search found → ∀ doc,
        (∀ e ∈ es, holds search true e.1 e.2 (some (.object doc)) = true) ↔
          Filter.satisfies found d.idName branch doc = true := by
  cases branch with
  | nil =>
    refine ⟨[], rfl, by simp, .nil, fun search found _ doc => ?_⟩
    simp [Filter.satisfies]
  | cons clause rest =>
    obtain ⟨plain, apart, others⟩ := plain
    obtain ⟨once, single, once'⟩ := once
    obtain ⟨e, first, simple, means⟩ := clause_means clause plain once
    obtain ⟨es, later, simple', pairwise, means'⟩ := entries_mean rest others once'
    have next : ∀ f ∈ es, Apart e f := by
      intro f hf
      obtain ⟨c, hc, compiled⟩ := exists_clause (forall₂_entries later) hf
      exact entries_apart plain (Filter.plain_of_mem others c hc) (apart c hc)
        (fun op bs bs' h same => single op bs bs' h (same ▸ hc)) first compiled
    refine ⟨e :: es, entries_cons_ok.2 ⟨e, es, first, later, rfl⟩,
      List.forall_mem_cons.2 ⟨simple, simple'⟩, .cons next pairwise,
      fun search found reads doc => ?_⟩
    rw [List.forall_mem_cons, means search found reads, means' search found reads,
      Filter.satisfies, Bool.and_eq_true_iff]

theorem branches_mean (branches : List (List Clause)) (plain : Filter.AllPlain d branches)
    (once : Filter.AllOnce branches) :
    ∃ vs, (compileAll d branches).outcome = .ok vs ∧
      ∀ search found, Pattern.Reads search found → ∀ doc,
        allMeet search vs (some (.object doc)) =
          Filter.allSatisfied found d.idName branches doc ∧
        someMeets search vs (some (.object doc)) =
          Filter.someSatisfied found d.idName branches doc ∧
        noneMeets search vs (some (.object doc)) =
          !Filter.someSatisfied found d.idName branches doc := by
  cases branches with
  | nil => exact ⟨[], rfl, fun search found _ doc => ⟨rfl, rfl, rfl⟩⟩
  | cons branch rest =>
    obtain ⟨es, first, simple, pairwise, means⟩ := entries_mean branch plain.1 once.1
    obtain ⟨vs, later, means'⟩ := branches_mean rest plain.2 once.2
    have compiled : (compile d branch).outcome = .ok (mergeAll [] es) :=
      compile_ok_iff.2 ⟨es, first, rfl⟩
    refine ⟨.object (mergeAll [] es) :: vs, ?_, fun search found reads doc => ?_⟩
    · rw [compileAll]
      exact Noted.bind_eq_ok.2 ⟨_, compiled, Noted.bind_eq_ok.2 ⟨vs, later, rfl⟩⟩
    · have here : holdsAll search true (mergeAll [] es) (some (.object doc)) =
          Filter.satisfies found d.idName branch doc := by
        rw [Bool.eq_iff_iff, holdsAll_mergeAll_nil simple pairwise, means search found reads]
      obtain ⟨all, one, none_⟩ := means' search found reads doc
      rw [allMeet, someMeets, noneMeets, here, all, one, none_, Filter.allSatisfied,
        Filter.someSatisfied, Bool.not_or]
      exact ⟨rfl, rfl, rfl⟩

end

theorem meets_and (first second doc : Fields) :
    meets search [("$and", .array [.object first, .object second])] doc = true ↔
      meets search first doc = true ∧ meets search second doc = true := by
  rw [meets_single,
    show holds search true "$and" _ _ = _ from
      holds_junction .and [.object first, .object second] (some (.object doc))]
  simp [allMeet, meets]

theorem meets_append (first second doc : Fields) :
    meets search (first ++ second) doc = true ↔
      meets search first doc = true ∧ meets search second doc = true := by
  rw [meets, holdsAll_append, Bool.and_eq_true_iff]
  exact Iff.rfl

theorem meets_constrain (base selector doc : Fields) :
    meets search (constrain base selector) doc = true ↔
      meets search base doc = true ∧ meets search selector doc = true := by
  unfold constrain
  split
  · exact meets_and base selector doc
  · exact meets_append base selector doc

theorem meets_guarded (searching : Bool) (selector : Fields) {doc : Fields} {id : String}
    (h : Entries.get? doc idKey = some (.str id)) :
    meets search (guarded searching selector) doc = meets search selector doc := by
  unfold guarded
  split
  · rename_i added
    have absent : Entries.get? selector idKey = none := by
      have missing := added.2
      rw [Entries.has, Bool.not_eq_true', Option.isSome_eq_false_iff, Option.isNone_iff_eq_none]
        at missing
      exact missing
    have look : (some (Value.object doc)).bind (fieldAt idKey) = some (.str id) := by
      rw [Option.bind_some, fieldAt_eq_get? (by decide)]
      exact h
    have guard :
        holds search true idKey (.object [("$gt", .null)]) (some (.object doc)) = true := by
      rw [holds_operators (by decide) (isCondition_single (by decide) _), look,
        holdsAll_single (by decide) (by decide)]
      simp [applies, relates]
    rw [Entries.set_of_get?_none absent, meets, holdsAll_append, holdsAll, guard]
    simp [holdsAll, meets]
  · rfl

theorem same_str_iff {v : Value} {s : String} : v.same (.str s) = true ↔ v = .str s := by
  cases v with
  | scalar a => cases a <;> simp [Value.same, Scalar.same, Scalar.quantity?]
  | _ => simp [Value.same]

theorem carries_iff {mark name : String} (field : isOperator mark = false) {doc : Fields} :
    holds search true mark (.str name) (some (.object doc)) = true ↔
      fieldAt mark (.object doc) = some (.str name) := by
  rw [holds_literal field rfl, Option.bind_some, Option.any_eq_true]
  simp only [same_str_iff]
  exact ⟨fun ⟨_, h, same⟩ => same ▸ h, fun h => ⟨_, h, rfl⟩⟩

theorem base?_of_mark {h : Handle} {mark : String} (own : h.modelSelector = none)
    (marked : h.mark? = some mark) : base? h = some [(mark, .str h.name)] := by
  rw [base?, own, marked]
  rfl

def leading : List Char → Flags × List Char
  | '(' :: '?' :: rest =>
    match rest.takeWhile Pattern.isFlag, rest.dropWhile Pattern.isFlag with
    | c :: letters, ')' :: source => (.ofLetters (c :: letters), source)
    | _, _ => (.ofLetters [], '(' :: '?' :: rest)
  | source => (.ofLetters [], source)

/-- A search for sources that are plain text or a negated class, by the letters alone or, under the
flag for it, in any case. -/
def plainly : Search := fun pattern text =>
  let (flags, source) := leading pattern.toList
  let fold := if flags.ignoreCase then List.map Char.toLower else id
  match fold source with
  | '[' :: '^' :: rest => (fold text.toList).any fun c => c ∉ rest.dropLast
  | source => Text.occursIn source (fold text.toList)

end Selector

end ModelStore
