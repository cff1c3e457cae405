import ModelStore.Proofs.Filter.Satisfaction
import ModelStore.Proofs.Noted
import ModelStore.Proofs.Selector.Conjunction
import ModelStore.Selector.Build

/-! What a condition on a field becomes. Each relation has an operator of the store, or two for
a range, that a field meets just where it stands in the relation. -/

namespace ModelStore.Selector

variable {search : Search} {joins : Bool} {key : String} {v : Option Value}

theorem isCondition_single {op : String} (h : isOperator op = true) (w : Value) :
    IsCondition (.object [(op, w)]) := by
  rintro _ ⟨⟩
  simp [Entries.keys, h]

theorem isCondition_of_not_object {w : Value} (h : isObject w = false) : IsCondition w := by
  rintro _ rfl
  cases h

theorem holds_literal (field : isOperator key = false) {w : Value} (plain : isObject w = false) :
    holds search joins key w v = (v.bind (fieldAt key)).any fun u => u.same w := by
  cases w with
  | object fields => cases plain
  | _ => simp [holds, leafHolds, field, ofKey?_of_not_operator field]

theorem holds_operator {op : String} (h : isOperator op = true) (other : op ≠ elemKey)
    (w : Value) : holds search false op w v = applies search op w v := by
  cases w <;> simp [holds, leafHolds, h, other]

theorem holdsAll_single {op : String} (h : isOperator op = true) (other : op ≠ elemKey)
    (w : Value) : holdsAll search false [(op, w)] v = applies search op w v := by
  rw [holdsAll, holdsAll, Bool.and_true, holds_operator h other]

theorem compare_means {name : String} {w : Value} (options : Option String)
    (known : name ∈ ["gt", "gte", "lt", "lte", "eq", "neq", "exists"]) :
    ∃ op, isOperator op = true ∧ op ≠ elemKey ∧
      (Condition.operator name w options).fragment.outcome = .ok (.object [(op, w)]) ∧
      ∀ search found v,
        applies search op w v = (Condition.operator name w options).holds found v := by
  simp only [List.mem_cons, List.not_mem_nil, or_false] at known
  rcases known with rfl | rfl | rfl | rfl | rfl | rfl | rfl
  · exact ⟨"$gt", by decide, by decide, rfl, fun search found v => rfl⟩
  · exact ⟨"$gte", by decide, by decide, rfl, fun search found v => rfl⟩
  · exact ⟨"$lt", by decide, by decide, rfl, fun search found v => rfl⟩
  · exact ⟨"$lte", by decide, by decide, rfl, fun search found v => rfl⟩
  · exact ⟨"$eq", by decide, by decide, rfl, fun search found v => rfl⟩
  · exact ⟨"$ne", by decide, by decide, rfl, fun search found v => rfl⟩
  · exact ⟨"$exists", by decide, by decide, rfl, fun search found v => rfl⟩

theorem member_means {name : String} {w : Value} {items : List Value} (options : Option String)
    (known : name ∈ ["inq", "nin"]) (list : w.items? = some items) :
    ∃ op, isOperator op = true ∧ op ≠ elemKey ∧
      (Condition.operator name w options).fragment.outcome =
        .ok (.object [(op, .array items)]) ∧
      ∀ search found v, applies search op (.array items) v =
        (Condition.operator name w options).holds found v := by
  have isTrue : ∀ b : Bool, (some b == some true) = b := by decide
  have isFalse : ∀ b : Bool, (some b == some false) = !b := by decide
  simp only [List.mem_cons, List.not_mem_nil, or_false] at known
  rcases known with rfl | rfl
  · refine ⟨"$in", by decide, by decide, ?_, fun search found v => ?_⟩
    · cases w <;> first | cases list; rfl | cases list
    · cases v with
      | none => rfl
      | some u =>
        show (some (u.elem items) == some true) = u.elem (w.items?.getD [])
        rw [isTrue, list, Option.getD_some]
  · refine ⟨"$nin", by decide, by decide, ?_, fun search found v => ?_⟩
    · cases w <;> first | cases list; rfl | cases list
    · cases v with
      | none => rfl
      | some u =>
        show (some (u.elem items) == some false) = !u.elem (w.items?.getD [])
        rw [isFalse, list, Option.getD_some]

theorem stands_of_readable (slashed : Bool) (options : Option String) {w : Value}
    (readable : (∃ s, w = .str s) ∨ ∃ p, w = .scalar (.pattern p)) :
    ∃ p, Pattern.ofOperand? slashed options w = some p := by
  rcases readable with ⟨s, rfl⟩ | ⟨p, rfl⟩
  · exact ⟨_, rfl⟩
  · exact ⟨_, rfl⟩

/-- The store searches for the pattern that the operand stands for. -/
theorem search_means {name : String} {w : Value} (options : Option String)
    (known : name ∈ ["like", "nlike", "regexp"])
    (readable : (∃ s, w = .str s) ∨ ∃ p, w = .scalar (.pattern p)) :
    ∃ text, (Condition.operator name w options).fragment.outcome =
        .ok (.object [(Operator.regexKey, .str text)]) ∧
      ∀ search found, Pattern.Reads search found → ∀ v,
        applies search Operator.regexKey (.str text) v =
          (Condition.operator name w options).holds found v := by
  obtain ⟨p, stands⟩ := stands_of_readable (name = "regexp") options readable
  obtain ⟨text, written, searched⟩ := Pattern.search_inline stands (name = "nlike")
  have pattern : Operator.isPattern name = true := by
    simp only [List.mem_cons, List.not_mem_nil, or_false] at known
    rcases known with rfl | rfl | rfl <;> rfl
  refine ⟨text, ?_, fun search found reads v => ?_⟩
  · rw [Condition.fragment, Operator.fragment, Operator.search?, if_pos pattern]
    exact Noted.bind_eq_ok.2 ⟨text, written, rfl⟩
  · have direct : (Condition.operator name w options).holds found v =
        v.any (Operator.finds found name w options) := by
      simp only [List.mem_cons, List.not_mem_nil, or_false] at known
      rcases known with rfl | rfl | rfl <;> cases v <;> rfl
    have here : search text = found (if name = "nlike" then p.negated else p) := by
      simpa using searched search found reads
    rw [direct]
    cases v with
    | none => rfl
    | some u =>
      rw [Option.any_some]
      unfold Operator.finds
      rw [stands]
      cases u with
      | scalar s =>
        cases s with
        | str s => exact congrFun here s
        | _ => rfl
      | _ => rfl

theorem within_means {w lo hi : Value} (options : Option String)
    (pair : w.items? = some [lo, hi]) :
    (Condition.operator "between" w options).fragment.outcome =
        .ok (.object [("$gte", lo), ("$lte", hi)]) ∧
      ∀ search found v, holdsAll search false [("$gte", lo), ("$lte", hi)] v =
        (Condition.operator "between" w options).holds found v := by
  constructor
  · cases w <;> first | cases pair; rfl | cases pair
  · intro search found v
    rw [holdsAll, holdsAll_single (by decide) (by decide), holds_operator (by decide) (by decide)]
    cases v with
    | none => rfl
    | some u =>
      have direct : (Condition.operator "between" w options).holds found (some u) =
          Operator.relates found "between" w options u := rfl
      rw [direct]
      simp only [Operator.relates, pair]
      rfl

/-- A condition becomes a fragment that a field meets just where it meets the condition. -/
theorem fragment_means {c : Condition} (fits : c.Fits) :
    ∃ f, c.fragment.outcome = .ok f ∧ IsCondition f ∧
      ∀ key, isOperator key = false → ∀ search found, Pattern.Reads search found → ∀ v,
        holds search true key f v = c.holds found (v.bind (fieldAt key)) := by
  cases c with
  | literal w =>
    refine ⟨w, rfl, isCondition_of_not_object fits, fun key field search found reads v => ?_⟩
    rw [holds_literal field fits]
    rfl
  | operator name w options =>
    have single : ∀ {op : String} {x : Value}, isOperator op = true → op ≠ elemKey →
        (∀ search found, Pattern.Reads search found → ∀ v,
          applies search op x v = (Condition.operator name w options).holds found v) →
        IsCondition (.object [(op, x)]) ∧ ∀ key, isOperator key = false →
          ∀ search found, Pattern.Reads search found → ∀ v,
            holds search true key (.object [(op, x)]) v =
              (Condition.operator name w options).holds found (v.bind (fieldAt key)) := by
      intro op x hop other means
      refine ⟨isCondition_single hop x, fun key field search found reads v => ?_⟩
      rw [holds_operators field (isCondition_single hop x), holdsAll_single hop other,
        means search found reads]
    cases fits with
    | compared _ known =>
      obtain ⟨op, hop, other, compiled, means⟩ := compare_means (w := w) options known
      exact ⟨_, compiled, single hop other fun search found _ => means search found⟩
    | within pair =>
      obtain ⟨compiled, means⟩ := within_means options pair
      rename_i lo hi
      have condition : IsCondition (.object [("$gte", lo), ("$lte", hi)]) := by
        rintro _ ⟨⟩
        refine ⟨by simp, by simp [Entries.keys], ?_⟩
        simp only [Entries.keys, List.map_cons, List.map_nil, List.forall_mem_cons]
        decide
      refine ⟨_, compiled, condition, fun key field search found _ v => ?_⟩
      rw [holds_operators field condition, means]
    | member known list =>
      obtain ⟨op, hop, other, compiled, means⟩ := member_means options known list
      exact ⟨_, compiled, single hop other fun search found _ => means search found⟩
    | source s known =>
      obtain ⟨text, compiled, means⟩ := search_means options known (.inl ⟨s, rfl⟩)
      exact ⟨_, compiled, single (by decide) (by decide) means⟩
    | compiled p known =>
      obtain ⟨text, compiled, means⟩ := search_means options known (.inr ⟨p, rfl⟩)
      exact ⟨_, compiled, single (by decide) (by decide) means⟩

mutual

theorem idOperand_eq (v : Value) : idOperand v = v.asId := by
  cases v with
  | scalar s => cases s <;> rfl
  | array items => rw [idOperand, Value.asId, idOperands_eq items]
  | tuple items => rw [idOperand, Value.asId, idOperands_eq items]
  | _ => rfl

theorem idOperands_eq (items : List Value) : idOperands items = Value.asIds items := by
  cases items with
  | nil => rfl
  | cons v rest => rw [idOperands, Value.asIds, idOperand_eq v, idOperands_eq rest]

end

theorem idCondition_eq {c : Condition} (fits : c.Fits) : idCondition c = c.asId := by
  cases c with
  | literal v => rw [idCondition, idOperand_eq, Condition.asId]
  | operator name v options =>
    cases fits with
    | compared _ known =>
      simp only [List.mem_cons, List.not_mem_nil, or_false] at known
      rcases known with rfl | rfl | rfl | rfl | rfl | rfl | rfl <;>
        simp [idCondition, Operator.isPattern, idOperand_eq, Condition.asId]
    | within pair => simp [idCondition, Operator.isPattern, idOperand_eq, Condition.asId]
    | member known list =>
      simp only [List.mem_cons, List.not_mem_nil, or_false] at known
      rcases known with rfl | rfl <;>
        simp [idCondition, Operator.isPattern, idOperand_eq, Condition.asId]
    | source s known =>
      simp only [List.mem_cons, List.not_mem_nil, or_false] at known
      rcases known with rfl | rfl | rfl <;> rfl
    | compiled p known =>
      simp only [List.mem_cons, List.not_mem_nil, or_false] at known
      rcases known with rfl | rfl | rfl <;> rfl

theorem items?_asId {v : Value} {items : List Value} (h : v.items? = some items) :
    v.asId.items? = some (Value.asIds items) := by
  cases v <;> first | cases h; rfl | cases h

theorem fits_asId {c : Condition} (fits : c.Fits) : c.asId.Fits := by
  cases c with
  | literal v =>
    cases v with
    | scalar s => cases s <;> rfl
    | object fields => cases fits
    | _ => rfl
  | operator name v options =>
    cases fits with
    | compared _ known =>
      have same := known
      simp only [List.mem_cons, List.not_mem_nil, or_false] at same
      rcases same with rfl | rfl | rfl | rfl | rfl | rfl | rfl <;> exact .compared _ known
    | within pair => exact .within (items?_asId pair)
    | member known list =>
      have same := known
      simp only [List.mem_cons, List.not_mem_nil, or_false] at same
      rcases same with rfl | rfl <;> exact .member known (items?_asId list)
    | source s known =>
      have same := known
      simp only [List.mem_cons, List.not_mem_nil, or_false] at same
      rcases same with rfl | rfl | rfl <;> exact .source s known
    | compiled p known =>
      have same := known
      simp only [List.mem_cons, List.not_mem_nil, or_false] at same
      rcases same with rfl | rfl | rfl <;> exact .compiled p known

end ModelStore.Selector
