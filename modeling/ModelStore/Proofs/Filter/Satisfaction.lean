import ModelStore.Proofs.Pattern.Reading
import ModelStore.Proofs.Selector.Matching

/-! What a filter says of a document, clause by clause and without a selector. All clauses of a
branch must hold. A clause on a field holds if the field is there and stands in the named
relation to the operand; only `exists` asks about fields that are not there. Ids are texts,
so a clause on the id property compares them with the operand written out as text. In which texts
a pattern is found is not said here. -/

namespace ModelStore

namespace Value

def atLeast (v bound : Value) : Bool :=
  v.collate? bound == some .gt || v.collate? bound == some .eq

def atMost (v bound : Value) : Bool :=
  v.collate? bound == some .lt || v.collate? bound == some .eq

mutual

/-- An operand for ids: what is neither null, a truth value, a text nor a pattern is written
out, within lists item by item. -/
def asId : Value → Value
  | null => null
  | bool b => bool b
  | str s => str s
  | scalar (.pattern p) => scalar (.pattern p)
  | array items => array (asIds items)
  | tuple items => array (asIds items)
  | object fields => object fields
  | v => str v.text

def asIds : List Value → List Value
  | [] => []
  | v :: rest => asId v :: asIds rest

end

end Value

namespace Operator

inductive Fits : String → Value → Prop where
  | compared {name : String} (v : Value)
      (known : name ∈ ["gt", "gte", "lt", "lte", "eq", "neq", "exists"]) : Fits name v
  | within {v lo hi : Value} (pair : v.items? = some [lo, hi]) : Fits "between" v
  | member {name : String} {v : Value} {items : List Value} (known : name ∈ ["inq", "nin"])
      (list : v.items? = some items) : Fits name v
  | source {name : String} (s : String) (known : name ∈ ["like", "nlike", "regexp"]) :
      Fits name (.str s)
  | compiled {name : String} (p : Pattern) (known : name ∈ ["like", "nlike", "regexp"]) :
      Fits name (.scalar (.pattern p))

/-- Whether the pattern that an operand stands for is found in a text; for `nlike` it is the class
of the characters that are not in the pattern. -/
def finds (found : Pattern.Found) (name : String) (operand : Value)
    (options : Option String) (v : Value) : Bool :=
  match Pattern.ofOperand? (name = "regexp") options operand, v with
  | some p, .str text => found (if name = "nlike" then p.negated else p) text
  | _, _ => false

/-- Whether a field that is there stands in the named relation to an operand. -/
def relates (found : Pattern.Found) (name : String) (operand : Value)
    (options : Option String) (v : Value) : Bool :=
  match name with
  | "gt" => v.collate? operand == some .gt
  | "gte" => v.atLeast operand
  | "lt" => v.collate? operand == some .lt
  | "lte" => v.atMost operand
  | "eq" => v.same operand
  | "neq" => !v.same operand
  | "between" =>
    match operand.items? with
    | some [lo, hi] => v.atLeast lo && v.atMost hi
    | _ => false
  | "inq" => v.elem (operand.items?.getD [])
  | "nin" => !v.elem (operand.items?.getD [])
  | name => finds found name operand options v

/-- A set goes through as the list of its items, in any order. -/
theorem relates_of_perm (found : Pattern.Found) {name : String} (known : name ∈ ["inq", "nin"])
    {items others : List Value} (same : items.Perm others) (options : Option String) :
    relates found name (.array items) options = relates found name (.array others) options := by
  funext v
  have member : v.elem items = v.elem others := by
    rw [Bool.eq_iff_iff]
    simp only [Value.elem, List.any_eq_true, same.mem_iff]
  simp only [List.mem_cons, List.not_mem_nil, or_false] at known
  rcases known with rfl | rfl
  · exact member
  · exact congrArg not member

end Operator

namespace Condition

def Fits : Condition → Prop
  | literal v => Selector.isObject v = false
  | operator name v _ => Operator.Fits name v

/-- Whether a field, if it is there, meets a condition. -/
def holds (found : Pattern.Found) : Condition → Option Value → Bool
  | literal w, v => v.any fun v => v.same w
  | operator "exists" w _, v => v.isSome == w.truthy
  | operator name w options, v => v.any (Operator.relates found name w options)

def asId : Condition → Condition
  | literal v => literal v.asId
  | operator "exists" v options => operator "exists" v options
  | operator name v options => operator name v.asId options

end Condition

namespace Filter

mutual

def satisfies (found : Pattern.Found) (idName : String) : List Clause → Fields → Bool
  | [], _ => true
  | clause :: rest, doc =>
    clauseSatisfies found idName clause doc && satisfies found idName rest doc

def clauseSatisfies (found : Pattern.Found) (idName : String) : Clause → Fields → Bool
  | .field path condition, doc =>
    if path = idName then condition.asId.holds found (Entries.get? doc "_id")
    else condition.holds found (Entries.get? doc path)
  | .logical .and branches, doc => allSatisfied found idName branches doc
  | .logical .or branches, doc => someSatisfied found idName branches doc
  | .logical .nor branches, doc => !someSatisfied found idName branches doc

def allSatisfied (found : Pattern.Found) (idName : String) :
    List (List Clause) → Fields → Bool
  | [], _ => true
  | branch :: rest, doc =>
    satisfies found idName branch doc && allSatisfied found idName rest doc

def someSatisfied (found : Pattern.Found) (idName : String) :
    List (List Clause) → Fields → Bool
  | [], _ => false
  | branch :: rest, doc =>
    satisfies found idName branch doc || someSatisfied found idName rest doc

end

end Filter

end ModelStore
