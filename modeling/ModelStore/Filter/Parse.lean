import ModelStore.Fault
import ModelStore.Filter.Basic

/-! Reading where-filters. An object is a filter, each key in order: `and`, `or` and `nor`
hold lists of filters, any other key names a field. Under a field an object names
operators, all sharing its `options`; anything else is the value to equal. Null stands for
the empty filter. -/

namespace ModelStore

def optionsKey : String := "options"

def options? (fields : Fields) : Except QueryFault (Option String) :=
  match Entries.get? fields optionsKey with
  | none => .ok none
  | some .null => .ok none
  | some (.str s) => .ok (some s)
  | some v => .error (.optionsNotText v)

def Condition.ofFields (fields : Fields) : Except QueryFault (List Condition) :=
  (options? fields).map fun options =>
    match fields.filter fun e => e.1 ≠ optionsKey with
    | [] => [.literal (.object fields)]
    | operators => operators.map fun e => .operator e.1 e.2 options

def Condition.parse : Value → Except QueryFault (List Condition)
  | .object fields => ofFields fields
  | v => .ok [.literal v]

namespace Filter

mutual

def parse : Value → Except QueryFault Filter
  | .null => .ok []
  | .object fields => parseEntries fields
  | v => .error (.filterNotMapping v.typeName)

def parseEntries : List (String × Value) → Except QueryFault Filter
  | [] => .ok []
  | (key, v) :: rest =>
    match Junction.ofName? key with
    | some op => do
      let branches ← parseBranches key v
      let clauses ← parseEntries rest
      .ok (.logical op branches :: clauses)
    | none => do
      let conditions ← Condition.parse v
      let clauses ← parseEntries rest
      .ok (conditions.map (.field key) ++ clauses)

def parseBranches (key : String) : Value → Except QueryFault (List Filter)
  | .array items => parseAll items
  | .tuple items => parseAll items
  | _ => .error (.branchesNotList key)

def parseAll : List Value → Except QueryFault (List Filter)
  | [] => .ok []
  | v :: rest => do
    let branch ← parse v
    let branches ← parseAll rest
    .ok (branch :: branches)

end

end Filter

end ModelStore
