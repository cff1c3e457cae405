import ModelStore.Filter.Parse
import ModelStore.Selector.Fragment
import ModelStore.Selector.Merge
import ModelStore.Selector.Path

/-! Selectors from where-filters. The clauses of a branch are merged into one object. A
filter that searches by pattern gets a condition on `_id`, which every document meets, so
that the store has an index to use. The selector always carries the constraint that picks
out the model's documents: beside the filter's keys, or, if they share one, joined with
them by `$and`. -/

namespace ModelStore

namespace Selector

def idKey : String := "_id"

mutual

/-- Ids are stored as text, so operands that stand for ids become text. -/
def idOperand : Value → Value
  | .scalar s =>
    match s with
    | .null | .bool _ | .str _ | .pattern _ => .scalar s
    | s => .str s.text
  | .array items => .array (idOperands items)
  | .tuple items => .array (idOperands items)
  | .object fields => .object fields
  | v => .str v.text

def idOperands : List Value → List Value
  | [] => []
  | v :: rest => idOperand v :: idOperands rest

end

def idCondition : Condition → Condition
  | .literal v => .literal (idOperand v)
  | .operator name v options =>
    if Operator.isPattern name ∨ name = "exists" then .operator name v options
    else .operator name (idOperand v) options

def addressed (d : ModelDefinition) (path : String) (c : Condition) : String × Condition :=
  if path = d.idName then (idKey, idCondition c) else (path, c)

/-- The keys of a path: resolved if it is dotted and declared, else the path as it is. -/
def keysOf (d : ModelDefinition) (path : String) : List String :=
  if isDotted path then (resolveNames d (Text.cut '.' path)).getD [path] else [path]

def place (selector : Fields) (keys : List String) (fragment : Value) : Fields :=
  match keys with
  | [] => selector
  | first :: rest => mergeAt selector first (nest rest fragment)

mutual

def compileInto (d : ModelDefinition) (selector : Fields) : List Clause → Noted Fields
  | [] => pure selector
  | clause :: rest => do
    let selector ← compileClause d selector clause
    compileInto d selector rest

def compileClause (d : ModelDefinition) (selector : Fields) : Clause → Noted Fields
  | .field path condition => do
    let (path, condition) := addressed d path condition
    let fragment ← condition.fragment
    pure (place selector (keysOf d path) fragment)
  | .logical op branches => do
    let compiled ← compileAll d branches
    pure (Entries.set selector op.key (.array compiled))

def compileAll (d : ModelDefinition) : List (List Clause) → Noted (List Value)
  | [] => pure []
  | branch :: rest => do
    let fields ← compileInto d [] branch
    let others ← compileAll d rest
    pure (.object fields :: others)

end

def compile (d : ModelDefinition) (branch : Filter) : Noted Fields := compileInto d [] branch

mutual

def searches : List Clause → Bool
  | [] => false
  | clause :: rest => clauseSearches clause || searches rest

def clauseSearches : Clause → Bool
  | .field _ condition => condition.searches
  | .logical _ branches => anySearches branches

def anySearches : List (List Clause) → Bool
  | [] => false
  | branch :: rest => searches branch || anySearches rest

end

def guarded (searching : Bool) (selector : Fields) : Fields :=
  if searching ∧ !Entries.has selector idKey then
    Entries.set selector idKey (.object [("$gt", .null)])
  else selector

/-- What every document of the model matches. -/
def base? (h : Handle) : Option Fields :=
  match h.modelSelector with
  | some fields => some fields
  | none => h.mark?.map fun mark => [(mark, .str h.name)]

def constrain (base selector : Fields) : Fields :=
  if base.any fun e => Entries.has selector e.1 then
    [("$and", .array [.object base, .object selector])]
  else base ++ selector

def ofFilter (h : Handle) (filter : Filter) : Noted Fields := do
  let compiled ← compile h.definition filter
  let selector := guarded (searches filter) compiled
  pure (match base? h with
    | some base => constrain base selector
    | none => selector)

def build (h : Handle) (filter : Value) : Noted Fields :=
  match Filter.parse filter with
  | .ok clauses => ofFilter h clauses
  | .error f => .fail (.query f)

end Selector

end ModelStore
