import ModelStore.Value.Members
import ModelStore.Value.Ranking

/-! What a read is asked for: a filter, a projection, an order, a limit and an offset. An
offset of nothing gives way to a skip. Other keys are refused. -/

namespace ModelStore

structure Criteria where
  filter : Value
  fields : Value
  order : Value
  limit : Value
  offset : Value

namespace Criteria

def names : List String := ["where", "fields", "order", "limit", "offset", "skip"]

def either (v other : Value) : Value := if v.truthy then v else other

def ofFields (fields : Fields) : Criteria :=
  let part (name : String) : Value := Value.ofOption (Entries.get? fields name)
  ⟨part "where", part "fields", part "order", part "limit", either (part "offset") (part "skip")⟩

def isName (key : Value) : Bool := key.str?.any names.contains

/-- The fault that unknown keys make: they are told in rising order. -/
def refusal (unknown : List Value) : Fault :=
  match Value.sorted? unknown with
  | some keys => .query (.unknownKeys keys)
  | none => .shape .wrongType

def ofTable (t : Value.Table) : Except Fault Criteria :=
  match (t.map Prod.fst).filter fun key => !isName key with
  | [] => .ok (ofFields t.fields)
  | unknown => .error (refusal unknown)

def ofValue (v : Value) : Except Fault Criteria :=
  if v.truthy then v.asTable >>= ofTable else .ok (ofFields [])

/-- All documents of a filter, of which only some fields are wanted. -/
def ofFilter (filter fields : Value) : Criteria := ⟨filter, fields, .null, .null, .null⟩

end Criteria

end ModelStore
