import ModelStore.Fault

/-! The form in which values are stored: dates and identifiers as text, decimal numbers as
the nearest binary ones, tuples as arrays. A signalling decimal has no such form. -/

namespace ModelStore.Value

mutual

/-- Whether a signalling decimal occurs in what would be stored. -/
def signals : Value → Bool
  | scalar s =>
    match s with
    | .decimal (.nan _ true _) => true
    | _ => false
  | array items => anySignals items
  | tuple items => anySignals items
  | object fields => fieldsSignal fields
  | _ => false

def anySignals : List Value → Bool
  | [] => false
  | v :: rest => v.signals || anySignals rest

def fieldsSignal : List (String × Value) → Bool
  | [] => false
  | (_, v) :: rest => v.signals || fieldsSignal rest

end

def storedScalar : Scalar → Scalar
  | .date d => .str d.text
  | .moment m => .str m.text
  | .uuid u => .str u.text
  | .decimal d => .float (d.toBinary64?.getD Binary64.nan)
  | s => s

mutual

def stored : Value → Value
  | scalar s => scalar (storedScalar s)
  | array items => array (storedItems items)
  | tuple items => array (storedItems items)
  | object fields => object (storedFields fields)
  | v => v

def storedItems : List Value → List Value
  | [] => []
  | v :: rest => v.stored :: storedItems rest

def storedFields : List (String × Value) → List (String × Value)
  | [] => []
  | (name, v) :: rest => (name, v.stored) :: storedFields rest

end

def serialize (v : Value) : Except Fault Value :=
  if v.signals then .error (.shape .wrongValue) else .ok v.stored

end ModelStore.Value
