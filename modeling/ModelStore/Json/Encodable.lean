import ModelStore.Value.Basic

/-! The values that JSON can hold. Tuples become arrays; a number that is not finite and a
value that JSON has no form for are refused, the first one met deciding. -/

namespace ModelStore.Json

inductive EncodingFault where
  | notFinite
  | noForm
deriving DecidableEq

def scalarFault? : Scalar → Option EncodingFault
  | .null | .bool _ | .int _ | .str _ => none
  | .float x => if x.isFinite then none else some .notFinite
  | _ => some .noForm

mutual

def encode : Value → Except EncodingFault Value
  | .scalar s =>
    match scalarFault? s with
    | none => .ok (.scalar s)
    | some fault => .error fault
  | .array items => (encodeItems items).map .array
  | .tuple items => (encodeItems items).map .array
  | .object fields => (encodeFields fields).map .object
  | _ => .error .noForm

def encodeItems : List Value → Except EncodingFault (List Value)
  | [] => .ok []
  | v :: rest => do
    let w ← encode v
    let ws ← encodeItems rest
    .ok (w :: ws)

def encodeFields : List (String × Value) → Except EncodingFault (List (String × Value))
  | [] => .ok []
  | (name, v) :: rest => do
    let w ← encode v
    let ws ← encodeFields rest
    .ok ((name, w) :: ws)

end

end ModelStore.Json
