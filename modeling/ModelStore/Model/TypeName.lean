import ModelStore.Fault
import ModelStore.Text.Case

/-! Property types from what declarations give: a type name in any letter case, a native
type, or nothing, which allows any value. -/

namespace ModelStore

inductive TypeFault where
  | unknown (name : String)
  | unsupported (value : Value)

def TypeFault.message : TypeFault → String
  | unknown name => "Unknown property type " ++ Text.quote name
  | unsupported v => "Unsupported property type " ++ v.shown

namespace PropertyType

def ofNative? : NativeType → Option PropertyType
  | .text => some string
  | .boolean => some boolean
  | .integer | .float | .decimal => some number
  | .moment | .date => some date
  | .list | .tuple => some array
  | .mapping => some object
  | .anything => some any
  | .bytes | .set => none

def lower (s : String) : String := String.ofList (s.toList.map Text.lower)

def ofValue : Value → Except TypeFault PropertyType
  | .null => .ok any
  | .str s =>
    match ofName? (lower s) with
    | some t => .ok t
    | none => .error (.unknown s)
  | .scalar (.native t) =>
    match ofNative? t with
    | some t => .ok t
    | none => .error (.unsupported (.scalar (.native t)))
  | v => .error (.unsupported v)

end PropertyType

end ModelStore
