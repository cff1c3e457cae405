import ModelStore.Number.Shortest
import ModelStore.Text.Quoted
import ModelStore.Value.Text

/-! Writing JSON text: a blank after each comma and colon, and everything but visible ASCII as
UTF-16 escapes. Numbers that are not finite have names. -/

namespace ModelStore.Json

def unitText (n : Nat) : List Char := ['\\', 'u'] ++ Text.hexText 4 n

def charText (c : Char) : List Char :=
  if c = '\x22' ∨ c = '\\' then ['\\', c]
  else if c = '\n' then ['\\', 'n']
  else if c = '\r' then ['\\', 'r']
  else if c = '\t' then ['\\', 't']
  else if c = '\x08' then ['\\', 'b']
  else if c = '\x0c' then ['\\', 'f']
  else if 0x20 ≤ c.toNat ∧ c.toNat < 0x7F then [c]
  else if c.toNat < 0x10000 then unitText c.toNat
  else
    let n := c.toNat - 0x10000
    unitText (0xD800 + n / 0x400) ++ unitText (0xDC00 + n % 0x400)

def stringText (s : String) : String :=
  String.ofList ('\x22' :: s.toList.flatMap charText ++ ['\x22'])

def scalarText : Scalar → String
  | .null => "null"
  | .bool b => if b then "true" else "false"
  | .int n => Number.integerText n
  | .float x => x.textWith "Infinity" "NaN"
  | s => stringText s.text

mutual

def text : Value → String
  | .scalar s => scalarText s
  | .array items => "[" ++ separated (itemTexts items) ++ "]"
  | .tuple items => "[" ++ separated (itemTexts items) ++ "]"
  | .object fields => "\x7b" ++ separated (fieldTexts fields) ++ "\x7d"
  | .record fields => "\x7b" ++ separated (fieldTexts fields) ++ "\x7d"
  | v => stringText v.shown

def itemTexts : List Value → List String
  | [] => []
  | v :: rest => text v :: itemTexts rest

def fieldTexts : List (String × Value) → List String
  | [] => []
  | (name, v) :: rest => (stringText name ++ ": " ++ text v) :: fieldTexts rest

end

end ModelStore.Json
