import ModelStore.Json.Reader
import ModelStore.Text.Percent

/-! The text of a JSON document from its bytes. The bytes are in one of the five Unicode
encodings, and the zeros among the first four tell which: a document begins with two ASCII
characters, or is one. A mark at the front of UTF-8 is left out. -/

namespace ModelStore.Json

inductive Encoding where
  | utf8
  | utf16 (bigEndian : Bool)
  | utf32 (bigEndian : Bool)
deriving DecidableEq

def Encoding.ofBytes : List Nat → Encoding
  | [a, b] => if a = 0 then utf16 true else if b = 0 then utf16 false else utf8
  | a :: b :: c :: d :: _ =>
    if a = 0 then (if b = 0 then utf32 true else utf16 true)
    else if b = 0 then (if c = 0 ∧ d = 0 then utf32 false else utf16 false)
    else utf8
  | _ => utf8

def number (bigEndian : Bool) (bytes : List Nat) : Nat :=
  (if bigEndian then bytes else bytes.reverse).foldl (fun n b => n * 0x100 + b) 0

/-- Code units of two bytes; none if a byte is left over. -/
def units16? (bigEndian : Bool) : List Nat → Option (List Nat)
  | [] => some []
  | a :: b :: rest => (units16? bigEndian rest).map fun us => number bigEndian [a, b] :: us
  | _ => none

def units32? (bigEndian : Bool) : List Nat → Option (List Nat)
  | [] => some []
  | a :: b :: c :: d :: rest =>
    (units32? bigEndian rest).map fun us => number bigEndian [a, b, c, d] :: us
  | _ => none

def character? (n : Nat) : Option Char :=
  if n.isValidChar then some (Char.ofNat n) else none

/-- Units to characters, two surrogates making one. -/
def ofUnits16? : List Nat → Option (List Char)
  | [] => some []
  | high :: low :: rest =>
    if 0xD800 ≤ high ∧ high < 0xDC00 ∧ 0xDC00 ≤ low ∧ low < 0xE000 then
      (ofUnits16? rest).bind fun cs =>
        (character? (0x10000 + (high - 0xD800) * 0x400 + (low - 0xDC00))).map (· :: cs)
    else (character? high).bind fun c => (ofUnits16? (low :: rest)).map (c :: ·)
  | [unit] => (character? unit).map ([·])

def dropMark (cs : List Char) : List Char :=
  match cs with
  | c :: rest => if c.toNat = 0xFEFF then rest else cs
  | [] => []

/-- The characters of a document that came as UTF-8 text. -/
def characters? (cs : List Char) : Option (List Char) :=
  let bytes := cs.flatMap Text.utf8
  match Encoding.ofBytes bytes with
  | .utf8 => some (dropMark cs)
  | .utf16 big => (units16? big bytes).bind ofUnits16?
  | .utf32 big => (units32? big bytes).bind fun units => units.mapM character?

/-- How deep the brackets of a document may be nested. -/
def maxDepth : Nat := 975

/-- The value of a document that came as UTF-8 text. -/
def ofBody (text : String) : Except ReadFault Value :=
  match characters? text.toList with
  | some cs => read maxDepth cs
  | none => .error .malformed

end ModelStore.Json
