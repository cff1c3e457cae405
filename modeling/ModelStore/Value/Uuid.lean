import ModelStore.Number.Numeral

/-! Universally unique identifiers: 128 bits, written as 32 lower-case hexadecimal digits
in groups of 8, 4, 4, 4 and 12. -/

namespace ModelStore

structure Uuid where
  value : Nat
deriving DecidableEq

namespace Uuid

/-- The value of a hexadecimal digit, which below ten may be of any script. -/
def hexDigit? (c : Char) : Option Nat :=
  if 'a' ≤ c ∧ c ≤ 'f' then some (c.toNat - 0x57)
  else if 'A' ≤ c ∧ c ≤ 'F' then some (c.toNat - 0x37)
  else Text.digit? c

def digits (u : Uuid) : List Char :=
  let ds := Nat.toDigits 16 u.value
  List.replicate (32 - ds.length) '0' ++ ds

def text (u : Uuid) : String :=
  let ds := u.digits
  let part (from_ len : Nat) := (ds.drop from_).take len
  String.ofList (part 0 8 ++ '-' :: part 8 4 ++ '-' :: part 12 4 ++ '-' :: part 16 4 ++
    '-' :: part 20 12)

/-- Takes every occurrence of a part out of a text; `left` characters of the current one
are still to go. -/
def without (part : List Char) : (left : Nat) → List Char → List Char
  | _, [] => []
  | left + 1, _ :: cs => without part left cs
  | 0, c :: cs =>
    if part.isPrefixOf (c :: cs) then without part (part.length - 1) cs
    else c :: without part 0 cs

def isBrace (c : Char) : Bool := c == '\x7b' || c == '\x7d'

/-- What follows the mark of hexadecimal numbers, after which a low line may stand. -/
def afterMark : List Char → List Char
  | '0' :: x :: '_' :: cs => if x = 'x' ∨ x = 'X' then cs else '0' :: x :: '_' :: cs
  | '0' :: x :: cs => if x = 'x' ∨ x = 'X' then cs else '0' :: x :: cs
  | cs => cs

/-- A hexadecimal number between white space, perhaps with a plus sign and a mark, its digits
grouped by single low lines. -/
def hexadecimal? (cs : List Char) : Option Nat :=
  let unsigned := match Text.trim Text.isWhiteSpace cs with
    | '+' :: cs => cs
    | cs => cs
  (Number.groupedDigits? hexDigit? (afterMark unsigned)).map (Text.ofDigits 16)

/-- Reads a hexadecimal number of 32 characters, most often digits. Hyphens and the marks of
a name may stand anywhere, and braces around all. -/
def ofText? (s : String) : Option Uuid :=
  let unmarked := without "uuid:".toList 0 (without "urn:".toList 0 s.toList)
  let bare := ((unmarked.dropWhile isBrace).reverse.dropWhile isBrace).reverse
  let cs := bare.filter (· ≠ '-')
  if cs.length = 32 then (hexadecimal? cs).map (⟨·⟩) else none

end Uuid

end ModelStore
