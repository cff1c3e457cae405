import ModelStore.Text.Blank
import ModelStore.Text.Digit

/-! Reading numbers written in decimal. `numeral?` reads digits with an optional point and
an optional exponent; `integer?` reads a whole number that may be signed, stand between
white space, use the digits of any script and group its digits with single low lines. -/

namespace ModelStore.Number

open Text

def takeDigits : List Char → List Nat × List Char
  | [] => ([], [])
  | c :: cs =>
    if isAsciiDigit c then
      let (ds, rest) := takeDigits cs
      ((c.toNat - 0x30) :: ds, rest)
    else ([], c :: cs)

/-- A leading sign, true for minus, and what follows it. -/
def takeSign : List Char → Bool × List Char
  | '-' :: cs => (true, cs)
  | '+' :: cs => (false, cs)
  | cs => (false, cs)

def signed (neg : Bool) (n : Nat) : Int := if neg then -n else n

/-- The exponent written at the front of a text; none when the mark has no digits. -/
def exponent? : List Char → Option (Int × List Char)
  | [] => some (0, [])
  | c :: cs =>
    if c = 'e' ∨ c = 'E' then
      let (neg, body) := takeSign cs
      match takeDigits body with
      | ([], _) => none
      | (ds, rest) => some (signed neg (ofDigits 10 ds), rest)
    else some (0, c :: cs)

/-- A whole text of the form `12.34e-5`, as digits and a power of ten. -/
def numeral? (cs : List Char) : Option (Nat × Int) :=
  let (whole, rest) := takeDigits cs
  let (frac, rest) :=
    match rest with
    | '.' :: after => takeDigits after
    | _ => ([], rest)
  if whole.isEmpty ∧ frac.isEmpty then none
  else
    match exponent? rest with
    | some (e, []) => some (ofDigits 10 (whole ++ frac), e - frac.length)
    | _ => none

/-- The digits of a group-marked run: single low lines may stand between digits. -/
def groupedDigits? (digit? : Char → Option Nat) : List Char → Option (List Nat)
  | [] => none
  | [c] => (digit? c).map ([·])
  | c :: '_' :: rest =>
    match digit? c, groupedDigits? digit? rest with
    | some d, some ds => some (d :: ds)
    | _, _ => none
  | c :: rest =>
    match digit? c, groupedDigits? digit? rest with
    | some d, some ds => some (d :: ds)
    | _, _ => none

/-- The greatest number of digits that is read as a whole number. -/
def digitLimit : Nat := 4300

def integer? (s : String) : Option Int :=
  let (neg, body) := takeSign (trim isWhiteSpace s.toList)
  match groupedDigits? digit? body with
  | some ds => if digitLimit < ds.length then none else some (signed neg (ofDigits 10 ds))
  | none => none

def integerText (n : Int) : String := toString n

end ModelStore.Number
