import ModelStore.Number.Numeral
import ModelStore.Number.Binary64
import ModelStore.Text.Case

/-! Decimal numbers that keep their digits: `1.50` is not `1.5`. Besides the finite ones
there are the infinities and two kinds of no number, quiet and signalling, which may
carry digits. The text is positional unless the exponent is positive or more than five
zeros would follow the point. -/

namespace ModelStore

inductive Decimal where
  | finite (neg : Bool) (digits : Nat) (exponent : Int)
  | infinite (neg : Bool)
  | nan (neg signalling : Bool) (payload : Nat)
deriving DecidableEq

namespace Decimal

open Text Number

def asciiDigits (c : Char) : Char :=
  match digit? c with
  | some d => digitChar d
  | none => c

def payload? (cs : List Char) : Option Nat :=
  match takeDigits cs with
  | (ds, []) => some (ofDigits 10 ds)
  | _ => none

/-- Whether a number is neither too great nor has too many places for a decimal one. -/
def inRange (digits : Nat) (exponent : Int) : Bool :=
  exponent + Binary64.decimalLength digits ≤ Nat.pow 10 18 && -1999999999999999997 ≤ exponent

def ofText? (s : String) : Option Decimal :=
  let cs := (trim isBlank s.toList).filter (· ≠ '_')
  let (neg, body) := takeSign (cs.map asciiDigits)
  match body.map lower with
  | ['i', 'n', 'f'] => some (.infinite neg)
  | ['i', 'n', 'f', 'i', 'n', 'i', 't', 'y'] => some (.infinite neg)
  | 'n' :: 'a' :: 'n' :: rest => (payload? rest).map (.nan neg false)
  | 's' :: 'n' :: 'a' :: 'n' :: rest => (payload? rest).map (.nan neg true)
  | number =>
    (numeral? number).bind fun n => if inRange n.1 n.2 then some (.finite neg n.1 n.2) else none

def signText (neg : Bool) : List Char := if neg then ['-'] else []

def exponentText (e : Int) : List Char :=
  'E' :: (if e < 0 then '-' else '+') :: Nat.toDigits 10 e.natAbs

/-- The digits with `point` of them before the decimal point. -/
def pointed (digits : List Char) (point : Int) : List Char :=
  if point ≤ 0 then ['0', '.'] ++ List.replicate (-point).toNat '0' ++ digits
  else if (digits.length : Int) ≤ point then
    digits ++ List.replicate (point - digits.length).toNat '0'
  else digits.take point.toNat ++ '.' :: digits.drop point.toNat

def text : Decimal → String
  | finite neg n e =>
    let digits := Nat.toDigits 10 n
    let left := e + digits.length
    let body :=
      if e ≤ 0 ∧ -6 < left then pointed digits left
      else pointed digits 1 ++ (if left = 1 then [] else exponentText (left - 1))
    String.ofList (signText neg ++ body)
  | infinite neg => String.ofList (signText neg ++ "Infinity".toList)
  | nan neg signalling payload =>
    String.ofList (signText neg ++ (if signalling then "sNaN" else "NaN").toList ++
      (if payload = 0 then [] else Nat.toDigits 10 payload))

/-- The nearest binary number; a signalling one has none. -/
def toBinary64? : Decimal → Option Binary64
  | finite neg n e => some (Binary64.ofDecimal neg n e)
  | infinite neg => some (Binary64.infinity neg)
  | nan _ signalling _ => if signalling then none else some Binary64.nan

/-- A finite number as a fraction with a power of ten below. -/
def fraction? : Decimal → Option (Int × Nat)
  | finite neg n e => some (signed neg (n * Nat.pow 10 e.toNat), Nat.pow 10 (-e).toNat)
  | _ => none

/-- The whole part. A number without places before the point has none to form. -/
def trunc? (d : Decimal) : Option Int :=
  match d with
  | finite _ n e =>
    if e + Binary64.decimalLength n ≤ 0 then some 0 else d.fraction?.map fun f => f.1.tdiv f.2
  | _ => none

def isZero : Decimal → Bool
  | finite _ n _ => n == 0
  | _ => false

end Decimal

end ModelStore
