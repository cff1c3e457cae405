import ModelStore.Number.Decimal

/-! What is left of a decimal number when a whole number is taken from it. A result keeps 28
digits, a tie going to the even one. The first of them stands at most at the place of
10⁹⁹⁹⁹⁹⁹ and the last one at least at that of 10⁻¹⁰⁰⁰⁰²⁶. -/

namespace ModelStore.Decimal

open Binary64 Number

def places : Nat := 28

def greatestOrder : Int := 999999

def leastPlace : Int := -1000026

/-- How many places the digits take up before the decimal point. -/
def order (digits : Nat) (exponent : Int) : Int := exponent + decimalLength digits

/-- The number with no more digits than a result keeps; none if it is too great. -/
def rounded? (neg : Bool) (digits : Nat) (exponent : Int) : Option Decimal :=
  if digits = 0 then some (finite neg 0 (max leastPlace (min exponent greatestOrder)))
  else if order digits exponent < leastPlace then some (finite neg 0 leastPlace)
  else
    let surplus := max (decimalLength digits - places) (leastPlace - exponent).toNat
    let kept := roundDiv digits (Nat.pow 10 surplus)
    let place := exponent + surplus
    if order kept place - 1 ≤ greatestOrder then some (finite neg kept place) else none

/-- The exact difference of a finite number and a whole number, as a whole number of
units of the last place. -/
def exactMinus (neg : Bool) (digits : Nat) (exponent : Int) (n : Nat) : Int :=
  signed neg (digits * Nat.pow 10 exponent.toNat) - (n * Nat.pow 10 (-exponent).toNat : Nat)

/-- The difference with a number whose last digit has thousands of places after it. All
that a whole number does to it is to tip a tie. -/
def minusFar? (neg : Bool) (digits : Nat) (exponent : Int) (n : Nat) : Option Decimal :=
  let hint := if n = 0 then 0 else if neg then 1 else -1
  rounded? neg (digits * Nat.pow 10 60 + hint : Int).toNat (exponent - 60)

/-- The difference; none if it is too great. A number with dozens of zeros after the point
is lost in the whole number. -/
def minus? (d : Decimal) (n : Nat) : Option Decimal :=
  match d with
  | finite neg digits exponent =>
    if n = 0 ∧ (digits = 0 ∨ exponent ≤ 0) then rounded? neg digits (min exponent 0)
    else if digits = 0 ∨ order digits exponent < -40 then some (finite true n 0)
    else if 5000 < exponent then minusFar? neg digits exponent n
    else
      let left := exactMinus neg digits exponent n
      rounded? (left < 0) left.natAbs (min exponent 0)
  | d => some d

def isPositive : Decimal → Bool
  | finite neg digits _ => !neg && digits != 0
  | infinite neg => !neg
  | nan _ _ _ => false

/-- Whether a number is less than a whole number that has no more than thousands of
places. -/
def isBelow (d : Decimal) (n : Nat) : Bool :=
  match d with
  | finite neg digits exponent =>
    if digits = 0 ∨ order digits exponent < -40 then neg && digits != 0 || n != 0
    else if 5000 < order digits exponent then neg
    else exactMinus neg digits exponent n < 0
  | infinite neg => neg
  | nan _ _ _ => false

def isNaN : Decimal → Bool
  | nan _ _ _ => true
  | _ => false

end ModelStore.Decimal
