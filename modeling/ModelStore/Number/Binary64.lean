/-! Numbers in the 64-bit binary format of IEEE 754, as their bit patterns. Every finite
number is a whole multiple of 2⁻¹⁰⁷⁴, so comparison and arithmetic are done exactly on
that multiple (`scaled`) and rounded once, to nearest with ties to even. -/

namespace ModelStore

structure Binary64 where
  bits : UInt64
deriving DecidableEq

namespace Binary64

def negative (x : Binary64) : Bool := Nat.pow 2 63 ≤ x.bits.toNat

def exponentField (x : Binary64) : Nat := x.bits.toNat / Nat.pow 2 52 % Nat.pow 2 11

def fractionField (x : Binary64) : Nat := x.bits.toNat % Nat.pow 2 52

def isFinite (x : Binary64) : Bool := x.exponentField < 2047

def isNaN (x : Binary64) : Bool := x.exponentField == 2047 && x.fractionField != 0

def isInfinite (x : Binary64) : Bool := x.exponentField == 2047 && x.fractionField == 0

def significand (x : Binary64) : Nat :=
  if x.exponentField = 0 then x.fractionField else Nat.pow 2 52 + x.fractionField

/-- The exponent of the last place, counted from 2⁻¹⁰⁷⁴. -/
def place (x : Binary64) : Nat := x.exponentField - 1

def magnitude (x : Binary64) : Nat := x.significand * Nat.pow 2 x.place

/-- A finite number as a multiple of 2⁻¹⁰⁷⁴. -/
def scaled (x : Binary64) : Int :=
  if x.negative then -(x.magnitude : Int) else x.magnitude

def ofFields (neg : Bool) (exponent fraction : Nat) : Binary64 :=
  ⟨UInt64.ofNat ((if neg then Nat.pow 2 63 else 0) + exponent * Nat.pow 2 52 + fraction)⟩

def zero (neg : Bool) : Binary64 := ofFields neg 0 0

def infinity (neg : Bool) : Binary64 := ofFields neg 2047 0

def nan : Binary64 := ofFields false 2047 (Nat.pow 2 51)

/-- The number `mantissa · 2^(place - 1074)`, for a mantissa below 2⁵³ that is at least
2⁵² unless the place is zero. -/
def pack (neg : Bool) (mantissa place : Nat) : Binary64 :=
  if mantissa < Nat.pow 2 52 then ofFields neg 0 mantissa
  else if 2046 ≤ place then infinity neg
  else ofFields neg (place + 1) (mantissa - Nat.pow 2 52)

/-- The quotient rounded to the nearest whole number, a tie to the even one. -/
def roundDiv (num den : Nat) : Nat :=
  let q := num / den
  let r := num % den
  if den < 2 * r ∨ (2 * r = den ∧ q % 2 = 1) then q + 1 else q

def bitLength (n : Nat) : Nat := if n = 0 then 0 else Nat.log2 n + 1

/-- The number nearest to `num / den`, for a positive `den`. -/
def ofRatio (neg : Bool) (num den : Nat) : Binary64 :=
  let target := num * Nat.pow 2 1074
  let place := bitLength (target / den) - 53
  let mantissa := roundDiv target (den * Nat.pow 2 place)
  if mantissa = Nat.pow 2 53 then pack neg (Nat.pow 2 52) (place + 1) else pack neg mantissa place

def ofFraction (num : Int) (den : Nat) : Binary64 :=
  ofRatio (num < 0) num.natAbs den

def ofInt (n : Int) : Binary64 := ofFraction n 1

def decimalLength (n : Nat) : Nat := (Nat.toDigits 10 n).length

/-- The number nearest to `digits · 10^exponent`. Far outside the range of the format the
power of ten is not formed. -/
def ofDecimal (neg : Bool) (digits : Nat) (exponent : Int) : Binary64 :=
  let order := exponent + decimalLength digits
  if digits = 0 ∨ order < -330 then zero neg
  else if 310 < order then infinity neg
  else if 0 ≤ exponent then ofRatio neg (digits * Nat.pow 10 exponent.toNat) 1
  else ofRatio neg digits (Nat.pow 10 (-exponent).toNat)

/-- The whole part, dropping the fraction; none for infinities and for no number. -/
def trunc? (x : Binary64) : Option Int :=
  if x.isFinite then some (x.scaled.tdiv (Nat.pow 2 1074)) else none

def isIntegral (x : Binary64) : Bool := x.isFinite && x.magnitude % Nat.pow 2 1074 == 0

/-- An order key for all numbers but NaN: a value between those of its neighbours. -/
def key? (x : Binary64) : Option Int :=
  if x.isNaN then none
  else if x.isInfinite then some (if x.negative then -(Nat.pow 2 2200 : Int) else Nat.pow 2 2200)
  else some x.scaled

/-- The key of a whole number on the same scale. -/
def intKey (n : Int) : Int := n * Nat.pow 2 1074

def sub (x y : Binary64) : Binary64 :=
  if x.isFinite && y.isFinite then ofFraction (x.scaled - y.scaled) (Nat.pow 2 1074)
  else if x.isNaN || y.isNaN then nan
  else if x.isFinite then infinity (!y.negative)
  else if y.isFinite || x.negative != y.negative then x
  else nan

/-- Sum and product of finite numbers, rounded once. -/
def add (x y : Binary64) : Binary64 :=
  ofFraction (x.scaled + y.scaled) (Nat.pow 2 1074)

def mul (x y : Binary64) : Binary64 :=
  ofFraction (x.scaled * y.scaled) (Nat.pow 2 2148)

end Binary64

end ModelStore
