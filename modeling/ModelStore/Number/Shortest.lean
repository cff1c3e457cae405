import ModelStore.Number.Binary64

/-! The decimal text of binary numbers. `shortest` finds the fewest significant digits
that read back as the same number, and of those the nearest; `text` lays them out:
positional from 10⁻⁴ up to 10¹⁶ with at least one decimal, and with an exponent of at
least two digits outside that range. -/

namespace ModelStore.Binary64

structure Decimals where
  digits : Nat
  exponent : Int

/-- The magnitude of a finite number and the ends of the interval of reals that round to
it, all in units of 2⁻¹⁰⁷⁶. -/
structure Interval where
  low : Nat
  value : Nat
  high : Nat
  closed : Bool

def interval (x : Binary64) : Interval :=
  let step := 2 * Nat.pow 2 x.place
  let value := 4 * x.magnitude
  let below := if x.significand = Nat.pow 2 52 ∧ 1 < x.exponentField then step / 2 else step
  ⟨value - below, value, value + step, x.significand % 2 = 0⟩

/-- `10^order ≤ value / 2^1076`. -/
def reaches (value : Nat) (order : Int) : Bool :=
  Nat.pow 10 order.toNat * Nat.pow 2 1076 ≤ value * Nat.pow 10 (-order).toNat

/-- The exponent of the leading decimal digit of a positive value. -/
def leadingOrder (value : Nat) : Int :=
  let guess := ((bitLength value : Int) - 1077) * 30103 / 100000
  if !reaches value guess then guess - 1
  else if reaches value (guess + 1) then guess + 1
  else guess

/-- The nearest point of the grid of multiples of `10^exponent` that lies in the
interval, if one does; of two equally near ones the even. -/
def gridPoint? (i : Interval) (exponent : Int) : Option Nat :=
  let up := Nat.pow 10 (-exponent).toNat
  let unit := Nat.pow 2 1076 * Nat.pow 10 exponent.toNat
  let value := i.value * up
  let inside (point : Nat) : Bool :=
    let p := point * unit
    if i.closed then i.low * up ≤ p && p ≤ i.high * up
    else i.low * up < p && p < i.high * up
  let below := value / unit
  let first := roundDiv value unit
  let second := if first = below then below + 1 else below
  if inside first then some first
  else if inside second then some second
  else none

def search (i : Interval) (order : Int) : Nat → Nat → Decimals
  | 0, digits => ⟨roundDiv (i.value * Nat.pow 10 digits) (Nat.pow 2 1076), -digits⟩
  | fuel + 1, digits =>
    let exponent := order - digits + 1
    match gridPoint? i exponent with
    | some point => ⟨point, exponent⟩
    | none => search i order fuel (digits + 1)

/-- Seventeen digits always suffice, so the search ends on a grid point. -/
def shortest (x : Binary64) : Decimals :=
  if x.magnitude = 0 then ⟨0, 0⟩
  else search x.interval (leadingOrder x.interval.value) 17 1

def zeros (n : Int) : List Char := List.replicate n.toNat '0'

def exponentText (e : Int) : List Char :=
  let digits := Nat.toDigits 10 e.natAbs
  (if e < 0 then '-' else '+') :: (List.replicate (2 - digits.length) '0' ++ digits)

/-- Digits with the point after the first `point` of them. -/
def layout (digits : List Char) (point : Int) : List Char :=
  if -4 < point ∧ point ≤ 16 then
    if point ≤ 0 then ['0', '.'] ++ zeros (-point) ++ digits
    else if (digits.length : Int) ≤ point then
      digits ++ zeros (point - digits.length) ++ ['.', '0']
    else digits.take point.toNat ++ '.' :: digits.drop point.toNat
  else
    let tail := digits.drop 1
    digits.take 1 ++ (if tail.isEmpty then [] else '.' :: tail) ++ 'e' :: exponentText (point - 1)

def dropZeros (digits : List Char) : List Char :=
  (digits.reverse.dropWhile (· = '0')).reverse

def magnitudeText (x : Binary64) : List Char :=
  if x.magnitude = 0 then ['0', '.', '0']
  else
    let s := x.shortest
    let digits := Nat.toDigits 10 s.digits
    layout (dropZeros digits) (digits.length + s.exponent)

def textWith (infinityName nanName : String) (x : Binary64) : String :=
  if x.isNaN then nanName
  else
    let body := if x.isInfinite then infinityName.toList else x.magnitudeText
    String.ofList (if x.negative then '-' :: body else body)

def text (x : Binary64) : String := textWith "inf" "nan" x

end ModelStore.Binary64
