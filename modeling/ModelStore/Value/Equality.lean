import ModelStore.Value.Basic

/-! Equality of values by meaning. Numbers are compared as numbers whatever their form,
with true as one and false as zero; objects are compared without regard to the order of
their fields; no number is not equal to itself. -/

namespace ModelStore

/-- A number as a point of the extended line. One so great or so small that no number of
another form comes near it keeps its digits, with no zeros at their end. -/
inductive Quantity where
  | finite (num : Int) (den : Nat)
  | distant (neg : Bool) (digits : Nat) (exponent : Int)
  | infinite (neg : Bool)
  | undefined

namespace Quantity

def same : Quantity → Quantity → Bool
  | finite a b, finite c d => a * d == c * b
  | distant neg n e, distant neg' n' e' => neg == neg' && n == n' && e == e'
  | infinite a, infinite b => a == b
  | _, _ => false

def ofBinary (x : Binary64) : Quantity :=
  if x.isNaN then undefined
  else if x.isInfinite then infinite x.negative
  else finite x.scaled (Nat.pow 2 1074)

/-- Takes the zeros at the end of some digits into the exponent. -/
def shortened (n : Nat) (e : Int) : Nat × Int :=
  if n % 10 = 0 ∧ n ≠ 0 then shortened (n / 10) (e + 1) else (n, e)
termination_by n
decreasing_by omega

def ofDecimal : Decimal → Quantity
  | .infinite neg => infinite neg
  | .nan _ _ _ => undefined
  | .finite neg n e =>
    if n = 0 then finite 0 1
    else if (e + Binary64.decimalLength n).natAbs ≤ 5000 then
      finite (Number.signed neg (n * Nat.pow 10 e.toNat)) (Nat.pow 10 (-e).toNat)
    else distant neg (shortened n e).1 (shortened n e).2

end Quantity

namespace Scalar

def quantity? : Scalar → Option Quantity
  | bool b => some (.finite (if b then 1 else 0) 1)
  | int n => some (.finite n 1)
  | float x => some (.ofBinary x)
  | decimal d => some (.ofDecimal d)
  | _ => none

/-- Microseconds since the beginning of 1970 at the offset's zero. -/
def instant (m : Moment) (offset : Int) : Int :=
  (m.date.dayNumber * 86400 + (m.hour * 3600 + m.minute * 60 + m.second : Nat)) * 1000000 +
    m.micro - offset

def same (a b : Scalar) : Bool :=
  match a.quantity?, b.quantity? with
  | some x, some y => x.same y
  | none, none =>
    match a, b with
    | moment m, moment n =>
      match m.offset, n.offset with
      | some o, some p => instant m o == instant n p
      | none, none => instant m 0 == instant n 0
      | _, _ => false
    | a, b => a == b
  | _, _ => false

end Scalar

namespace Value

mutual

def same : Value → Value → Bool
  | scalar a, b =>
    match b with
    | scalar b => a.same b
    | _ => false
  | array xs, b =>
    match b with
    | array ys => sameItems xs ys
    | _ => false
  | tuple xs, b =>
    match b with
    | tuple ys => sameItems xs ys
    | _ => false
  | object xs, b =>
    match b with
    | object ys => xs.length == ys.length && sameFields xs ys
    | _ => false
  | record xs, b =>
    match b with
    | record ys => xs.length == ys.length && sameFields xs ys
    | _ => false
  | property _, _ => false
  | index _, _ => false

def sameItems : List Value → List Value → Bool
  | [], [] => true
  | x :: xs, y :: ys => same x y && sameItems xs ys
  | _, _ => false

def sameFields : List (String × Value) → List (String × Value) → Bool
  | [], _ => true
  | (k, x) :: rest, ys =>
    (match Entries.get? ys k with
     | some y => same x y
     | none => false) && sameFields rest ys

end

def elem (v : Value) (items : List Value) : Bool := items.any fun w => w.same v

@[simp] theorem same_str (s t : String) : (str s).same (str t) = (s == t) := by
  rw [Bool.eq_iff_iff]
  simp [same, Scalar.same, Scalar.quantity?]

end Value

end ModelStore
