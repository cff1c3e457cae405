import ModelStore.Value.Equality

/-! The order of values, where they have one. Numbers are ordered among themselves, and so
are texts, dates, moments, identifiers and tuples; values of different sorts are not. -/

namespace ModelStore

namespace Quantity

/-- Where a number stands by its sign and its exponent: at an end of the line, or far out, or
about the middle. -/
def region : Quantity → Int
  | finite num _ => num.sign
  | distant neg n e =>
    if 0 < e + Binary64.decimalLength n then (if neg then -2 else 2) else if neg then -1 else 1
  | infinite neg => if neg then -3 else 3
  | undefined => 0

/-- Whether one number lies before another on the same side of zero and as far out. -/
def nearer : Quantity → Quantity → Bool
  | finite a b, finite c d => a * d < c * b
  | distant neg n e, distant _ n' e' =>
    let order := e + Binary64.decimalLength n
    let order' := e' + Binary64.decimalLength n'
    let place := min e e'
    let less :=
      order < order' ||
        order == order' && n * Nat.pow 10 (e - place).toNat < n' * Nat.pow 10 (e' - place).toNat
    if neg then !less && !(n == n' && e == e') else less
  | distant neg _ _, finite _ _ => !neg
  | finite _ _, distant neg _ _ => neg
  | _, _ => false

/-- The order of two numbers. One that is undefined comes neither before nor after. -/
def before : Quantity → Quantity → Bool
  | undefined, _ => false
  | _, undefined => false
  | x, y => x.region < y.region || x.region == y.region && nearer x y

end Quantity

def Date.ordinal (d : Date) : Nat := (d.year * 100 + d.month) * 100 + d.day

namespace Scalar

/-- Whether one scalar comes before another; none if the two have no order. -/
def before? (a b : Scalar) : Option Bool :=
  match a.quantity?, b.quantity? with
  | some x, some y => some (x.before y)
  | none, none =>
    match a, b with
    | str s, str t => some (s < t)
    | date d, date e => some (d.ordinal < e.ordinal)
    | uuid u, uuid v => some (u.value < v.value)
    | moment m, moment n =>
      match m.offset, n.offset with
      | some o, some p => some (instant m o < instant n p)
      | none, none => some (instant m 0 < instant n 0)
      | _, _ => none
    | _, _ => none
  | _, _ => none

end Scalar

namespace Value

mutual

def before? : Value → Value → Option Bool
  | scalar a, b =>
    match b with
    | scalar b => a.before? b
    | _ => none
  | array xs, b =>
    match b with
    | array ys => beforeItems? xs ys
    | _ => none
  | tuple xs, b =>
    match b with
    | tuple ys => beforeItems? xs ys
    | _ => none
  | _, _ => none

/-- The first elements that differ decide; a list comes after its beginnings. -/
def beforeItems? : List Value → List Value → Option Bool
  | [], ys => some (!ys.isEmpty)
  | _ :: _, [] => some false
  | x :: xs, y :: ys => if x.same y then beforeItems? xs ys else before? x y

end

/-- Values in rising order; none if two of them have no order. -/
def sorted? (vs : List Value) : Option (List Value) :=
  let ordered := vs.zipIdx.all fun (v, i) => (vs.drop (i + 1)).all fun w => (v.before? w).isSome
  if ordered then some (vs.mergeSort fun v w => (w.before? v) ≠ some true) else none

end Value

end ModelStore
