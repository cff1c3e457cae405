/-! Labels of international host names in ASCII letters. The ASCII characters come first, then
a hyphen if there are any, then the others as insertions: in the order of their code
points, each tells how far it is from the one before among all places at which it could
be inserted. Distances are numbers to base 36 whose digits end at a threshold, and the
thresholds follow the size of the distances so far. -/

namespace ModelStore.Punycode

def threshold (place bias : Nat) : Nat := min 26 (max 1 (36 * (place + 1) - bias))

theorem one_le_threshold (place bias : Nat) : 1 ≤ threshold place bias := by
  unfold threshold
  omega

theorem threshold_le (place bias : Nat) : threshold place bias ≤ 26 := by
  unfold threshold
  omega

/-- Divides by 35 until the number is small, and counts the divisions. -/
def scale (n : Nat) : Nat × Nat :=
  if 455 < n then
    let (rest, steps) := scale (n / 35)
    (rest, steps + 1)
  else (n, 0)
termination_by n
decreasing_by exact Nat.div_lt_self (by omega) (by omega)

/-- The bias after a distance, when there are `length` characters. -/
def adapt (distance length : Nat) (isFirst : Bool) : Nat :=
  let halved := if isFirst then distance / 700 else distance / 2
  let (rest, steps) := scale (halved + halved / length)
  36 * steps + 36 * rest / (rest + 38)

def digitChar (d : Nat) : Char :=
  if d < 26 then Char.ofNat (0x61 + d) else Char.ofNat (0x16 + d)

def digit? (c : Char) : Option Nat :=
  if 'a' ≤ c ∧ c ≤ 'z' then some (c.toNat - 0x61)
  else if '0' ≤ c ∧ c ≤ '9' then some (c.toNat - 0x16)
  else none

def digits (bias place n : Nat) : List Char :=
  let t := threshold place bias
  if n < t then [digitChar n]
  else digitChar (t + (n - t) % (36 - t)) :: digits bias (place + 1) ((n - t) / (36 - t))
termination_by n
decreasing_by
  have low := one_le_threshold place bias
  have high := threshold_le place bias
  calc (n - threshold place bias) / (36 - threshold place bias)
      ≤ n - threshold place bias := Nat.div_le_self _ _
    _ < n := by omega

/-- Where the next insertion is counted from: a code point, a place, the number of characters
that are there, and the bias. -/
structure Cursor where
  code : Nat
  place : Nat
  length : Nat
  bias : Nat
  isFirst : Bool

def Cursor.start (length : Nat) : Cursor := ⟨0x80, 0, length, 72, true⟩

def Cursor.next (s : Cursor) (code place distance : Nat) : Cursor :=
  ⟨code, place + 1, s.length + 1, adapt distance (s.length + 1) s.isFirst, false⟩

/-- The insertions of code points, each with its place among those up to it. -/
def insertionDigits (s : Cursor) : List (Nat × Nat) → List Char
  | [] => []
  | (code, place) :: rest =>
    let distance := (code - s.code) * (s.length + 1) + place - s.place
    digits s.bias 0 distance ++ insertionDigits (s.next code place distance) rest

/-- Code points above ASCII in rising order, each with the number of those before it that are
no greater. -/
def insertions (codes : List Nat) : List (Nat × Nat) :=
  let marked := codes.zipIdx.map fun (code, i) => (code, ((codes.take i).filter (· ≤ code)).length)
  (marked.filter fun e => 0x80 ≤ e.1).mergeSort fun a b => a.1 ≤ b.1

def encode (codes : List Nat) : List Char :=
  let basic := (codes.filter (· < 0x80)).map Char.ofNat
  basic ++ (if basic.isEmpty then [] else ['-']) ++
    insertionDigits (Cursor.start basic.length) (insertions codes)

/-- A distance that is being read: its digits so far and what the next one counts for. -/
structure Reading where
  value : Nat
  weight : Nat
  place : Nat

def Reading.start : Reading := ⟨0, 1, 0⟩

def decodeFrom (s : Cursor) (r : Reading) (codes : List Nat) : List Char → Option (List Nat)
  | [] => if r.place = 0 then some codes else none
  | c :: rest =>
    match digit? c with
    | none => none
    | some d =>
      let t := threshold r.place s.bias
      let value := r.value + d * r.weight
      if d < t then
        let code := s.code + (s.place + value) / (s.length + 1)
        let place := (s.place + value) % (s.length + 1)
        if 0x10FFFF < code then none
        else
          decodeFrom (s.next code place value) Reading.start
            (codes.take place ++ code :: codes.drop place) rest
      else decodeFrom s ⟨value, r.weight * (36 - t), r.place + 1⟩ codes rest

/-- The code points of a label whose ASCII characters and insertions are given. -/
def decode? (basic insertions : List Char) : Option (List Nat) :=
  decodeFrom (Cursor.start basic.length) Reading.start (basic.map Char.toNat) insertions

end ModelStore.Punycode
