import ModelStore.Number.Numeral

/-! Calendar dates of the Gregorian calendar, from year 1 to year 9999, their text
`YYYY-MM-DD`, and their number as days from 1970-01-01. -/

namespace ModelStore

structure Date where
  year : Nat
  month : Nat
  day : Nat
deriving DecidableEq

namespace Date

open Number

def isLeap (year : Nat) : Bool :=
  year % 4 == 0 && (year % 100 != 0 || year % 400 == 0)

def daysInMonth (year month : Nat) : Nat :=
  match month with
  | 1 | 3 | 5 | 7 | 8 | 10 | 12 => 31
  | 4 | 6 | 9 | 11 => 30
  | 2 => if isLeap year then 29 else 28
  | _ => 0

def valid (d : Date) : Bool :=
  1 ≤ d.year && d.year ≤ 9999 && 1 ≤ d.day && d.day ≤ daysInMonth d.year d.month

/-- The last `width` decimal digits of a number. -/
def padded : (width : Nat) → Nat → List Char
  | 0, _ => []
  | width + 1, n => padded width (n / 10) ++ [Text.digitChar (n % 10)]

def chars (d : Date) : List Char :=
  padded 4 d.year ++ '-' :: padded 2 d.month ++ '-' :: padded 2 d.day

def text (d : Date) : String := String.ofList d.chars

/-- A number of exactly `width` digits at the front of a text. -/
def fixed? : (width : Nat) → List Char → Option (Nat × List Char)
  | 0, cs => some (0, cs)
  | _ + 1, [] => none
  | width + 1, c :: cs =>
    if Text.isAsciiDigit c then
      (fixed? width cs).map fun r => ((c.toNat - 0x30) * Nat.pow 10 width + r.1, r.2)
    else none

def past? (c : Char) : List Char → Option (List Char)
  | [] => none
  | d :: ds => if c = d then some ds else none

def take? (cs : List Char) : Option (Date × List Char) := do
  let (year, cs) ← fixed? 4 cs
  let cs ← past? '-' cs
  let (month, cs) ← fixed? 2 cs
  let cs ← past? '-' cs
  let (day, cs) ← fixed? 2 cs
  let d : Date := ⟨year, month, day⟩
  if d.valid then some (d, cs) else none

def ofChars? (cs : List Char) : Option Date :=
  match take? cs with
  | some (d, []) => some d
  | _ => none

def ofText? (s : String) : Option Date := ofChars? s.toList

/-- Days from 1970-01-01. The year is taken to begin in March, so that the leap day is
its last. -/
def dayNumber (d : Date) : Int :=
  let year : Int := if d.month ≤ 2 then d.year - 1 else d.year
  let era := year / 400
  let yearOfEra := year % 400
  let monthFromMarch : Int := if d.month ≤ 2 then d.month + 9 else d.month - 3
  let dayOfYear := (153 * monthFromMarch + 2) / 5 + d.day - 1
  era * 146097 + yearOfEra * 365 + yearOfEra / 4 - yearOfEra / 100 + dayOfYear - 719468

def ofDayNumber (n : Int) : Date :=
  let z := n + 719468
  let era := z / 146097
  let dayOfEra := z % 146097
  let yearOfEra := (dayOfEra - dayOfEra / 1460 + dayOfEra / 36524 - dayOfEra / 146096) / 365
  let dayOfYear := dayOfEra - (365 * yearOfEra + yearOfEra / 4 - yearOfEra / 100)
  let monthFromMarch := (5 * dayOfYear + 2) / 153
  let day := dayOfYear - (153 * monthFromMarch + 2) / 5 + 1
  let month := if monthFromMarch < 10 then monthFromMarch + 3 else monthFromMarch - 9
  let year := yearOfEra + era * 400 + (if month ≤ 2 then 1 else 0)
  ⟨year.toNat, month.toNat, day.toNat⟩

end Date

end ModelStore
