import ModelStore.Calendar.Moment
import ModelStore.Number.Binary64

/-! Unix time as a moment in UTC. A number counts seconds, or milliseconds when its
magnitude is above `millisecondMark`. Every moment of the calendar can be reached, from
year 1 to year 9999. -/

namespace ModelStore.Moment

open Number

def millisecondMark : Nat := 20000000000

def ofSeconds? (seconds : Int) (micro : Nat) : Option Moment :=
  if seconds < -62135596800 ∨ 253402300799 < seconds then none
  else
    let rest := (seconds % 86400).toNat
    some ⟨Date.ofDayNumber (seconds / 86400), rest / 3600, rest / 60 % 60, rest % 60, micro, some 0⟩

/-- A whole count and microseconds beyond it. -/
def ofCount? (milliseconds : Bool) (count : Int) (micro : Nat) : Option Moment :=
  let (seconds, extra) : Int × Nat :=
    if milliseconds then (count / 1000, (count % 1000).toNat * 1000) else (count, 0)
  let total := micro + extra
  ofSeconds? (seconds + (total / 1000000 : Nat)) (total % 1000000)

/-- Whether a whole number fits 64 bits; larger ones are no times. -/
def isWord (n : Int) : Bool := -(Nat.pow 2 63) ≤ n && n < Nat.pow 2 63

def ofInt? (n : Int) : Option Moment :=
  if isWord n then ofCount? (millisecondMark < n.natAbs) n 0 else none

/-- Half a unit or more goes up. -/
def roundUp (x : Binary64) : Nat := (2 * x.magnitude + Nat.pow 2 1074) / Nat.pow 2 1075

def floor (x : Binary64) : Int := x.scaled / Nat.pow 2 1074

/-- The microseconds of a number count upwards from the whole number below it. -/
def ofBinary? (x : Binary64) : Option Moment :=
  if x.isFinite then
    let below := floor x
    let milliseconds := Binary64.intKey millisecondMark < x.magnitude
    let micros := Binary64.ofInt (if milliseconds then 1000 else 1000000)
    ofCount? milliseconds below (roundUp ((x.sub (Binary64.ofInt below)).mul micros))
  else none

/-- Unix time written in decimal. What stands before a point must be of at most 64 bits. -/
def ofNumeric? (s : String) : Option Moment :=
  let (neg, body) := takeSign s.toList
  let (ds, rest) := takeDigits body
  if Nat.pow 2 63 ≤ Text.ofDigits 10 ds then none
  else
    match rest with
    | [] => if ds.isEmpty then none else ofInt? (signed neg (Text.ofDigits 10 ds))
    | '.' :: _ => (numeral? body).bind fun n => ofBinary? (Binary64.ofDecimal neg n.1 n.2)
    | _ => none

def isMidnight (m : Moment) : Bool :=
  m.hour == 0 && m.minute == 0 && m.second == 0 && m.micro == 0

/-- A moment from the text of a document. -/
def read? (s : String) : Option Moment := (ofText? s).or (ofNumeric? s)

/-- A date from the text of a document: a calendar date, or a Unix time at midnight. -/
def readDate? (s : String) : Option Date :=
  (Date.ofText? s).or
    ((read? s).bind fun m => if m.isMidnight then some m.date else none)

end ModelStore.Moment
