import ModelStore.Calendar.Moment

/-! Dates and moments in the forms of ISO 8601. A date is given by month and day or by week
and weekday, with hyphens or without. A moment goes on, after any one character, with as
much of the time of day as is known and perhaps an offset from UTC, both with colons or
without. What stands between six digits of a fraction and an offset is not looked at. -/

namespace ModelStore

open Number

namespace Date

/-- The weekday of a day, counted from Monday as zero; 1970 began on a Thursday. -/
def weekday (dayNumber : Int) : Int := (dayNumber + 3) % 7

/-- Years that begin on a Thursday, and leap years that begin on a Wednesday, have
fifty-three weeks. -/
def weeksOf (year : Nat) : Nat :=
  let first := weekday (dayNumber ⟨year, 1, 1⟩)
  if first = 3 ∨ (first = 2 ∧ isLeap year) then 53 else 52

/-- The date of a weekday, Monday being 1, in a week of a year. The fourth of January is
always in the first week. -/
def ofWeek? (year week day : Nat) : Option Date :=
  let fourth := dayNumber ⟨year, 1, 4⟩
  let monday := fourth - weekday fourth
  let d := ofDayNumber (monday + ((week - 1) * 7 + (day - 1) : Nat))
  if 1 ≤ year ∧ 1 ≤ week ∧ week ≤ weeksOf year ∧ 1 ≤ day ∧ day ≤ 7 ∧ d.valid then some d
  else none

def dash? (dashed : Bool) (cs : List Char) : Option (List Char) :=
  if dashed then past? '-' cs else some cs

def ofIsoChars? (cs : List Char) : Option Date := do
  let (year, cs) ← fixed? 4 cs
  let dashed := cs.head? = some '-'
  match (if dashed then cs.drop 1 else cs) with
  | 'W' :: cs => do
    let (week, cs) ← fixed? 2 cs
    if cs.isEmpty then ofWeek? year week 1
    else do
      let cs ← dash? dashed cs
      let (day, _) ← fixed? 1 cs
      ofWeek? year week day
  | cs => do
    let (month, cs) ← fixed? 2 cs
    let cs ← dash? dashed cs
    let (day, _) ← fixed? 2 cs
    let d : Date := ⟨year, month, day⟩
    if d.valid then some d else none

/-- A date standing alone. The text must be as long as one of the forms. -/
def ofIso? (s : String) : Option Date :=
  let size := s.utf8ByteSize
  if size = 7 ∨ size = 8 ∨ size = 10 then ofIsoChars? s.toList else none

/-- How many characters of a moment are its date. A hyphen after a week is taken for the
separator when digits of a time follow; a run of digits after a week without hyphens has a
weekday if it has an odd number of them. -/
def isoLength (cs : List Char) : Nat :=
  if cs.length = 7 then 7
  else if cs[4]? = some '-' then
    if cs[5]? ≠ some 'W' then 10
    else if cs[8]? ≠ some '-' ∨ cs[10]?.any Text.isAsciiDigit then 8
    else 10
  else if cs[4]? = some 'W' then
    let run := 7 + (takeDigits (cs.drop 7)).1.length
    if run < 9 then run else if run % 2 = 0 then 7 else 8
  else 8

end Date

namespace Moment

open Date

/-- A time of day as far as it was written: its parts from the hour on, its microseconds,
and whether nothing follows it. -/
structure Clock where
  parts : List Nat
  micro : Nat
  complete : Bool

namespace Clock

def part (c : Clock) (i : Nat) : Nat := (c.parts[i]?).getD 0

def seconds (c : Clock) : Nat := c.part 0 * 3600 + c.part 1 * 60 + c.part 2

def fraction? (parts : List Nat) (cs : List Char) : Option Clock :=
  match takeDigits (cs.take 6) with
  | (ds, []) => some ⟨parts, microOf ds, (takeDigits (cs.drop 6)).2.isEmpty⟩
  | _ => none

/-- Reads the parts that may still come, two digits each. The character after the hour
tells whether colons stand between them. A character that ends the text is not looked
at. -/
def read? : (more : Nat) → (colons : Bool) → (parts : List Nat) → List Char → Option Clock
  | more, colons, parts, cs =>
    match fixed? 2 cs with
    | none => none
    | some (n, rest) =>
      let parts := parts ++ [n]
      match rest with
      | [] => some ⟨parts, 0, true⟩
      | [_] => some ⟨parts, 0, false⟩
      | c :: next =>
        let colons := if parts.length = 1 then c == ':' else colons
        match more with
        | 0 =>
          if c = '.' ∨ c = ',' then fraction? parts next
          else if colons then none
          else fraction? parts (c :: next)
        | more + 1 =>
          if colons && c == ':' then read? more colons parts next
          else if c = '.' ∨ c = ',' then fraction? parts next
          else if colons then none
          else read? more colons parts (c :: next)

def ofChars? (cs : List Char) : Option Clock := read? 2 true [] cs

end Clock

def marksOffset (c : Char) : Bool := c == '+' || c == '-' || c == 'Z'

/-- An offset in microseconds, below a day. One of less than a second is none. -/
def isoOffset? : List Char → Option Int
  | ['Z'] => some 0
  | 'Z' :: _ => none
  | [] => none
  | sign :: cs =>
    match Clock.ofChars? cs with
    | some c =>
      let micros := if c.seconds = 0 then 0 else c.seconds * 1000000 + c.micro
      if c.complete ∧ micros < 86400000000 then some (signed (sign == '-') micros) else none
    | none => none

/-- The time of day and the offset after the separator. -/
def ofIsoTime? (date : Date) (cs : List Char) : Option Moment := do
  let clock ← Clock.ofChars? (cs.takeWhile fun c => !marksOffset c)
  let zone := cs.dropWhile fun c => !marksOffset c
  let offset ← if zone.isEmpty then (if clock.complete then some none else none)
    else (isoOffset? zone).map some
  if clock.part 0 < 24 ∧ clock.part 1 < 60 ∧ clock.part 2 < 60 then
    some ⟨date, clock.part 0, clock.part 1, clock.part 2, clock.micro, offset⟩
  else none

/-- A date alone is its midnight. -/
def ofIso? (s : String) : Option Moment := do
  let cs := s.toList
  let length := isoLength cs
  let date ← Date.ofIsoChars? (cs.take length)
  match cs.drop length with
  | [] => some (midnight date)
  | _ :: time => ofIsoTime? date time

end Moment

end ModelStore
