import ModelStore.Calendar.Date

/-! A moment: a date, a time of day and perhaps an offset from UTC, both to the microsecond.
`text` writes it in ISO form; `ofText?` reads that form with the freedoms that stored
documents take: four separators, seconds and offset optional, a fraction of any length cut
to microseconds, and an offset with or without its colon. -/

namespace ModelStore

structure Moment where
  date : Date
  hour : Nat
  minute : Nat
  second : Nat
  micro : Nat
  offset : Option Int
deriving DecidableEq

namespace Moment

open Number Date

def midnight (d : Date) : Moment := ⟨d, 0, 0, 0, 0, none⟩

/-- An offset in microseconds. Its seconds are written if there is more than minutes. -/
def offsetChars (offset : Int) : List Char :=
  let n := offset.natAbs / 1000000
  let micro := offset.natAbs % 1000000
  (if offset < 0 then '-' else '+') :: padded 2 (n / 3600) ++ ':' :: padded 2 (n / 60 % 60) ++
    (if n % 60 = 0 ∧ micro = 0 then [] else ':' :: padded 2 (n % 60)) ++
    (if micro = 0 then [] else '.' :: padded 6 micro)

def timeChars (m : Moment) : List Char :=
  padded 2 m.hour ++ ':' :: padded 2 m.minute ++ ':' :: padded 2 m.second ++
    (if m.micro = 0 then [] else '.' :: padded 6 m.micro)

def charsWith (separator : Char) (m : Moment) : List Char :=
  m.date.chars ++ separator :: m.timeChars ++
    (match m.offset with
     | none => []
     | some offset => offsetChars offset)

def text (m : Moment) : String := String.ofList (charsWith 'T' m)

def microOf (digits : List Nat) : Nat :=
  let kept := digits.take 6
  Text.ofDigits 10 kept * Nat.pow 10 (6 - kept.length)

def fraction? : List Char → Option (Nat × List Char)
  | '.' :: cs | ',' :: cs =>
    match takeDigits cs with
    | ([], _) => none
    | (ds, rest) => some (microOf ds, rest)
  | cs => some (0, cs)

def colon? : List Char → Option (List Char) := past? ':'

/-- Seconds and fraction, if a colon announces them. -/
def seconds? : List Char → Option (Nat × Nat × List Char)
  | ':' :: cs => do
    let (second, cs) ← fixed? 2 cs
    let (micro, cs) ← fraction? cs
    if second < 60 then some (second, micro, cs) else none
  | cs => some (0, 0, cs)

def minusSign : Char := Char.ofNat 0x2212

def offsetSign? (c : Char) : Option Int :=
  if c = '+' then some 1 else if c = '-' ∨ c = minusSign then some (-1) else none

/-- The offset at the end of a text: nothing, `Z`, or hours and minutes below a day. -/
def offset? : List Char → Option (Option Int)
  | [] => some none
  | c :: cs =>
    if c = 'Z' ∨ c = 'z' then (if cs.isEmpty then some (some 0) else none)
    else do
      let sign ← offsetSign? c
      let (hours, cs) ← fixed? 2 cs
      let (minutes, cs) ← fixed? 2 ((colon? cs).getD cs)
      if cs.isEmpty ∧ hours < 24 ∧ minutes < 60 then
        some (some (sign * ((hours * 60 + minutes) * 60000000 : Nat)))
      else none

def ofTime? (date : Date) (cs : List Char) : Option Moment := do
  let (hour, cs) ← fixed? 2 cs
  let cs ← colon? cs
  let (minute, cs) ← fixed? 2 cs
  let (second, micro, cs) ← seconds? cs
  let offset ← offset? cs
  if hour < 24 ∧ minute < 60 then some ⟨date, hour, minute, second, micro, offset⟩ else none

def isSeparator (c : Char) : Bool := c == 'T' || c == 't' || c == ' ' || c == '_'

def ofText? (s : String) : Option Moment := do
  let (date, rest) ← Date.take? s.toList
  match rest with
  | c :: time => if isSeparator c then ofTime? date time else none
  | [] => none

end Moment

end ModelStore
