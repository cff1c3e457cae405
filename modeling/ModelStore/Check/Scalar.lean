import ModelStore.Check.Basic
import ModelStore.Text.Cut

/-! Checks of single values. Text must be text; whole numbers, numbers and truth values
are also read from text and from each other where nothing is lost. -/

namespace ModelStore.Check

open Number Text

def text : Value → Checked String
  | .str s => .ok s
  | _ => .complain .notText

/-- Null stands for an absent value. -/
def optional {α : Type} (check : Value → Checked α) : Value → Checked (Option α)
  | .null => .ok none
  | v => (check v).map some

/-- Takes the low lines out of a text. They must stand singly and not at an end. -/
def ungrouped? (cs : List Char) : Option (List Char) :=
  if (cutChars '_' cs).any List.isEmpty then none else some (cs.filter (· ≠ '_'))

def isZeroOrGroup (c : Char) : Bool := c == '0' || c == '_'

/-- What follows leading zeros and low lines. A digit or a minus sign may follow, and a point
may, which keeps the character before it, as does the end of the text. -/
def pastZeros? : (before : Char) → List Char → Option (List Char)
  | before, [] => some [before]
  | before, c :: cs =>
    if isZeroOrGroup c then pastZeros? c cs
    else if isAsciiDigit c || c == '-' then some (c :: cs)
    else if c == '.' then some (before :: c :: cs)
    else none

/-- Drops the leading zeros of a number that may have a minus sign. -/
def withoutZeros? : List Char → Option (List Char)
  | [] => none
  | c :: cs =>
    if c == '0' then pastZeros? c cs
    else if isAsciiDigit c || c == '-' then some (c :: cs)
    else none

/-- Drops a point that only zeros follow, at least one of them. -/
def wholePart (cs : List Char) : List Char :=
  match splitFirst '.' cs with
  | (before, some after) => if !after.isEmpty && after.all (· = '0') then before else cs
  | (_, none) => cs

def unsigned (cs : List Char) : List Char :=
  match cs with
  | '+' :: '-' :: _ => []
  | '+' :: cs => cs
  | cs => cs

/-- A whole number in its plain form: a minus sign or none, and digits that do not begin with
a zero, unless it is the only one. The sign counts for the length. -/
def plainInt (cs : List Char) : Checked Int :=
  let (neg, body) :=
    match cs with
    | '-' :: body => (true, body)
    | body => (false, body)
  let (ds, rest) := takeDigits body
  if digitLimit < ds.length + (if neg then 1 else 0) ∧ ds.head? ≠ some 0 then .complain .intTooLong
  else if rest.isEmpty ∧ (ds.length = 1 ∨ (!ds.isEmpty ∧ ds.head? ≠ some 0)) then
    .ok (signed neg (ofDigits 10 ds))
  else .complain .intUnreadable

/-- A whole number between white space, with leading zeros, with low lines in it, or with
zeros after a point. -/
def readInt (s : String) : Checked Int :=
  match withoutZeros? (unsigned (trim isWhiteSpace s.toList)) with
  | some cs =>
    let cs := wholePart cs
    plainInt ((ungrouped? cs).getD cs)
  | none => .complain .intUnreadable

def intOfBinary (x : Binary64) : Checked Int :=
  match x.trunc? with
  | none => .complain .notFinite
  | some n =>
    if !x.isIntegral then .complain .intFraction
    else if -(Nat.pow 2 63) < n ∧ n < Nat.pow 2 63 then .ok n
    else .complain .intTooLong

def intOfDecimal (d : Decimal) : Checked Int :=
  match d.fraction? with
  | none => .complain .notFinite
  | some (num, den) => if num % den = 0 then .ok (num / den) else .complain .intFraction

def int : Value → Checked Int
  | .int n => .ok n
  | .bool b => .ok (if b then 1 else 0)
  | .float x => intOfBinary x
  | .str s => readInt s
  | .scalar (.decimal d) => intOfDecimal d
  | _ => .complain .notInt

def lower (s : String) : String := String.ofList (s.toList.map Text.lower)

def readBool (s : String) : Checked Bool :=
  let word := lower s
  if word ∈ ["0", "f", "n", "no", "off", "false"] then .ok false
  else if word ∈ ["1", "t", "y", "on", "yes", "true"] then .ok true
  else .complain .boolUnreadable

def boolOfInt (n : Int) : Checked Bool :=
  if n = 0 then .ok false else if n = 1 then .ok true else .complain .boolUnreadable

/-- A number that is no whole number of 64 bits cannot be meant as a truth value. -/
def boolOfBinary (x : Binary64) : Checked Bool :=
  match intOfBinary x with
  | .ok n => boolOfInt n
  | .error _ => .complain .notBool

def bool : Value → Checked Bool
  | .bool b => .ok b
  | .int n => if -(Nat.pow 2 63) ≤ n ∧ n < Nat.pow 2 63 then boolOfInt n else .complain .notBool
  | .float x => boolOfBinary x
  | .str s => readBool s
  | .scalar (.decimal d) =>
    match d.toBinary64? with
    | some x => boolOfBinary x
    | none => .complain .notBool
  | _ => .complain .notBool

/-- A number as it is written, or infinity or no number by name. -/
def plainFloat? (cs : List Char) : Option Binary64 :=
  let (neg, body) := takeSign cs
  let word := lower (String.ofList body)
  if word = "inf" ∨ word = "infinity" then some (Binary64.infinity neg)
  else if word = "nan" then some Binary64.nan
  else (numeral? body).map fun n => Binary64.ofDecimal neg n.1 n.2

/-- A number between white space, or one with low lines in it. -/
def readFloat (s : String) : Checked Binary64 :=
  match (plainFloat? (trim isWhiteSpace s.toList)).or ((ungrouped? s.toList).bind plainFloat?) with
  | some x => .ok x
  | none => .complain .floatUnreadable

def finite (x : Binary64) : Checked Binary64 :=
  if x.isFinite then .ok x else .complain .notFloat

def float : Value → Checked Binary64
  | .float x => .ok x
  | .int n => finite (Binary64.ofInt n)
  | .bool b => .ok (Binary64.ofInt (if b then 1 else 0))
  | .str s => readFloat s
  | .scalar (.decimal d) =>
    match d.toBinary64? with
    | some x => .ok x
    | none => .complain .notFloat
  | _ => .complain .notFloat

def positive (v : Value) : Checked { n : Nat // 1 ≤ n } :=
  match int v with
  | .ok n => if h : 1 ≤ n.toNat then .ok ⟨n.toNat, h⟩ else .complain .tooSmall
  | .error cs => .error cs

end ModelStore.Check
