import ModelStore.Number.Numeral
import ModelStore.Text.Cut
import ModelStore.Text.Percent
import ModelStore.Value.Basic

/-! Reading JSON text. A number with a point or an exponent is binary, any other is a whole
number of at most 4300 digits; `NaN` and `Infinity` are read too. Of a repeated key the
last value counts, at the place of the first. Half a surrogate pair becomes the
replacement character. -/

namespace ModelStore.Json

open Number Text

def isSpace (c : Char) : Bool := c == ' ' || c == '\t' || c == '\n' || c == '\r'

def skip (cs : List Char) : List Char := cs.dropWhile isSpace

def unit? (a b c d : Char) : Option Nat := do
  let a ← hexValue? a
  let b ← hexValue? b
  let c ← hexValue? c
  let d ← hexValue? d
  some (((a * 16 + b) * 16 + c) * 16 + d)

def escaped? (c : Char) : Option Char :=
  if c = '\x22' ∨ c = '\\' ∨ c = '/' then some c
  else if c = 'b' then some '\x08'
  else if c = 'f' then some '\x0c'
  else if c = 'n' then some '\n'
  else if c = 'r' then some '\r'
  else if c = 't' then some '\t'
  else none

def isHighHalf (n : Nat) : Bool := 0xD800 ≤ n && n < 0xDC00

def isLowHalf (n : Nat) : Bool := 0xDC00 ≤ n && n < 0xE000

/-- What an unfinished surrogate pair adds to the text read so far. -/
def flush (half : Option Nat) (acc : List Char) : List Char :=
  if half.isSome then replacement :: acc else acc

/-- The text up to the closing mark. `half` is the first half of a surrogate pair just
read, `acc` the characters before it, the last first. -/
def string? (half : Option Nat) (acc : List Char) : List Char → Option (String × List Char)
  | [] => none
  | '\\' :: 'u' :: a :: b :: c :: d :: rest =>
    match unit? a b c d with
    | none => none
    | some n =>
      match half with
      | some high =>
        if isLowHalf n then
          string? none (Char.ofNat (0x10000 + (high - 0xD800) * 0x400 + (n - 0xDC00)) :: acc) rest
        else if isHighHalf n then string? (some n) (replacement :: acc) rest
        else string? none (Char.ofNat n :: replacement :: acc) rest
      | none =>
        if isHighHalf n then string? (some n) acc rest
        else if isLowHalf n then string? none (replacement :: acc) rest
        else string? none (Char.ofNat n :: acc) rest
  | '\\' :: e :: rest =>
    match escaped? e with
    | some c => string? none (c :: flush half acc) rest
    | none => none
  | c :: rest =>
    if c = '\x22' then some (String.ofList (flush half acc).reverse, rest)
    else if c.toNat < 0x20 ∨ c = '\\' then none
    else string? none (c :: flush half acc) rest

/-- Digits after a point; none when there is no point or no digit. -/
def fraction? : List Char → Option (List Nat × List Char)
  | '.' :: cs =>
    match takeDigits cs with
    | ([], _) => none
    | r => some r
  | _ => none

def power? : List Char → Option (Int × List Char)
  | [] => none
  | c :: cs => if c = 'e' ∨ c = 'E' then exponent? (c :: cs) else none

def wholeDigits? (cs : List Char) : Option (List Nat × List Char) :=
  match cs with
  | '0' :: rest => some ([0], rest)
  | _ =>
    match takeDigits cs with
    | ([], _) => none
    | r => some r

def unsigned? (neg : Bool) (cs : List Char) : Option (Value × List Char) :=
  match wholeDigits? cs with
  | none => none
  | some (whole, rest) =>
    match fraction? rest, power? rest with
    | none, none =>
      if digitLimit < whole.length then none
      else some (.int (signed neg (ofDigits 10 whole)), rest)
    | none, some (e, rest) => some (.float (Binary64.ofDecimal neg (ofDigits 10 whole) e), rest)
    | some (frac, rest), _ =>
      let (e, rest) := (power? rest).getD (0, rest)
      some (.float (Binary64.ofDecimal neg (ofDigits 10 (whole ++ frac)) (e - frac.length)), rest)

def word? (word : List Char) (v : Value) (cs : List Char) : Option (Value × List Char) :=
  (afterLeading? word cs).map (v, ·)

def bare? (cs : List Char) : Option (Value × List Char) :=
  match cs with
  | 'n' :: rest => word? ['u', 'l', 'l'] .null rest
  | 't' :: rest => word? ['r', 'u', 'e'] (.bool true) rest
  | 'f' :: rest => word? ['a', 'l', 's', 'e'] (.bool false) rest
  | 'N' :: rest => word? ['a', 'N'] (.float Binary64.nan) rest
  | 'I' :: rest => word? "nfinity".toList (.float (Binary64.infinity false)) rest
  | '-' :: 'I' :: rest => word? "nfinity".toList (.float (Binary64.infinity true)) rest
  | '-' :: rest => unsigned? true rest
  | _ => unsigned? false cs

/-- Why a text is not read. -/
inductive ReadFault where
  | malformed
  | tooDeep
deriving DecidableEq

def orMalformed {α : Type} : Option (α × List Char) → Except ReadFault (α × List Char)
  | some r => .ok r
  | none => .error .malformed

mutual

/-- A value at the front of a text. Brackets may be nested to a depth; the fuel bounds nesting
and siblings together. -/
def value (depth : Nat) : Nat → List Char → Except ReadFault (Value × List Char)
  | 0, _ => .error .malformed
  | fuel + 1, cs =>
    match skip cs with
    | [] => .error .malformed
    | '[' :: rest =>
      if depth = 0 then .error .tooDeep
      else
        match skip rest with
        | ']' :: rest => .ok (.array [], rest)
        | rest => (elements (depth - 1) fuel rest).map fun r => (.array r.1, r.2)
    | '\x7b' :: rest =>
      if depth = 0 then .error .tooDeep
      else
        match skip rest with
        | '\x7d' :: rest => .ok (.object [], rest)
        | rest => (members (depth - 1) fuel rest).map fun r => (.object (Entries.ofList r.1), r.2)
    | '\x22' :: rest => orMalformed ((string? none [] rest).map fun r => (.str r.1, r.2))
    | cs => orMalformed (bare? cs)

def elements (depth : Nat) : Nat → List Char → Except ReadFault (List Value × List Char)
  | 0, _ => .error .malformed
  | fuel + 1, cs => do
    let (v, rest) ← value depth fuel cs
    match skip rest with
    | ',' :: rest => (elements depth fuel rest).map fun r => (v :: r.1, r.2)
    | ']' :: rest => .ok ([v], rest)
    | _ => .error .malformed

def members (depth : Nat) :
    Nat → List Char → Except ReadFault (List (String × Value) × List Char)
  | 0, _ => .error .malformed
  | fuel + 1, cs =>
    match skip cs with
    | '\x22' :: rest => do
      let (key, rest) ← orMalformed (string? none [] rest)
      match skip rest with
      | ':' :: rest => do
        let (v, rest) ← value depth fuel rest
        match skip rest with
        | ',' :: rest => (members depth fuel rest).map fun r => ((key, v) :: r.1, r.2)
        | '\x7d' :: rest => .ok ([(key, v)], rest)
        | _ => .error .malformed
      | _ => .error .malformed
    | _ => .error .malformed

end

def read (depth : Nat) (cs : List Char) : Except ReadFault Value := do
  let (v, rest) ← value depth (cs.length + 1) cs
  if (skip rest).isEmpty then .ok v else .error .malformed

def read? (s : String) : Option Value := (read s.length s.toList).toOption

end ModelStore.Json
