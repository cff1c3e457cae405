import ModelStore.Text.Digit

/-! Percent-encoding of text as UTF-8 bytes. `encode` keeps a class of characters and
writes every byte of the others as a percent sign and two upper-case hexadecimal digits;
`decode` reads such bytes back and leaves all else as it is. Bytes that are not UTF-8
decode to the replacement character, one for each longest faulty beginning. -/

namespace ModelStore.Text

def upperHex (n : Nat) : Char :=
  if n < 10 then Char.ofNat (0x30 + n) else Char.ofNat (0x37 + n)

def hexValue? (c : Char) : Option Nat :=
  if '0' ≤ c ∧ c ≤ '9' then some (c.toNat - 0x30)
  else if 'A' ≤ c ∧ c ≤ 'F' then some (c.toNat - 0x37)
  else if 'a' ≤ c ∧ c ≤ 'f' then some (c.toNat - 0x57)
  else none

def utf8 (c : Char) : List Nat :=
  let n := c.toNat
  if n < 0x80 then [n]
  else if n < 0x800 then [0xC0 + n / 0x40, 0x80 + n % 0x40]
  else if n < 0x10000 then [0xE0 + n / 0x1000, 0x80 + n / 0x40 % 0x40, 0x80 + n % 0x40]
  else [0xF0 + n / 0x40000, 0x80 + n / 0x1000 % 0x40, 0x80 + n / 0x40 % 0x40, 0x80 + n % 0x40]

def percentByte (b : Nat) : List Char :=
  ['%', upperHex (b / 16), upperHex (b % 16)]

def percentChar (keep : Char → Bool) (c : Char) : List Char :=
  if keep c then [c] else (utf8 c).flatMap percentByte

def encodeChars (keep : Char → Bool) (cs : List Char) : List Char :=
  cs.flatMap (percentChar keep)

/-- Letters, digits and the marks that never need encoding. -/
def isUnreserved (c : Char) : Bool :=
  c.isAlphanum || c == '_' || c == '.' || c == '-' || c == '~'

/-- Encodes everything but unreserved characters. -/
def encode (s : String) : String :=
  String.ofList (encodeChars isUnreserved s.toList)

def replacement : Char := Char.ofNat 0xFFFD

/-- How many continuation bytes a leading byte announces, the bits that it carries itself,
and the least and greatest value of the first continuation byte. -/
def leading? (b : Nat) : Option (Nat × Nat × Nat × Nat) :=
  if 0xC2 ≤ b ∧ b < 0xE0 then some (1, b - 0xC0, 0x80, 0xBF)
  else if 0xE0 ≤ b ∧ b < 0xF0 then
    some (2, b - 0xE0, if b = 0xE0 then 0xA0 else 0x80, if b = 0xED then 0x9F else 0xBF)
  else if 0xF0 ≤ b ∧ b < 0xF5 then
    some (3, b - 0xF0, if b = 0xF0 then 0x90 else 0x80, if b = 0xF4 then 0x8F else 0xBF)
  else none

/-- Bytes to characters. `pending` is the number of continuation bytes still to come for
the character whose bits so far are `bits`; `lo` and `hi` bound the next of them. -/
def utf8Chars : (pending bits lo hi : Nat) → List Nat → List Char
  | 0, _, _, _, [] => []
  | _ + 1, _, _, _, [] => [replacement]
  | pending, bits, lo, hi, b :: bs =>
    if 0 < pending ∧ lo ≤ b ∧ b ≤ hi then
      let bits := bits * 0x40 + (b - 0x80)
      if pending = 1 then Char.ofNat bits :: utf8Chars 0 0 0 0 bs
      else utf8Chars (pending - 1) bits 0x80 0xBF bs
    else
      let broken := if 0 < pending then [replacement] else []
      if b < 0x80 then broken ++ Char.ofNat b :: utf8Chars 0 0 0 0 bs
      else
        match leading? b with
        | some (more, own, lo, hi) => broken ++ utf8Chars more own lo hi bs
        | none => broken ++ replacement :: utf8Chars 0 0 0 0 bs

def ofUtf8 (bytes : List Nat) : List Char :=
  utf8Chars 0 0 0 0 bytes

/-- The bytes of a percent-encoded text, each character outside ASCII standing for itself. -/
def percentBytes : List Char → List (Nat ⊕ Char)
  | [] => []
  | '%' :: h :: l :: rest =>
    match hexValue? h, hexValue? l with
    | some a, some b => .inl (a * 16 + b) :: percentBytes rest
    | _, _ => .inl 0x25 :: percentBytes (h :: l :: rest)
  | c :: rest => (if c.toNat < 0x80 then .inl c.toNat else .inr c) :: percentBytes rest

/-- Decodes each run of bytes between characters that stand for themselves. -/
def decodeRuns (run : List Nat) : List (Nat ⊕ Char) → List Char
  | [] => ofUtf8 run.reverse
  | .inl b :: rest => decodeRuns (b :: run) rest
  | .inr c :: rest => ofUtf8 run.reverse ++ c :: decodeRuns [] rest

def decodeChars (cs : List Char) : List Char :=
  decodeRuns [] (percentBytes cs)

def decode (s : String) : String :=
  String.ofList (decodeChars s.toList)

/-- Encodes what a URL path may not hold, keeping the percent-encoded bytes it has. -/
def encodeKeeping (keep : Char → Bool) : List Char → List Char
  | [] => []
  | '%' :: h :: l :: rest =>
    if (hexValue? h).isSome ∧ (hexValue? l).isSome then '%' :: h :: l :: encodeKeeping keep rest
    else percentChar keep '%' ++ encodeKeeping keep (h :: l :: rest)
  | c :: rest => percentChar keep c ++ encodeKeeping keep rest

end ModelStore.Text
