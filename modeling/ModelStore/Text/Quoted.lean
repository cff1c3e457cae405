import ModelStore.Text.Printable

/-! Text between quotation marks, as values are shown in messages. The mark is the
apostrophe, or the double quote when the text has apostrophes and no double quotes.
The mark and the backslash are escaped, and characters without a visible form are
written by their code point. -/

namespace ModelStore.Text

def apostrophe : Char := '\x27'

def doubleQuote : Char := '\x22'

def quoteMark (cs : List Char) : Char :=
  if apostrophe ∈ cs ∧ doubleQuote ∉ cs then doubleQuote else apostrophe

/-- The lower-case hexadecimal digits of a number, at least `width` of them. -/
def hexText (width n : Nat) : List Char :=
  let digits := Nat.toDigits 16 n
  List.replicate (width - digits.length) '0' ++ digits

def escapeChar (mark c : Char) : List Char :=
  if c = mark ∨ c = '\\' then ['\\', c]
  else if c = '\n' then ['\\', 'n']
  else if c = '\r' then ['\\', 'r']
  else if c = '\t' then ['\\', 't']
  else if isPrintable c then [c]
  else if c.toNat < 0x100 then ['\\', 'x'] ++ hexText 2 c.toNat
  else if c.toNat < 0x10000 then ['\\', 'u'] ++ hexText 4 c.toNat
  else ['\\', 'U'] ++ hexText 8 c.toNat

def quote (s : String) : String :=
  let cs := s.toList
  let mark := quoteMark cs
  String.ofList (mark :: cs.flatMap (escapeChar mark) ++ [mark])

end ModelStore.Text
