import ModelStore.Text.Cut
import ModelStore.Text.Percent

/-! The fields of a query: names and values, with `&` between fields, `=` between a name and
its value, and `+` for a blank. -/

namespace ModelStore.UrlQuery

open Text

def plusForBlank (c : Char) : Char := if c = ' ' then '+' else c

def blankForPlus (c : Char) : Char := if c = '+' then ' ' else c

def encodePart (s : String) : List Char :=
  (encodeChars (fun c => isUnreserved c || c == ' ') s.toList).map plusForBlank

def encodeField (f : String × String) : List Char := encodePart f.1 ++ '=' :: encodePart f.2

def encode (fields : List (String × String)) : List Char :=
  joinChars '&' (fields.map encodeField)

def decodePart (cs : List Char) : String := String.ofList (decodeChars (cs.map blankForPlus))

def decodeField (cs : List Char) : String × String :=
  let (name, value) := splitFirst '=' cs
  (decodePart name, decodePart (value.getD []))

/-- Fields of one name stand together, at the place of the first of them. -/
def grouped (fields : List (String × String)) : List (String × String) :=
  (fields.map Prod.fst).eraseDups.flatMap fun name => fields.filter fun f => f.1 = name

def decode (cs : List Char) : List (String × String) :=
  grouped (((cutChars '&' cs).filter fun f => !f.isEmpty).map decodeField)

end ModelStore.UrlQuery
