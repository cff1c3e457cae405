import ModelStore.Text.Case
import ModelStore.Url.Address
import ModelStore.Url.Fault
import ModelStore.Url.Label

/-! The host of a URL: an IPv4 address, an IPv6 address in brackets, a name in ASCII, or an
international name, each of whose labels is written in ASCII letters. -/

namespace ModelStore.Host

open Text

/-- Where the reading of four runs of digits stands, which any three characters divide: in a
run of some number, with a digit or without one yet. -/
abbrev Dotted := Nat × Bool

def stepDotted (c : Char) (at_ : Dotted) : List Dotted :=
  (if isAsciiDigit c then [(at_.1, true)] else []) ++
    if at_.2 && at_.1 < 3 then [(at_.1 + 1, false)] else []

def isDotted (cs : List Char) : Bool :=
  (cs.foldl (fun states c => (states.flatMap (stepDotted c)).eraseDups) [(0, false)]).contains
    (3, true)

def isInBrackets (cs : List Char) : Bool := cs.head? == some '[' && cs.getLast? == some ']'

/-- Marks that a name in ASCII may hold as they are. -/
def isNameMark (c : Char) : Bool :=
  "!$&'()*+,;=\"\x60\x7b\x7d%|\\".toList.contains c

def isStop (c : Char) : Bool :=
  c == '.' || c.toNat == 0x3002 || c.toNat == 0xFF0E || c.toNat == 0xFF61

def labels (cs : List Char) : List (List Char) × Bool :=
  let labels := cutChars '.' (cs.map fun c => if isStop c then '.' else c)
  if labels.getLast? = some [] then (labels.dropLast, true) else (labels, false)

/-- An international name in ASCII letters. -/
def nameToAscii? (cs : List Char) : Option (List Char) :=
  let (labels, ends) := labels cs
  match labels.mapM Label.toAscii? with
  | some written =>
    let name := joinChars '.' (written ++ if ends then [[]] else [])
    if !labels.isEmpty && name.length ≤ (if ends then 254 else 253) then some name else none
  | none => none

def encode (cs : List Char) : Except UrlFault (List Char) :=
  if cs.isEmpty then .ok []
  else if isDotted cs then
    if Address.isIpv4 cs then .ok cs else .error (.ipv4Unreadable (String.ofList cs))
  else if isInBrackets cs then
    let address := (cs.drop 1).dropLast
    if Address.isIpv6 address then .ok address else .error (.ipv6Unreadable (String.ofList cs))
  else if cs.all fun c => c.toNat < 0x80 then
    .ok (encodeKeeping (fun c => isUnreserved c || isNameMark c) (cs.map Text.lower))
  else
    match nameToAscii? cs with
    | some name => .ok name
    | none => .error (.nameUnreadable (String.ofList cs))

end ModelStore.Host
