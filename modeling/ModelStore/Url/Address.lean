import ModelStore.Number.Numeral
import ModelStore.Text.Cut
import ModelStore.Text.Percent

/-! Network addresses in their text form. An IPv6 address has eight groups, one run of zero
groups left out, and perhaps an IPv4 tail and a scope. In brackets there may also stand an
address in the marked form of versions to come. -/

namespace ModelStore.Address

open Text Number

def isHex (c : Char) : Bool := (hexValue? c).isSome

def isGroup (cs : List Char) : Bool := 1 ≤ cs.length && cs.length ≤ 4 && cs.all isHex

def isOctet (cs : List Char) : Bool :=
  1 ≤ cs.length && cs.length ≤ 3 && cs.all isAsciiDigit &&
    (cs.length == 1 || cs.head? != some '0') && ofDigits 10 (takeDigits cs).1 ≤ 255

def isIpv4 (cs : List Char) : Bool :=
  let octets := cutChars '.' cs
  octets.length == 4 && octets.all isOctet

/-- The groups of an address, an IPv4 tail counting as two. -/
def groups? (cs : List Char) : Option (List (List Char)) :=
  let parts := cutChars ':' cs
  match parts.getLast? with
  | some last =>
    if last.contains '.' then
      if isIpv4 last then some (parts.dropLast ++ [['0'], ['0']]) else none
    else some parts
  | none => none

/-- The groups at one side of the gap; an end of the address has a single empty one. -/
def side? (parts : List (List Char)) : Option Nat :=
  if parts = [[]] then some 0 else if parts.all isGroup then some parts.length else none

def isSound (parts : List (List Char)) : Bool :=
  let inner := (parts.drop 1).dropLast
  let gap := (inner.takeWhile fun p => !p.isEmpty).length + 1
  if inner.any List.isEmpty then
    match side? (parts.take gap), side? (parts.drop (gap + 1)) with
    | some high, some low => high + low ≤ 7
    | _, _ => false
  else parts.length == 8 && parts.all isGroup

def isScoped (scope : Option (List Char)) : Bool :=
  match scope with
  | none => true
  | some s => !s.isEmpty && !s.contains '%'

def isIpv6 (cs : List Char) : Bool :=
  let (address, scope) := splitFirst '%' cs
  3 ≤ (cutChars ':' address).length && isScoped scope &&
    match groups? address with
    | some parts => isSound parts
    | none => false

def isFuture (cs : List Char) : Bool :=
  let version := (cs.drop 1).takeWhile isHex
  !version.isEmpty && (cs.drop (1 + version.length)).head? == some '.' &&
    version.length + 2 < cs.length

def isBracketed (cs : List Char) : Bool :=
  if cs.head? = some 'v' then isFuture cs else isIpv6 cs

end ModelStore.Address
