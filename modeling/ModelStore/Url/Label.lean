import ModelStore.Text.Cut
import ModelStore.Url.Label.Bidi
import ModelStore.Url.Label.Case
import ModelStore.Url.Label.Composition
import ModelStore.Url.Label.Joining
import ModelStore.Url.Punycode

/-! Labels of international host names, as code points in small letters. A label is composed,
has no hyphen at its ends nor at its third and fourth place, begins with no mark, and
holds letters and, in the right surroundings, some signs; its directions must go together. -/

namespace ModelStore.Label

def greekRanges : List (Nat × Nat) :=
  [(0x370, 0x3E1), (0x3F3, 0x3FF), (0x1D26, 0x1D2A), (0x1F00, 0x1FFA), (0x2126, 0x2126),
    (0xAB65, 0xAB65)]

def hebrewRanges : List (Nat × Nat) := [(0x591, 0x5F4), (0xFB1E, 0xFB1E)]

/-- The characters of Japanese: both syllabaries and the ideographs. -/
def japaneseRanges : List (Nat × Nat) :=
  [(0x3005, 0x3005), (0x3007, 0x3007), (0x3041, 0x3096), (0x309D, 0x309E), (0x30A1, 0x30FA),
    (0x30FD, 0x30FE), (0x31F0, 0x31FF), (0x3400, 0x9FFF), (0xFA0E, 0xFA29), (0x16FE3, 0x16FE3),
    (0x16FF0, 0x16FF1), (0x1AFF0, 0x1B122), (0x1B150, 0x1B167), (0x20000, 0x3134A)]

/-- Whether a character that forbids joining stands between two letters that would join. -/
def isBetweenJoined (before after : List Nat) : Bool :=
  let side (ns : List Nat) := (ns.dropWhile isTransparent).head?
  (side before).any joinsNext && (side after).any joinsPrevious

/-- Whether a sign may stand between the characters before it, the last one first, and those
after it. -/
def fits (before : List Nat) (n : Nat) (after : List Nat) : Bool :=
  let around := before ++ after
  if n = 0x200C then before.head?.any isVirama || isBetweenJoined before after
  else if n = 0x200D then before.head?.any isVirama
  else if n = 0xB7 then before.head? == some 0x6C && after.head? == some 0x6C
  else if n = 0x375 then after.head?.any (isWithin greekRanges)
  else if n = 0x5F3 ∨ n = 0x5F4 then before.head?.any (isWithin hebrewRanges)
  else if n = 0x30FB then around.any (isWithin japaneseRanges)
  else if isWithin [(0x660, 0x669)] n then !around.any (isWithin [(0x6F0, 0x6F9)])
  else if isWithin [(0x6F0, 0x6F9)] n then !around.any (isWithin [(0x660, 0x669)])
  else false

def allFit (before : List Nat) : List Nat → Bool
  | [] => true
  | n :: rest =>
    (isLetter n && small n == [n] || fits before n rest) && allFit (n :: before) rest

def hyphen : Nat := 0x2D

def hyphensOk (ns : List Nat) : Bool :=
  (ns.drop 2).take 2 != [hyphen, hyphen] && ns.head? != some hyphen &&
    ns.getLast? != some hyphen

def isSound (ns : List Nat) : Bool :=
  !ns.isEmpty && isComposed ns && hyphensOk ns && !ns.head?.any isMark && allFit [] ns &&
    Bidi.isSound (ns.map Bidi.of)

/-- How a label in another script begins in ASCII letters. -/
def marker : List Char := ['x', 'n', '-', '-']

/-- The label that an ASCII label with the marker stands for. -/
def unmarked? (cs : List Char) : Option (List Nat) :=
  match Text.splitLast '-' cs with
  | (_, []) => none
  | (some basic, insertions) => Punycode.decode? basic insertions
  | (none, insertions) => Punycode.decode? [] insertions

/-- A label in ASCII letters and the code points that it stands for: its own, or those of
another label if it has the marker. -/
def ascii (ns : List Nat) : List Char × Option (List Nat) :=
  let cs := ns.map Char.ofNat
  match Text.afterLeading? marker cs with
  | some rest => (cs, unmarked? rest)
  | none => (cs, some ns)

/-- A sound label in small ASCII letters, of at most 63 characters. -/
def toAscii? (cs : List Char) : Option (List Char) :=
  let ns := cs.flatMap fun c => small c.toNat
  let (written, meant) :=
    if ns.all (· < 0x80) then ascii ns else (marker ++ Punycode.encode ns, some ns)
  if meant.any isSound && written.length ≤ 63 then some written else none

end ModelStore.Label
