import ModelStore.Url.Label.Mark

/-! The direction of the characters of a label. A label that has a character written from
right to left, or an Arabic number, must begin with a letter, have only characters that go
with the direction of that letter, and end in a letter or a number before its last marks.
The tables list inclusive ranges of code points. -/

namespace ModelStore.Label

inductive Bidi where
  | left | right | arabicNumber | number | mark | neutral
deriving DecidableEq

namespace Bidi

def rightRanges : List (Nat × Nat) :=
  [ (0x5D0, 0x5F4), (0x620, 0x64A), (0x66E, 0x66F), (0x671, 0x6D5), (0x6E5, 0x6E6),
    (0x6EE, 0x6EF), (0x6FA, 0x710), (0x712, 0x72F), (0x74D, 0x7A5), (0x7B1, 0x7EA),
    (0x7F4, 0x7F5), (0x800, 0x815), (0x81A, 0x81A), (0x824, 0x824), (0x828, 0x828),
    (0x840, 0x858), (0x860, 0x88E), (0x8A0, 0x8C9), (0xFE73, 0xFE73), (0x10800, 0x10A00),
    (0x10A10, 0x10A35), (0x10A60, 0x10AE4), (0x10B00, 0x10D23), (0x10E80, 0x10EA9),
    (0x10EB0, 0x10F45), (0x10F70, 0x10F81), (0x10FB0, 0x10FF6), (0x1E800, 0x1E8C4),
    (0x1E900, 0x1E943), (0x1E94B, 0x1E959) ]

def neutralRanges : List (Nat × Nat) :=
  [ (0x2D, 0x2D), (0xB7, 0xB7), (0x2B9, 0x2BA), (0x2C6, 0x2CF), (0x2EC, 0x2EC), (0x375, 0x375),
    (0x200C, 0x200D), (0x2E2F, 0x2E2F), (0x30FB, 0x30FB), (0xA67F, 0xA67F), (0xA717, 0xA71F),
    (0xA788, 0xA788) ]

/-- Marks of scripts that are written from left to right which count as letters. -/
def leftMarks : List Nat := [0xCBF, 0xCC6, 0x11A07, 0x11A08, 0x11C3F]

def of (n : Nat) : Bidi :=
  if isWithin [(0x30, 0x39), (0x6F0, 0x6F9)] n then number
  else if isWithin [(0x660, 0x669), (0x10D30, 0x10D39)] n then arabicNumber
  else if isWithin rightRanges n then right
  else if isWithin neutralRanges n then neutral
  else if (markClass? n).isSome ∧ n ∉ leftMarks then mark
  else left

/-- The last direction that is not that of a mark. -/
def final? (bs : List Bidi) : Option Bidi := (bs.reverse.find? fun b => b ≠ mark)

/-- A label that begins from the right has no letters from the left, and numbers of one
kind. -/
def isRightSound (bs : List Bidi) : Bool :=
  !bs.contains left && !(bs.contains number && bs.contains arabicNumber) &&
    [some right, some number, some arabicNumber].contains (final? bs)

def isLeftSound (bs : List Bidi) : Bool :=
  !bs.contains right && !bs.contains arabicNumber && [some left, some number].contains (final? bs)

def isSound (bs : List Bidi) : Bool :=
  if bs.contains right || bs.contains arabicNumber then
    match bs.head? with
    | some right => isRightSound bs
    | some left => isLeftSound bs
    | _ => false
  else true

end Bidi

end ModelStore.Label
