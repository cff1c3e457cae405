/-! Compiled patterns: a source and the four flags that a pattern of the store can
express inline. -/

namespace ModelStore

structure Flags where
  ignoreCase : Bool
  multiline : Bool
  dotAll : Bool
  verbose : Bool
deriving DecidableEq

namespace Flags

/-- The letters of the flags that are set, in the order i, m, s, x. -/
def letters (f : Flags) : List Char :=
  (if f.ignoreCase then ['i'] else []) ++ (if f.multiline then ['m'] else []) ++
    (if f.dotAll then ['s'] else []) ++ (if f.verbose then ['x'] else [])

def ofLetters (cs : List Char) : Flags :=
  ⟨'i' ∈ cs, 'm' ∈ cs, 's' ∈ cs, 'x' ∈ cs⟩

theorem ofLetters_letters (f : Flags) : ofLetters f.letters = f := by
  obtain ⟨a, b, c, d⟩ := f
  cases a <;> cases b <;> cases c <;> cases d <;> decide

end Flags

structure Pattern where
  source : String
  flags : Flags
deriving DecidableEq

end ModelStore
