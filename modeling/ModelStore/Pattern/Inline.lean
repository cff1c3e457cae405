import ModelStore.Noted
import ModelStore.Text.Cut

/-! Patterns as the store takes them: one text with the flags written in front, as in
`(?im)source`. The flags i, m, s and x can be written so; others are dropped with a
remark. A pattern comes compiled, or as text, or as text of the form `/source/flags`. -/

namespace ModelStore.Pattern

def isFlag (c : Char) : Bool := c == 'i' || c == 'm' || c == 's' || c == 'x'

/-- Each expressible flag once, in the order of first mention. -/
def keptFlags (letters : List Char) : List Char :=
  letters.foldl (fun kept c => if isFlag c && !kept.contains c then kept ++ [c] else kept) []

def flagRemarks (letters : List Char) : List Warning :=
  letters.filterMap fun c =>
    if isFlag c then none else if c = 'g' then some .globalFlag else some (.unknownFlag c)

def cleanFlags (letters : List Char) : Noted (List Char) :=
  ⟨flagRemarks letters, .ok (keptFlags letters)⟩

structure Parts where
  source : List Char
  letters : List Char

def isLower (c : Char) : Bool := 'a' ≤ c && c ≤ 'z'

/-- A line break at the very end is not part of the flags. -/
def dropLineEnd (cs : List Char) : List Char :=
  match cs.getLast? with
  | some '\n' => cs.dropLast
  | _ => cs

/-- The parts of `/source/flags`; the last slash ends the source. -/
def ofSlashed? : List Char → Option Parts
  | '/' :: body =>
    match Text.splitLast '/' body with
    | (some source, tail) =>
      let letters := dropLineEnd tail
      if letters.all isLower then some ⟨source, letters⟩ else none
    | (none, _) => none
  | _ => none

/-- The source and flags of a pattern value. Only with `slashed` is text looked at for
slashes. -/
def split (slashed : Bool) : Value → Noted Parts
  | .scalar (.pattern p) => pure ⟨p.source.toList, p.flags.letters⟩
  | .str s =>
    match (if slashed then ofSlashed? s.toList else none) with
    | some parts => do
      let letters ← cleanFlags parts.letters
      pure ⟨parts.source, letters⟩
    | none => pure ⟨s.toList, []⟩
  | v => .fail (.query (.patternUnreadable v))

def withFlags (letters source : List Char) : List Char :=
  if letters.isEmpty then source else '(' :: '?' :: letters ++ ')' :: source

/-- Further flags are added to those of the pattern. `negative` puts the source into a
negated character class. -/
def inline (negative slashed : Bool) (options : Option String) (v : Value) : Noted String := do
  let parts ← split slashed v
  let extra := (options.getD "").toList
  let letters ← if extra.isEmpty then pure parts.letters else cleanFlags (parts.letters ++ extra)
  let source := if negative then '[' :: '^' :: parts.source ++ [']'] else parts.source
  pure (String.ofList (withFlags letters source))

end ModelStore.Pattern
