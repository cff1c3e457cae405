import ModelStore.Filter.Basic
import ModelStore.Pattern.Inline

/-! The part of a selector that one condition becomes. A literal stands for itself; an
operator becomes an object with the store's names for it. A name that the store has no
other word for is passed on with a dollar sign in front. -/

namespace ModelStore

namespace Operator

def regexKey : String := "$regex"

/-- The store's name for the operators that it calls by another name. -/
def renamed? (name : String) : Option String :=
  if name = "inq" then some "$in"
  else if name = "nin" then some "$nin"
  else if name = "neq" then some "$ne"
  else none

def takesList (name : String) : Bool := name = "inq" || name = "nin"

def isPattern (name : String) : Bool := name = "like" || name = "nlike" || name = "regexp"

def dollar (name : String) : String :=
  match name.toList with
  | '$' :: _ => name
  | _ => "$" ++ name

def compare (name : String) (value : Value) : Except Fault Value :=
  if name = "between" then
    match value.items? with
    | some [lo, hi] => .ok (.object (Entries.set [("$gte", lo)] "$lte" hi))
    | _ => .error (.query .operandNotPair)
  else
    match renamed? name with
    | some key =>
      if takesList name then
        match value.items? with
        | some items => .ok (.object [(key, .array items)])
        | none => .error (.query (.operandNotList name))
      else .ok (.object [(key, value)])
    | none => .ok (.object [(dollar name, value)])

/-- Patterns, for the operators that take one. -/
def search? (name : String) (value : Value) (options : Option String) : Option (Noted Value) :=
  if isPattern name then
    some do
      let text ← Pattern.inline (name = "nlike") (name = "regexp") options value
      pure (.object [(regexKey, .str text)])
  else none

def fragment (name : String) (value : Value) (options : Option String) : Noted Value :=
  (search? name value options).getD (.ofExcept (compare name value))

end Operator

namespace Condition

def fragment : Condition → Noted Value
  | literal v => pure v
  | operator name value options => Operator.fragment name value options

/-- Whether the condition becomes a pattern, which the store runs over whole documents
unless the selector also names an indexed field. -/
def searches : Condition → Bool
  | literal v => (v.get? Operator.regexKey).isSome
  | operator name _ _ =>
    Operator.isPattern name || Operator.dollar name == Operator.regexKey

end Condition

end ModelStore
