import ModelStore.Model.Definition
import ModelStore.Text.Cut

/-! Dotted paths below the declared properties of a model. Where an array is followed by
a further name, the selector must enter its elements; a path may say so itself by the
same word, which is then taken once. -/

namespace ModelStore.Selector

def elemMatch : String := "$elemMatch"

def resolveBelow (p : Property) : List String → Option (List String)
  | [] => some []
  | name :: rest =>
    if p.isArray then
      if name = elemMatch then
        match rest with
        | [] => some [elemMatch]
        | next :: rest =>
          match p.child? next with
          | some q => (resolveBelow q rest).map fun path => elemMatch :: next :: path
          | none => none
      else
        match p.child? name with
        | some q => (resolveBelow q rest).map fun path => elemMatch :: name :: path
        | none => none
    else
      match p.child? name with
      | some q => (resolveBelow q rest).map fun path => name :: path
      | none => none

/-- The keys from the outside in; none when a name on the way is not declared. -/
def resolveNames (d : ModelDefinition) : List String → Option (List String)
  | [] => none
  | first :: rest =>
    match Entries.get? d.properties first with
    | some p => (resolveBelow p rest).map (first :: ·)
    | none => none

def resolvePath (d : ModelDefinition) (path : String) : Option String :=
  (resolveNames d (Text.cut '.' path)).map (Text.join '.')

def isDotted (path : String) : Bool := path.toList.contains '.'

end ModelStore.Selector
