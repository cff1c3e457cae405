import ModelStore.Value.Basic

/-! Merging one object into another. Where both sides hold objects under a key they are
merged in turn; otherwise the later value replaces the earlier one in its place. -/

namespace ModelStore.Selector

mutual

def mergeAt (target : Fields) (key : String) : Value → Fields
  | .object added =>
    match Entries.get? target key with
    | some (.object existing) => Entries.set target key (.object (mergeAll existing added))
    | _ => Entries.set target key (.object added)
  | v => Entries.set target key v

def mergeAll (target : Fields) : List (String × Value) → Fields
  | [] => target
  | (key, v) :: rest => mergeAll (mergeAt target key v) rest

end

def nest (keys : List String) (v : Value) : Value :=
  keys.foldr (fun key inner => .object [(key, inner)]) v

end ModelStore.Selector
