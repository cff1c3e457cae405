import ModelStore.Model.Definition
import ModelStore.Value.Equality
import ModelStore.Value.Members

/-! Projections. A list names the fields to return and a mapping those marked true; the
id is always requested, under `_id`, so that results can be mapped. A mapping with only
false marks excludes: whole documents are requested and the named fields dropped later. -/

namespace ModelStore.Projection

/-- The names that an excluding mapping drops. -/
def excluded (fields : Value) : List String :=
  match fields with
  | .object entries => if entries.any fun e => e.2.truthy then [] else Entries.keys entries
  | _ => []

def kept (entries : Fields) : List Value :=
  (entries.filter fun e => e.2.truthy).map fun e => .str e.1

def names (fields : Value) : Except Fault (List Value) :=
  match fields with
  | .object entries => .ok (kept entries)
  | v => v.members

def addNew (projected : List Value) (name : Value) : List Value :=
  if name.elem projected then projected else projected ++ [name]

def stored (idName : String) (name : Value) : Value :=
  if name.same (.str idName) then .str "_id" else name

def project (idName : String) (names : List Value) : List Value :=
  (names ++ [Value.str "_id"]).foldl
    (fun projected name => addNew projected (stored idName name)) []

/-- The fields to request; none requests whole documents. -/
def build (h : Handle) (fields : Value) : Except Fault (Option (List Value)) :=
  if !fields.truthy || !(excluded fields).isEmpty then .ok none
  else (names fields).map fun ns => some (project h.idName ns)

/-- The names that results are restricted to; none keeps everything. -/
def listed (fields : Value) : Except Fault (Option (List Value)) :=
  if fields.truthy then (names fields).map fun ns => if ns.isEmpty then none else some ns
  else .ok none

def storedName (idName name : String) : String := if name = idName then "_id" else name

def without (dropped : List String) (fields : Fields) : Fields :=
  fields.filter fun e => !dropped.contains e.1

end ModelStore.Projection
