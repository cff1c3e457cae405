import ModelStore.Mapper
import ModelStore.Selector.Order
import ModelStore.Selector.Projection
import ModelStore.Settings
import ModelStore.Store.Criteria
import ModelStore.Store.Query

/-! Reads of a model's documents, as they are stored or mapped back to model data. A
projection that excludes fields reads whole documents and drops the fields afterwards. -/

namespace ModelStore.Read

def limitOf (s : Settings) : Option Nat := s.globalLimit.map Subtype.val

def window (s : Settings) (c : Criteria) : Query.Window :=
  ⟨s.pageSize.val,
    Criteria.either c.limit (Value.ofOption ((limitOf s).map fun n => .int n)), c.offset⟩

def namesValue (names : Option (List Value)) : Value := Value.ofOption (names.map .array)

def query (h : Handle) (c : Criteria) (useIndex : Value) : Noted Query := do
  let selector ← Selector.build h c.filter
  let sort ← Noted.ofExcept (Order.build h c.order)
  let fields ← Noted.ofExcept (Projection.build h c.fields)
  pure ⟨.object selector, Value.ofOption (sort.map Order.toValue), namesValue fields, useIndex⟩

def documents (s : Settings) (h : Handle) (c : Criteria) (useIndex : Value) :
    Program (List Value) := do
  let q ← Program.ofNoted (query h c useIndex)
  Query.fetch h.database (window s c) h.definition.idIsNumeric q.body

def dropFrom (dropped : List String) (doc : Value) : Except Fault Value :=
  (doc.fieldsFor "items").map fun fields => .object (Projection.without dropped fields)

/-- Documents as they are stored, less the excluded fields. -/
def asStored (h : Handle) (fields : Value) (docs : List Value) : Except Fault (List Value) :=
  match (Projection.excluded fields).map (Projection.storedName h.idName) with
  | [] => .ok docs
  | dropped => docs.mapM (dropFrom dropped)

def asData (h : Handle) (fields : Value) (docs : List Value) : Except Fault (List Fields) :=
  let m := Mapper.ofHandle h
  match Projection.excluded fields with
  | [] => do
    let names ← Projection.listed fields
    m.fromDocs (namesValue names) (.array docs)
  | dropped =>
    (m.fromDocs .null (.array docs)).map fun found => found.map (Projection.without dropped)

def raw (s : Settings) (h : Handle) (c : Criteria) (useIndex : Value) :
    Program (List Value) := do
  let docs ← documents s h c useIndex
  Program.ofExcept (asStored h c.fields docs)

def all (s : Settings) (h : Handle) (c : Criteria) (useIndex : Value) :
    Program (List Fields) := do
  let docs ← documents s h c useIndex
  Program.ofExcept (asData h c.fields docs)

def count (s : Settings) (h : Handle) (filter : Value) : Program Nat := do
  let docs ← raw s h (Criteria.ofFilter filter (.array [.str h.idName])) .null
  pure docs.length

def first : List Fields → Option Fields
  | [] => none
  | fields :: _ => some fields

/-- The first document that the model's own selector and the id pick out. -/
def bySelector (s : Settings) (h : Handle) (id : Value) : Program (Option Fields) := do
  let found ← all s h ⟨.object [(h.idName, id)], .null, .null, .int 1, .null⟩ .null
  pure (first found)

def marked (h : Handle) (doc : Value) : Except Fault (Option Fields) := do
  let fields ← doc.fieldsFor "get"
  let mark := Value.ofOption (h.discriminator.bind (Entries.get? fields))
  if mark.same (.str h.name) then ((Mapper.ofHandle h).fromDoc .null doc).map some else .ok none

def byKey (h : Handle) (id : Value) : Program (Option Fields) :=
  (Program.request (.get h.database id.text)).andThen fun
    | .ok doc => Program.ofExcept (marked h doc)
    | .error f => if f.isNotFound then pure none else Program.fail f

/-- The instance of an id; none if there is no such document of the model. -/
def byId (s : Settings) (h : Handle) (id : Value) : Program (Option Fields) :=
  if h.modelSelector.isSome then bySelector s h id else byKey h id

end ModelStore.Read
