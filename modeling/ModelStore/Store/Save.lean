import ModelStore.Store.Write

/-! Saving instances: the write that the data calls for. Data without an id is inserted;
data with one replaces or updates the document of that id, or creates it. -/

namespace ModelStore.Save

structure Saved where
  fields : Fields
  isNew : Bool

def idOf (h : Handle) (values : Fields) : Value := Value.ofOption (Entries.get? values h.idName)

/-- The data of a new instance, with the id and the revision it was given. -/
def withWritten (h : Handle) (values : Fields) (w : Written) : Fields :=
  Entries.set (Entries.set values h.idName w.id) "_rev" w.rev

def inserted (h : Handle) (values : Fields) : Program Fields := do
  let w ← Write.insert h (.object values)
  pure (withWritten h values w)

def created (h : Handle) (values : Fields) : Program Saved := do
  let fields ← inserted h values
  pure ⟨fields, true⟩

def save (h : Handle) (data : Value) : Program Fields := do
  let values ← Program.ofExcept (Mapper.plainData data)
  let id := idOf h values
  if id.isNull then inserted h values else Write.replace h id (.object values)

/-- Merges into the stored instance, or creates one. -/
def update (h : Handle) (data : Value) : Program Saved := do
  let values ← Program.ofExcept (Mapper.plainData data)
  let id := idOf h values
  if id.isNull then created h values
  else
    (Write.merge h id (.object values)).andThen fun
      | .ok fields => pure ⟨fields, false⟩
      | .error f => if f.isNotFound then created h values else Program.fail f

/-- The revision of a stored document, read without its body; none without an entity tag. -/
def revision (h : Handle) (id : Value) : Program (Option String) := do
  let answer ← Program.answer (.head h.database id.text)
  pure answer.revision?

def noDocument {α : Type} (f : Fault) : Program (Option α) :=
  if f.isNotFound then pure none else Program.fail f

/-- Replaces the stored instance, or creates it when there is none. -/
def replace (h : Handle) (data : Value) : Program Saved := do
  let values ← Program.ofExcept (Mapper.plainData data)
  let id := idOf h values
  let rev ← if id.isNull then pure none else (revision h id).rescue noDocument
  if rev.isSome then do
    let fields ← Write.replace h id (.object values)
    pure ⟨fields, false⟩
  else created h values

/-- A fault for an id without a document, told by the model. -/
def unknownId (h : Handle) (id : Value) (f : HttpFault) : HttpFault :=
  ⟨.notFound, "No instance with id " ++ id.text ++ " found for " ++ h.name, f.status, f.error,
    f.reason, some h.name, some id.text⟩

/-- The current revision of an instance, which must be there. -/
def currentRevision (h : Handle) (id : Value) : Program String := do
  let rev ← (revision h id).retell fun f => if f.kind = .notFound then unknownId h id f else f
  match rev with
  | some rev => pure rev
  | none => Program.fail (.protocol (.revisionMissing h.name id) none)

end ModelStore.Save
