import ModelStore.Store.Write

/-! Writes of many documents in one request. The store answers with one entry for each
document, in order; an entry with an error stands for a document that was not written.
Any such entry makes the whole write a failure, although the others stay written. -/

namespace ModelStore.Bulk

def failures : List Value → Except Fault (List Value)
  | [] => .ok []
  | entry :: rest => do
    let fields ← entry.fieldsFor "get"
    let others ← failures rest
    .ok (if (Value.ofOption (Entries.get? fields "error")).truthy then entry :: others else others)

def accepted (model : String) (entries : List Value) : Except Fault (List Value) := do
  let failed ← failures entries
  if failed.isEmpty then .ok entries else .error (.writesFailed model failed entries)

def send (h : Handle) (docs : List Value) : Program (List Value) := do
  match ← Program.request (.bulk h.database docs) with
  | .array entries => Program.ofExcept (accepted h.name entries)
  | _ => Program.fail (.protocol .bulkNotList none)

/-- Writes every item of model data as a whole document. Nothing is sent if an item cannot
be a document. -/
def replace (h : Handle) (data : Value) : Program (List Value) := do
  let items ← Program.ofExcept data.members
  let docs ← Program.ofExcept (items.mapM (Mapper.ofHandle h).toDoc)
  send h (docs.map .object)

/-- One field of a patch; null takes the field out. -/
def patchField (doc : Value) (e : String × Value) : Except Fault Value :=
  match doc with
  | .object fields =>
    .ok (.object (if e.2.isNull then Entries.erase fields e.1 else Entries.set fields e.1 e.2))
  | .array _ => .error (.shape .wrongType)
  | v =>
    if e.2.isNull then .error (.shape (.memberMissing v.typeName "pop"))
    else .error (.shape .wrongType)

def patched (patch : Fields) (doc : Value) : Except Fault Value := patch.foldlM patchField doc

/-- The patch that model data makes; the id is not part of it. -/
def patchOf (h : Handle) (data : Value) : Except Fault Fields := do
  let fields ← Mapper.plainData data
  let patch := Entries.erase fields h.idName
  if Value.fieldsSignal patch then .error (.shape .wrongValue) else .ok (Value.storedFields patch)

/-- Writes a patch over every document that a filter lets through. -/
def update (pageSize : Nat) (h : Handle) (filter data : Value) : Program Nat := do
  let docs ← Query.resolve pageSize h filter none
  if docs.isEmpty then pure 0
  else do
    let patch ← Program.ofExcept (patchOf h data)
    let docs ← Program.ofExcept (docs.mapM (patched patch))
    let entries ← send h docs
    pure entries.length

end ModelStore.Bulk
