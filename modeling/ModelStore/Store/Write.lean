import ModelStore.Mapper
import ModelStore.Store.Query
import ModelStore.Value.Members

/-! Writes of single documents. The store takes a write to an existing document only with
its current revision. A conflict is told to the caller and never tried again: an insert
that meets one found a document of the same id, an update a newer revision. -/

namespace ModelStore

namespace Write

def post (h : Handle) (doc : Fields) (kind : HttpKind) (suffix : String) : Program Value :=
  (Program.request (.insert h.database doc)).retell fun f =>
    if f.kind.isConflict then
      f.withContext (some h.name) (Value.ofOption (Entries.get? doc "_id")) (some kind) suffix
    else f

/-- The id of a document, to stand in a path. -/
def idText : Value → Except Fault String
  | .str s => .ok s
  | v => .error (.shape (.memberMissing v.typeName "startswith"))

end Write

structure Written where
  id : Value
  rev : Value

/-- How an insert ended, and the caller's data after it: an object gets the id that the
store answered with. -/
structure Receipt where
  data : Value
  outcome : Except Fault Written

namespace Receipt

def refused (data : Value) (f : Fault) : Receipt := ⟨data, .error f⟩

def withId (idName : String) (id : Value) : Value → Value
  | .object fields => .object (Entries.set fields idName id)
  | v => v

def ofAnswer (m : Mapper) (data answer : Value) : Receipt :=
  match answer.required "id" with
  | .error f => refused data f
  | .ok stored =>
    let id := m.parseId stored
    ⟨withId m.idName id data, (answer.required "rev").map fun rev => ⟨id, rev⟩⟩

end Receipt

namespace Write

/-- Inserts a document for model data. -/
def create (h : Handle) (data : Value) : Program Receipt :=
  let m := Mapper.ofHandle h
  let posted : Program Value := do
    let doc ← Program.ofExcept (m.toDoc data)
    post h doc .duplicate "(duplicate?)"
  posted.andThen fun
    | .ok answer => pure (Receipt.ofAnswer m data answer)
    | .error f => pure (Receipt.refused data f)

def insert (h : Handle) (data : Value) : Program Written := do
  let receipt ← create h data
  Program.ofExcept receipt.outcome

/-- A stored document with the caller's fields written over its own. -/
def merged (h : Handle) (id : Value) (stored patch : Fields) : Fields :=
  Entries.set (Entries.update (Entries.erase stored "_id") patch) h.idName (.str id.text)

def current (h : Handle) (id : Value) : Program Value :=
  (Program.request (.get h.database id.text)).retell fun f =>
    if f.kind = .notFound then f.withContext (some h.name) id none "" else f

/-- Reads the document of an id, writes the data over its fields and sends it back under
the revision that was read, unless the data has a revision of its own. -/
def merge (h : Handle) (id data : Value) : Program Fields := do
  let m := Mapper.ofHandle h
  let found ← current h id
  let stored ← Program.ofExcept found.asTable
  let patch ← Program.ofExcept (Mapper.plainData data)
  let doc ← Program.ofExcept (m.toDoc (.object (merged h id stored.named patch)))
  let answer ← post h doc .stale ""
  let rev ← Program.ofExcept (answer.required "rev")
  Program.ofExcept (m.fromDoc .null (.object (Entries.set doc "_rev" rev)))

/-- Writes the data as the whole document of an id, and reads back what the store made of
it. -/
def replace (h : Handle) (id data : Value) : Program Fields := do
  let m := Mapper.ofHandle h
  let fields ← Program.ofExcept (Mapper.plainData data)
  let doc ← Program.ofExcept (m.toDoc (.object (Entries.set fields h.idName (.str id.text))))
  let answer ← post h doc .stale ""
  let stored ← Program.ofExcept (answer.required "id" >>= idText)
  let found ← Program.request (.get h.database stored)
  Program.ofExcept (m.fromDoc .null found)

end Write

end ModelStore
