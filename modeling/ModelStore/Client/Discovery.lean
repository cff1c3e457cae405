import ModelStore.Client.Action
import ModelStore.Store.Query
import ModelStore.Store.Server
import ModelStore.Value.Members

/-! What a client can learn about the server and its databases, and queries of its own
making. -/

namespace ModelStore.Client

open ModelStore.Action

def ofValue (settings : Value) (registry : Entries ModelDefinition) : Except Fault Client := do
  let table ← settings.asTable
  let s ← Settings.ofValue (.object table.fields)
  .ok (ofSettings s registry)

/-- Checks that a database is there; without a name only the server address is looked at. -/
def connectTo (db : Option String) : Action Unit := do
  let c ← client
  let server ← ofExcept c.settings.serverUrl
  let _ ← ofExcept c.settings.site
  match db with
  | some db => perform (Server.connect server db)
  | none => pure ()

/-- Checks that the default database is there. -/
def connect : Action Unit := do
  let c ← client
  let db ← ofExcept c.settings.databaseName
  connectTo (some db)

/-- Connects, unless the settings put that off. -/
def start : Action Unit := do
  let c ← client
  if c.settings.lazyConnect then pure () else connect

def ping : Action Unit := perform Server.ping

def databases : Action (List Value) := perform Server.databases

def viewDocs (design name : String) (params : Value) (db : Option String) : Action Value := do
  let db ← databaseOf db
  let params ← ofExcept (if params.truthy then params.fieldsFor "items" else .ok [])
  perform (Server.view db design name params)

def queryParts (query : Value) : Except Fault Fields :=
  match query with
  | .array _ => .error (.shape .wrongType)
  | v => v.fieldsFor "pop"

def runQuery (query limit offset : Value) (numericId : Bool) (db : Option String) :
    Action (List Value) := do
  let db ← databaseOf db
  let query ← ofExcept (queryParts query)
  let c ← client
  perform (Query.fetch db ⟨c.settings.pageSize.val, limit, offset⟩ numericId query)

/-- A bare schema for a database; an entry that is there already is kept. -/
def schemas (db : String) (visited : Value) : Except Fault Fields :=
  (if visited.isNull then .ok [] else visited.fieldsFor "setdefault").map fun known =>
    if Entries.has known db then known
    else
      Entries.set known db (.object [("name", .str db),
        ("options", .object [("idInjection", .bool true), ("dbName", .str db)]),
        ("properties", .object [])])

end ModelStore.Client
