import ModelStore.Client.Action
import ModelStore.Index.Migration
import ModelStore.Store.Read
import ModelStore.Store.Remove

/-! Migrations of models by name, and the indexes of their databases. Each model's handle
is made anew when the migration reaches it; the models before one that fails stay
migrated. -/

namespace ModelStore.Client

open ModelStore.Action

def updateIndexes (name : String) : Action IndexPlan := do
  let h ← refresh name
  perform (Migration.migrate h false)

/-- Deletes every instance of one model and builds all of its indexes again. -/
def rebuild (name : String) : Action IndexPlan := do
  let h ← refresh name
  let c ← client
  perform do
    let _ ← Remove.all c.settings.pageSize.val (Read.limitOf c.settings) h .null
    Migration.migrate h true

/-- A model's name from a list of names; nothing else can be registered. -/
def modelName : Value → Except Fault String
  | .str name => .ok name
  | .array _ | .object _ => .error (.shape .wrongType)
  | v => .error (.validation (.unregistered v.text))

def migrateEach (migrate : String → Action IndexPlan) :
    List Value → Entries IndexPlan → Action (Entries IndexPlan)
  | [], plans => pure plans
  | v :: rest, plans => do
    let name ← ofExcept (modelName v)
    let plan ← migrate name
    migrateEach migrate rest (Entries.set plans name plan)

def modelNames (c : Client) : Value → Except Fault (List Value)
  | .null => .ok (c.registry.map fun e => .str e.1)
  | .str name => .ok [.str name]
  | v => v.members

def migrateAll (migrate : String → Action IndexPlan) (models : Value) :
    Action (Entries IndexPlan) := do
  let c ← client
  let names ← ofExcept (modelNames c models)
  migrateEach migrate names []

def autoupdate (models : Value) : Action (Entries IndexPlan) := migrateAll updateIndexes models

def automigrate (models : Value) : Action (Entries IndexPlan) := migrateAll rebuild models

/-- Every index that the store lists for a database. -/
def indexes (db : Option String) : Action Value := do
  let db ← databaseOf db
  perform (Migration.entries db)

def modelIndexes (model : String) : Action Listing :=
  onModel model fun _ h => Migration.listing h

def createIndex (model name : String) (fields : Value) : Action Value :=
  onModel model fun _ h => do
    let c ← Program.ofNoted (Migration.declared h name fields)
    Migration.create h c

def deleteIndex (model design : String) : Action Bool :=
  onModel model fun _ h => Migration.dropDesign h.database design

end ModelStore.Client
