import ModelStore.Settings.Url
import ModelStore.Value.Basic

/-! A client of the store: its settings, the registered models, and the handles of the
models in use. A handle is made when its model is first used and is kept from then on,
whatever is registered later; only a migration makes it anew. -/

namespace ModelStore

structure Client where
  settings : Settings
  registry : Entries ModelDefinition
  handles : Entries Handle

namespace Client

def ofSettings (s : Settings) (registry : Entries ModelDefinition) : Client := ⟨s, registry, []⟩

/-- The mark of models for which no other is set. -/
def defaultMark : String := "loopback__model__name"

def named (name : Option String) : Option String := name.filter (· ≠ "")

def database (c : Client) (name : Option String) : Except Fault String :=
  match named name with
  | some name => .ok name
  | none => c.settings.databaseName

def markOf (c : Client) (s : ModelSettings) : String :=
  ((named s.modelIndex).or (named c.settings.modelIndex)).getD defaultMark

def registered (c : Client) (name : String) : Except Fault ModelDefinition :=
  match Entries.get? c.registry name with
  | some d => .ok d
  | none => .error (.validation (.unregistered name))

def resolve (c : Client) (name : String) : Except Fault Handle := do
  let d ← c.registered name
  let db ← c.database d.settings.database
  match d.settings.modelSelector with
  | some fields => .ok ⟨d, db, none, some fields⟩
  | none => .ok ⟨d, db, some (c.markOf d.settings), none⟩

def define (c : Client) (d : ModelDefinition) : Client :=
  { c with registry := Entries.set c.registry d.name d }

def keep (c : Client) (name : String) (h : Handle) : Client :=
  { c with handles := Entries.set c.handles name h }

end Client

end ModelStore
