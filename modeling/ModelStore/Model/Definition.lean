import ModelStore.Value.Basic

/-! Model definitions: a name, declared properties, declared indexes, and where the
documents of the model are kept. The first property marked as id holds the document id;
without one the id property is called `id`. -/

namespace ModelStore

/-- Settings of one model. A selector replaces the discriminator as the mark of the
model's documents. -/
structure ModelSettings where
  database : Option String
  modelIndex : Option String
  modelSelector : Option Fields

def ModelSettings.default : ModelSettings := ⟨none, none, none⟩

structure ModelDefinition where
  name : String
  properties : Entries Property
  indexes : Entries IndexDeclaration
  settings : ModelSettings

namespace ModelDefinition

def idName (d : ModelDefinition) : String :=
  match d.properties.find? fun e => e.2.id with
  | some (name, _) => name
  | none => "id"

def idIsNumeric (d : ModelDefinition) : Bool :=
  match Entries.get? d.properties d.idName with
  | some p => p.type = .number
  | none => false

def dateFields (d : ModelDefinition) : List String :=
  (d.properties.filter fun e => e.2.type = .date).map Prod.fst

def indexedProperties (d : ModelDefinition) : List String :=
  (d.properties.filter fun e => e.2.index).map Prod.fst

end ModelDefinition

structure Handle where
  definition : ModelDefinition
  database : String
  discriminator : Option String
  modelSelector : Option Fields

namespace Handle

def name (h : Handle) : String := h.definition.name

def idName (h : Handle) : String := h.definition.idName

/-- The discriminator, unless it is empty. -/
def mark? (h : Handle) : Option String := h.discriminator.filter (· ≠ "")

end Handle

end ModelStore
