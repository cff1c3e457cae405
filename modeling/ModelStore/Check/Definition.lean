import ModelStore.Check.Property
import ModelStore.Model.Definition

/-! Model definitions from raw declarations. Parts that are empty or absent take their
defaults. An index is declared by its fields, or by a mapping that holds them under
`keys`. -/

namespace ModelStore.Check

def intEntries : List (String × Value) → Checked (List (String × Int))
  | [] => .ok []
  | (key, v) :: rest =>
    (Checked.both (Checked.inside key (int v)) (intEntries rest)).map fun r =>
      (key, r.1) :: r.2

def directionsOk (keys : Entries Int) : Checked (Entries Int) :=
  if keys.isEmpty then .complain (.rejected "index keys must name at least one field")
  else
    match (keys.filter fun e => e.2 ≠ 1 ∧ e.2 ≠ -1).map Prod.fst with
    | [] => .ok keys
    | bad =>
      .complain (.rejected ("index key directions must be 1 or -1: [" ++
        separated (bad.map Text.quote) ++ "]"))

def indexKeys : Value → Checked (Entries Int)
  | .object fields => intEntries fields >>= directionsOk
  | _ => .complain .notMapping

inductive RawIndex where
  | checked (i : IndexDeclaration)
  | named (name : String) (keys : Value)

def rawIndex (name : String) (declared : Value) : Checked RawIndex :=
  match declared with
  | .index i => .ok (.checked i)
  | .object fields =>
    match (Entries.get? fields "keys").getD (.object fields) with
    | .object keys => .ok (.named name (.object keys))
    | _ => .complain (.rejected ("keys of index " ++ Text.quote name ++ " are not well defined"))
  | _ => .complain (.rejected ("index " ++ Text.quote name ++ " must be a mapping"))

def indexOf : RawIndex → Checked IndexDeclaration
  | .checked i => .ok i
  | .named name keys => (Checked.inside "keys" (indexKeys keys)).map fun keys => ⟨name, keys⟩

def needed {α : Type} (fields : Fields) (name : String) (check : Value → Checked α) :
    Checked α :=
  Checked.inside name <|
    match Entries.get? fields name with
    | some v => check v
    | none => .complain .missing

/-- An index in full form, with its name and its keys. -/
def fullIndex : Value → Checked IndexDeclaration
  | .object fields =>
    (Checked.both (needed fields "name" text) (needed fields "keys" indexKeys)).map fun r =>
      ⟨r.1, r.2⟩
  | .index i => .ok i
  | _ => .complain .notModel

/-- The first declaration that is no index at all is the only one reported. -/
def indexes : Value → Checked (Entries IndexDeclaration)
  | .object fields => do
    let raws ← fields.mapM fun e => (rawIndex e.1 e.2).map fun raw => (e.1, raw)
    Checked.entries (raws.map fun e => (e.1, indexOf e.2))
  | _ => .complain .notMapping

/-- A field under one of its two names, the first one first, with the name that was used. -/
def named? (fields : Fields) (first second : String) : Option (String × Value) :=
  match Entries.get? fields first with
  | some v => some (first, v)
  | none => (Entries.get? fields second).map (second, ·)

def field {α : Type} (fields : Fields) (first second : String) (fallback : α)
    (check : Value → Checked α) : Checked α :=
  match named? fields first second with
  | some (name, v) => Checked.inside name (check v)
  | none => .ok fallback

def fieldsOf : Value → Checked Fields
  | .object fields => .ok fields
  | _ => .complain .notMapping

def modelSettings : Value → Checked ModelSettings
  | .object fields =>
    (Checked.both (field fields "db" "database" none (optional text))
      (Checked.both (field fields "modelIndex" "model_index" none (optional text))
        (field fields "modelSelector" "model_selector" none (optional fieldsOf)))).map
      fun (database, modelIndex, modelSelector) => ⟨database, modelIndex, modelSelector⟩
  | _ => .complain .notModel

def orEmpty (v : Value) : Value := if v.truthy then v else .object []

structure RawDefinition where
  name : Value
  properties : Value
  indexes : Value
  settings : Value

def definition (raw : RawDefinition) : Checked ModelDefinition :=
  (Checked.both (Checked.inside "name" (text raw.name))
    (Checked.both (Checked.inside "properties" (properties (orEmpty raw.properties)))
      (Checked.both (Checked.inside "indexes" (indexes (orEmpty raw.indexes)))
        (Checked.inside "settings" (modelSettings (orEmpty raw.settings)))))).map
    fun (name, properties, indexes, settings) => ⟨name, properties, indexes, settings⟩

end ModelStore.Check

namespace ModelStore.ModelDefinition

def build (raw : Check.RawDefinition) : Except Fault ModelDefinition :=
  match Check.definition raw with
  | .ok d => .ok d
  | .error complaints => .error (.validation (.definition raw.name.text complaints))

end ModelStore.ModelDefinition
