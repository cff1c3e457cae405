import ModelStore.Calendar.Unix
import ModelStore.Model.Definition
import ModelStore.Value.Members
import ModelStore.Value.Serial

/-! Model data and stored documents. A document has the id as text under `_id`, whatever
the id property is called, and carries the model's name under the discriminator, if there
is one. Fields that are null are not stored. On the way back a numeric id becomes a number
again, the declared date fields become dates or moments, and the discriminator is taken
off. -/

namespace ModelStore

structure Mapper where
  model : String
  idName : String
  idIsNumeric : Bool
  dateFields : List String
  discriminator : Option String

namespace Mapper

def ofHandle (h : Handle) : Mapper :=
  ⟨h.name, h.idName, h.definition.idIsNumeric, h.definition.dateFields, h.discriminator⟩

/-- The discriminator, unless it is empty. -/
def mark? (m : Mapper) : Option String := m.discriminator.filter (· ≠ "")

/-- The fields of model data, which is an object or an instance of a model. -/
def plainData : Value → Except Fault Fields
  | .object fields => .ok fields
  | .record fields => .ok (Value.plainFields fields)
  | .property p => .ok p.toFields
  | .index i => .ok i.toFields
  | v => .error (.notModelData v)

def withoutNulls (fields : Fields) : Fields := fields.filter fun e => !e.2.isNull

def eraseUnless (condition : Bool) (fields : Fields) (key : String) : Fields :=
  if condition then fields else Entries.erase fields key

def storeId (m : Mapper) (id : Option Value) (doc : Fields) : Fields :=
  match id with
  | none => doc
  | some .null => eraseUnless (m.idName = "_id") (Entries.erase doc m.idName) "_id"
  | some v => eraseUnless (m.idName = "_id") (Entries.set doc "_id" (.str v.text)) m.idName

def stamp (m : Mapper) (doc : Fields) : Fields :=
  match m.mark? with
  | some mark => Entries.set doc mark (.str m.model)
  | none => doc

/-- The document before its values take their stored form. -/
def layOut (m : Mapper) (source : Fields) : Fields :=
  m.stamp (m.storeId (Entries.get? source m.idName) (withoutNulls source))

def toDoc (m : Mapper) (data : Value) : Except Fault Fields := do
  let source ← plainData data
  let doc := m.layOut source
  if Value.fieldsSignal doc then .error (.shape .wrongValue) else .ok (Value.storedFields doc)

def parseId (m : Mapper) (id : Value) : Value :=
  match id with
  | .str s => if m.idIsNumeric then ((Number.integer? s).map Value.int).getD id else id
  | v => v

def momentOf? : Value → Option Moment
  | .str s => Moment.read? s
  | .int n => Moment.ofInt? n
  | .float x => Moment.ofBinary? x
  | .scalar (.decimal d) => d.toBinary64?.bind Moment.ofBinary?
  | .scalar (.date d) => some (Moment.midnight d)
  | .scalar (.moment m) => some m
  | _ => none

/-- A text of ten characters is a date; every other value is a moment. -/
def dateOf? (v : Value) : Option Scalar :=
  match v with
  | .str s =>
    if s.length = 10 then (Moment.readDate? s).map .date else (Moment.read? s).map .moment
  | v => (momentOf? v).map .moment

def parseDate (m : Mapper) (doc : Fields) (name : String) : Except Fault Fields :=
  match Entries.get? doc name with
  | none => .ok doc
  | some v =>
    if v.truthy then
      match dateOf? v with
      | some d => .ok (Entries.set doc name (.scalar d))
      | none => .error (.document (.dateUnreadable m.model name v))
    else .ok doc

/-- Whether a projection returns the id; null returns everything. -/
def returnsId (m : Mapper) (fields : Value) : Except Fault Bool :=
  if fields.isNull then .ok true else fields.holds m.idName

def restoreId (m : Mapper) (returned : Bool) (id : Value) (doc : Fields) : Fields :=
  if returned then Entries.set doc m.idName (m.parseId id) else doc

def unstamp (m : Mapper) (doc : Fields) : Fields :=
  match m.mark? with
  | some mark => Entries.erase doc mark
  | none => doc

def fromDoc (m : Mapper) (fields doc : Value) : Except Fault Fields :=
  match doc with
  | .object entries =>
    match Entries.get? entries "_id" with
    | none => .error (.document (.idMissing m.model doc))
    | some id => do
      let returned ← m.returnsId fields
      let restored := m.restoreId returned id (Entries.erase entries "_id")
      let data ← m.dateFields.foldlM m.parseDate restored
      .ok (m.unstamp data)
  | _ => .error (.document (.notObject m.model))

/-- The names that a projection goes through; null stays as it is. -/
def listNames (fields : Value) : Except Fault Value :=
  if fields.isNull then .ok .null else fields.members.map .array

def fromDocs (m : Mapper) (fields docs : Value) : Except Fault (List Fields) := do
  let names ← listNames fields
  let items ← docs.members
  items.mapM (m.fromDoc names)

end Mapper

end ModelStore
