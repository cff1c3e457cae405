import ModelStore.Index.Field
import ModelStore.Model.Definition

/-! The indexes that a model wants: one for each indexed property, one for the
discriminator, and the declared ones, a later one of the same name taking the place of an
earlier. Each lives in a design document of its own, whose name begins with the model's
prefix, so that a later migration finds it. -/

namespace ModelStore

def designPrefix : String := "_design/"

/-- The two words that mark the design documents of models. -/
structure Naming where
  modelPrefix : String
  propertyPrefix : String

namespace Naming

def default : Naming := ⟨"LBModel", "LBIndex"⟩

/-- How the design documents of a model begin. -/
def modelStem (n : Naming) (model : String) : String :=
  n.modelPrefix ++ "__" ++ model ++ "__" ++ n.propertyPrefix ++ "__"

def designName (n : Naming) (model index : String) : String := n.modelStem model ++ index

end Naming

structure Candidate where
  name : String
  fields : List IndexField
  design : String

namespace Candidate

def designId (c : Candidate) : String := designPrefix ++ c.design

def direction (c : Candidate) : Direction :=
  match c.fields with
  | [] => .asc
  | first :: _ => first.direction

def toRequest (c : Candidate) : Fields :=
  [("index", .object [("fields", .array (c.fields.map IndexField.toValue))]),
    ("ddoc", .str c.design), ("name", .str c.name), ("type", .str "json")]

def ofFields (n : Naming) (model index : String) (discriminator : Option String)
    (fields : List IndexField) : Noted Candidate := do
  let fields ← IndexField.coerce index fields
  pure ⟨index, IndexField.append discriminator fields, n.designName model index⟩

def propertyIndex (property : String) : String := property ++ "_index"

def ofDeclaration (i : IndexDeclaration) : List IndexField :=
  i.keys.map fun e => ⟨e.1, if e.2 = 1 then .asc else .desc⟩

/-- The wanted indexes by name, with the fields as they are declared. -/
def wanted (d : ModelDefinition) (discriminator : Option String) : Entries (List IndexField) :=
  let properties := d.indexedProperties.foldl
    (fun acc p => Entries.set acc (propertyIndex p) [IndexField.ascending p]) []
  let marked :=
    match discriminator.filter (· ≠ "") with
    | none => properties
    | some mark =>
      if Entries.has properties (propertyIndex mark) then properties
      else Entries.set properties (propertyIndex mark) [IndexField.ascending mark]
  d.indexes.foldl (fun acc e => Entries.set acc e.1 (ofDeclaration e.2)) marked

def all (n : Naming) (d : ModelDefinition) (discriminator : Option String) :
    Noted (Entries Candidate) :=
  (wanted d discriminator).mapM fun e => do
    let candidate ← ofFields n d.name e.1 discriminator e.2
    pure (e.1, candidate)

end Candidate

end ModelStore
