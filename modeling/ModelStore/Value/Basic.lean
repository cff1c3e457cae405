import ModelStore.Calendar.Moment
import ModelStore.Model.Property
import ModelStore.Number.Decimal
import ModelStore.Pattern.Basic
import ModelStore.Value.Uuid

/-! The values that model data, filters and documents are made of. Scalars are the JSON
ones and those that only model data has: dates, moments, identifiers, decimal numbers,
compiled patterns and native types. Above them stand arrays, tuples, objects with their
entries in order, and records, which are instances of a model. Property and index
declarations that have been checked already may stand inside raw definitions. -/

namespace ModelStore

/-- A type of the host given in place of a property type name. -/
inductive NativeType where
  | text | boolean | integer | float | decimal | moment | date | list | tuple | mapping
  | anything | bytes | set
deriving DecidableEq

inductive Scalar where
  | null
  | bool (b : Bool)
  | int (n : Int)
  | float (x : Binary64)
  | str (s : String)
  | date (d : Date)
  | moment (m : Moment)
  | uuid (u : Uuid)
  | decimal (d : Decimal)
  | pattern (p : Pattern)
  | native (t : NativeType)
deriving DecidableEq

inductive Value where
  | scalar (s : Scalar)
  | array (items : List Value)
  | tuple (items : List Value)
  | object (fields : List (String × Value))
  | record (fields : List (String × Value))
  | property (p : Property)
  | index (i : IndexDeclaration)

abbrev Fields := Entries Value

namespace Value

@[match_pattern] abbrev null : Value := scalar .null
@[match_pattern] abbrev bool (b : Bool) : Value := scalar (.bool b)
@[match_pattern] abbrev int (n : Int) : Value := scalar (.int n)
@[match_pattern] abbrev float (x : Binary64) : Value := scalar (.float x)
@[match_pattern] abbrev str (s : String) : Value := scalar (.str s)

instance : Inhabited Value := ⟨null⟩

def isNull : Value → Bool
  | null => true
  | _ => false

def fields? : Value → Option Fields
  | object fields => some fields
  | _ => none

/-- The elements of an array or a tuple. -/
def items? : Value → Option (List Value)
  | array items => some items
  | tuple items => some items
  | _ => none

def str? : Value → Option String
  | str s => some s
  | _ => none

/-- A field of an object; none for an absent field and for other values. -/
def get? (v : Value) (key : String) : Option Value :=
  match v with
  | object fields => Entries.get? fields key
  | _ => none

/-- Null, false, zero and everything empty count as nothing. -/
def truthy : Value → Bool
  | null => false
  | bool b => b
  | int n => n != 0
  | float x => x.magnitude != 0
  | str s => s ≠ ""
  | scalar (.decimal d) => !d.isZero
  | array items => !items.isEmpty
  | tuple items => !items.isEmpty
  | object fields => !fields.isEmpty
  | _ => true

def ofOption : Option Value → Value
  | some v => v
  | none => null

def ofText? : Option String → Value
  | some s => str s
  | none => null

/-- The name of a value's type, as messages give it. -/
def typeName : Value → String
  | null => "NoneType"
  | bool _ => "bool"
  | int _ => "int"
  | float _ => "float"
  | str _ => "str"
  | scalar (.date _) => "date"
  | scalar (.moment _) => "datetime"
  | scalar (.uuid _) => "UUID"
  | scalar (.decimal _) => "Decimal"
  | scalar (.pattern _) => "Pattern"
  | scalar (.native _) => "type"
  | array _ => "list"
  | tuple _ => "tuple"
  | object _ => "dict"
  | record _ => "Model"
  | property _ => "PropertyDefinition"
  | index _ => "IndexDefinition"

end Value

end ModelStore
