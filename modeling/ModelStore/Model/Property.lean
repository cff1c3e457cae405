import ModelStore.Entries

/-! Declared properties of a model. An object property describes its fields and an array
property the shape of its elements; both form a tree along which dotted paths are
resolved. An array has no fields of its own: a name below it names a field of its
elements. -/

namespace ModelStore

inductive PropertyType where
  | string | number | boolean | date | object | array | any
deriving DecidableEq

namespace PropertyType

def name : PropertyType → String
  | string => "string"
  | number => "number"
  | boolean => "boolean"
  | date => "date"
  | object => "object"
  | array => "array"
  | any => "any"

def all : List PropertyType := [string, number, boolean, date, object, array, any]

def ofName? (s : String) : Option PropertyType := all.find? fun t => t.name = s

theorem ofName?_name (t : PropertyType) : ofName? t.name = some t := by
  cases t <;> decide

end PropertyType

structure Property where
  type : PropertyType
  index : Bool
  id : Bool
  properties : List (String × Property)
  items : Option Property

namespace Property

def isArray (p : Property) : Bool := p.type = .array

/-- The property of a name below this one. -/
def child? : Property → String → Option Property
  | ⟨.array, _, _, _, some items⟩, name => child? items name
  | ⟨.array, _, _, _, none⟩, _ => none
  | ⟨_, _, _, properties, _⟩, name => Entries.get? properties name

end Property

/-- A declared index over several fields, 1 for ascending and -1 for descending. -/
structure IndexDeclaration where
  name : String
  keys : Entries Int

end ModelStore
