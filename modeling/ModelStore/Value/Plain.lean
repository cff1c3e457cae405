import ModelStore.Value.Basic

/-! Values without instances: an instance stands as the object of its fields, and so do the
instances inside it. Checked declarations are instances too. -/

namespace ModelStore

mutual

def Property.toFields : Property → Fields
  | ⟨type, index, id, properties, items⟩ =>
    [("type", .str type.name), ("index", .bool index), ("id", .bool id),
      ("properties", .object (plainProperties properties)), ("items", plainItems items)]

def plainProperties : List (String × Property) → List (String × Value)
  | [] => []
  | (name, p) :: rest => (name, .object p.toFields) :: plainProperties rest

def plainItems : Option Property → Value
  | none => .null
  | some p => .object p.toFields

end

def IndexDeclaration.toFields (i : IndexDeclaration) : Fields :=
  [("name", .str i.name), ("keys", .object (i.keys.map fun e => (e.1, .int e.2)))]

namespace Value

mutual

def plain : Value → Value
  | scalar s => scalar s
  | array items => array (plainItems items)
  | tuple items => tuple (plainItems items)
  | object fields => object (plainFields fields)
  | record fields => object (plainFields fields)
  | property p => object p.toFields
  | index i => object i.toFields

def plainItems : List Value → List Value
  | [] => []
  | v :: rest => v.plain :: plainItems rest

def plainFields : List (String × Value) → List (String × Value)
  | [] => []
  | (name, v) :: rest => (name, v.plain) :: plainFields rest

end

end Value

end ModelStore
