import ModelStore.Direction
import ModelStore.Noted

/-! The fields of an index. The store refuses indexes whose fields sort in different
directions, so all fields take the direction of the first; and it can only use an index
that covers the fields of a selector, so the discriminator is appended. -/

namespace ModelStore

structure IndexField where
  field : String
  direction : Direction
deriving DecidableEq

namespace IndexField

def ascending (field : String) : IndexField := ⟨field, .asc⟩

def ofNamed (field : String) (direction : Value) : Except Fault IndexField :=
  match direction.str?.bind Direction.ofName? with
  | some d => .ok ⟨field, d⟩
  | none => .error (.validation (.direction field))

/-- A bare name, or an object of one entry, the name and its direction. -/
def ofValue : Value → Except Fault IndexField
  | .str s => .ok (ascending s)
  | .object [(field, direction)] => ofNamed field direction
  | v => .error (.protocol (.malformedField v) none)

def toValue (f : IndexField) : Value := .object [(f.field, .str f.direction.name)]

/-- The fields whose direction differs from that of the first. -/
def differing : List IndexField → List String
  | [] => []
  | first :: rest => (rest.filter fun f => f.direction ≠ first.direction).map IndexField.field

def aligned : List IndexField → List IndexField
  | [] => []
  | first :: rest => first :: rest.map fun f => ⟨f.field, first.direction⟩

def coerceRemarks (index : String) (fields : List IndexField) : List Warning :=
  match fields, differing fields with
  | first :: _, names@(_ :: _) => [.directionsCoerced index first.direction.name names]
  | _, _ => []

/-- All fields in the direction of the first, with a remark if any had another. -/
def coerce (index : String) (fields : List IndexField) : Noted (List IndexField) :=
  ⟨coerceRemarks index fields, .ok (aligned fields)⟩

/-- Appends the discriminator in the direction of the index, unless it is among the
fields. -/
def append (discriminator : Option String) (fields : List IndexField) : List IndexField :=
  match discriminator.filter (· ≠ "") with
  | none => fields
  | some mark =>
    match fields with
    | [] => [ascending mark]
    | first :: _ =>
      if fields.any fun f => f.field = mark then fields
      else fields ++ [⟨mark, first.direction⟩]

end IndexField

end ModelStore
