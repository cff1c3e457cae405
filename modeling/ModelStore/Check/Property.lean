import ModelStore.Check.Scalar
import ModelStore.Model.TypeName

/-! Property declarations. The full form is a mapping with a `type`. Short forms stand for
it: a type alone; a list for an array of its first element; a mapping whose `type` is a
list likewise; and any other mapping for an object with these fields.

A declaration is read from the inside out: `Reading` holds what a value means as a whole
property, as a list of shapes, and as a table of shapes, and the mapping around it picks
the meaning that its own form calls for. -/

namespace ModelStore.Check

structure Reading where
  value : Value
  property : Checked Property
  first : Checked (Option Property)
  fields : Checked (Entries Property)

def typed (v : Value) : Checked PropertyType :=
  match PropertyType.ofValue v with
  | .ok t => .ok t
  | .error f => .complain (.rejected f.message)

def orElse {α : Type} (fallback : α) (check : Reading → Checked α) : Option Reading → Checked α
  | some r => check r
  | none => .ok fallback

def assemble (type : Checked PropertyType) (index id : Checked Bool)
    (properties : Checked (Entries Property)) (items : Checked (Option Property)) :
    Checked Property :=
  (Checked.both (Checked.inside "type" type) (Checked.both (Checked.inside "index" index)
    (Checked.both (Checked.inside "id" id) (Checked.both (Checked.inside "properties" properties)
      (Checked.inside "items" items))))).map
    fun (type, index, id, properties, items) => ⟨type, index, id, properties, items⟩

def itemsOf (r : Reading) : Checked (Option Property) :=
  if r.value.isNull then .ok none else r.property.map some

/-- A mapping in full form, without a look at short forms of its own. -/
def fullForm (parts : Entries Reading) (type : Checked PropertyType)
    (items : Checked (Option Property)) : Checked Property :=
  assemble type
    (orElse false (fun r => bool r.value) (Entries.get? parts "index"))
    (orElse false (fun r => bool r.value) (Entries.get? parts "id"))
    (orElse [] Reading.fields (Entries.get? parts "properties")) items

def declaredItems (parts : Entries Reading) : Checked (Option Property) :=
  orElse none itemsOf (Entries.get? parts "items")

def explicit (parts : Entries Reading) : Checked Property :=
  fullForm parts (orElse .any (fun r => typed r.value) (Entries.get? parts "type"))
    (declaredItems parts)

def shapes (parts : Entries Reading) : Checked (Entries Property) :=
  Checked.entries (parts.map fun e => (e.1, e.2.property))

def plain (type : PropertyType) (properties : Checked (Entries Property))
    (items : Checked (Option Property)) : Checked Property :=
  assemble (.ok type) (.ok false) (.ok false) properties items

/-- A mapping in any of its forms. -/
def mapping (parts : Entries Reading) : Checked Property :=
  match Entries.get? parts "type" with
  | some r =>
    match r.value with
    | .array _ => fullForm parts (.ok .array) r.first
    | _ => explicit parts
  | none => if parts.isEmpty then explicit parts else plain .object (shapes parts) (.ok none)

mutual

def reading : Value → Reading
  | .object fields =>
    let parts := readings fields
    ⟨.object fields, mapping parts, .ok none, shapes parts⟩
  | .array items =>
    let first := firstReading items
    ⟨.array items, plain .array (.ok []) first, first, .complain .notMapping⟩
  | .property p => ⟨.property p, .ok p, .ok none, .complain .notMapping⟩
  | v => ⟨v, assemble (typed v) (.ok false) (.ok false) (.ok []) (.ok none), .ok none,
      .complain .notMapping⟩

def readings : List (String × Value) → List (String × Reading)
  | [] => []
  | (key, v) :: rest => (key, reading v) :: readings rest

def firstReading : List Value → Checked (Option Property)
  | [] => .ok none
  | v :: _ => (reading v).property.map some

end

def property (v : Value) : Checked Property := (reading v).property

/-- A property in full form, as a declaration read on its own is. -/
def fullProperty : Value → Checked Property
  | .object fields => explicit (readings fields)
  | .property p => .ok p
  | _ => .complain .notModel

def properties (v : Value) : Checked (Entries Property) := (reading v).fields

end ModelStore.Check
