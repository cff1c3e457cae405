import ModelStore.Fault
import ModelStore.Text.Cut
import ModelStore.Value.Equality
import ModelStore.Value.Plain

/-! Going through a value: a list has its elements, a text its characters, an object its
keys, and an instance its pairs of name and value. Other values cannot be gone through, and
only objects have fields to read. -/

namespace ModelStore.Value

def characters (s : String) : List Value := s.toList.map fun c => str (String.ofList [c])

def pairs (fields : Fields) : List Value := fields.map fun e => tuple [str e.1, e.2]

def members : Value → Except Fault (List Value)
  | array items => .ok items
  | tuple items => .ok items
  | str s => .ok (characters s)
  | object fields => .ok (fields.map fun e => str e.1)
  | record fields => .ok (pairs fields)
  | property p => .ok (pairs p.toFields)
  | index i => .ok (pairs i.toFields)
  | _ => .error (.shape .wrongType)

/-- Whether a text is a member of a value, or, of a text, a part. -/
def holds (name : String) : Value → Except Fault Bool
  | str s => .ok (Text.occursIn name.toList s.toList)
  | v => v.members.map fun members => (str name).elem members

/-- The fields of an object, for the use of one of its members. -/
def fieldsFor (use : String) : Value → Except Fault Fields
  | object fields => .ok fields
  | v => .error (.shape (.memberMissing v.typeName use))

/-- A field that must be there. -/
def required (key : String) : Value → Except Fault Value
  | object fields =>
    match Entries.get? fields key with
    | some v => .ok v
    | none => .error (.shape (.keyMissing key))
  | v => .error (.shape (.notIndexed v.typeName))

mutual

/-- Whether a value can be a key. What can change cannot, nor can a signalling decimal. -/
def isKey : Value → Bool
  | scalar s =>
    match s with
    | .decimal (.nan _ true _) => false
    | _ => true
  | tuple items => areKeys items
  | _ => false

def areKeys : List Value → Bool
  | [] => true
  | v :: rest => v.isKey && areKeys rest

end

/-- A table whose keys need not be texts, in the order in which they were first written. -/
abbrev Table := List (Value × Value)

/-- Writes a value. A key that equals one already there keeps that one's form and place. -/
def Table.set : Table → Value → Value → Table
  | [], key, v => [(key, v)]
  | (k, old) :: rest, key, v =>
    if k.same key then (k, v) :: rest else (k, old) :: Table.set rest key v

/-- A key and its value from something of two members. -/
def keyed (v : Value) : Except Fault (Value × Value) := do
  match ← v.members with
  | [key, value] => if key.isKey then .ok (key, value) else .error (.shape .wrongType)
  | _ => .error (.shape .wrongValue)

/-- The table that pairs spell out, one after the other. -/
def tabulate (pairs : List Value) : Except Fault Table :=
  pairs.foldlM (fun table pair => (keyed pair).map fun e => Table.set table e.1 e.2) []

/-- The table that a value spells out: the fields of an object, the pairs of an instance or
those of a list. An instance with a field `keys` is taken for something else. -/
def asTable : Value → Except Fault Table
  | object fields => .ok (fields.map fun e => (str e.1, e.2))
  | record fields =>
    if Entries.has fields "keys" then .error (.shape .wrongType) else tabulate (pairs fields)
  | index _ => .error (.shape .wrongType)
  | v => v.members >>= tabulate

namespace Table

/-- The entries of a table under texts. -/
def fields (t : Table) : Fields := t.filterMap fun e => e.1.str?.map fun key => (key, e.2)

/-- A key as the name of a field: a truth value or null in small letters. -/
def keyText : Value → String
  | null => "null"
  | bool b => if b then "true" else "false"
  | v => v.text

/-- All entries of a table, each key as a text. -/
def named (t : Table) : Fields := Entries.ofList (t.map fun e => (keyText e.1, e.2))

end Table

end ModelStore.Value
