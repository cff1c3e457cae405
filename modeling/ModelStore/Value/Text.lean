import ModelStore.Number.Shortest
import ModelStore.Text.Quoted
import ModelStore.Value.Basic

/-! The text of values. `shown` is how a message shows a value: text in quotation marks,
structures with their parts. `text` is the plain form that ids take: text as it is, dates,
identifiers and instances without their type, everything else as shown. -/

namespace ModelStore

def Bool.shown (b : Bool) : String := if b then "True" else "False"

namespace NativeType

def name : NativeType → String
  | text => "str"
  | boolean => "bool"
  | integer => "int"
  | float => "float"
  | decimal => "decimal.Decimal"
  | moment => "datetime.datetime"
  | date => "datetime.date"
  | list => "list"
  | tuple => "tuple"
  | mapping => "dict"
  | anything => "object"
  | bytes => "bytes"
  | set => "set"

def shown (t : NativeType) : String := "<class '" ++ t.name ++ "'>"

end NativeType

def separated (parts : List String) : String := ", ".intercalate parts

def Date.shown (d : Date) : String :=
  "datetime.date(" ++ separated [toString d.year, toString d.month, toString d.day] ++ ")"

namespace Moment

def offsetShown (offset : Int) : String :=
  if offset = 0 then "datetime.timezone.utc"
  else
    let days := offset / 86400000000
    let seconds := offset % 86400000000 / 1000000
    let micros := offset % 1000000
    let part (name : String) (n : Int) := if n = 0 then [] else [name ++ "=" ++ toString n]
    "datetime.timezone(datetime.timedelta(" ++
      separated (part "days" days ++ part "seconds" seconds ++ part "microseconds" micros) ++ "))"

def shown (m : Moment) : String :=
  let numbers := [m.date.year, m.date.month, m.date.day, m.hour, m.minute] ++
    (if m.micro ≠ 0 then [m.second, m.micro] else if m.second ≠ 0 then [m.second] else [])
  "datetime.datetime(" ++
    separated (numbers.map toString ++
      (match m.offset with
       | some offset => ["tzinfo=" ++ offsetShown offset]
       | none => [])) ++ ")"

/-- Date and time with a space between them. -/
def spaced (m : Moment) : String := String.ofList (charsWith ' ' m)

end Moment

def Flags.names (f : Flags) : List String :=
  (if f.ignoreCase then ["re.IGNORECASE"] else []) ++
    (if f.multiline then ["re.MULTILINE"] else []) ++
    (if f.dotAll then ["re.DOTALL"] else []) ++ (if f.verbose then ["re.VERBOSE"] else [])

/-- At most two hundred characters of the quoted source are shown. -/
def Pattern.shown (p : Pattern) : String :=
  let source := String.ofList ((Text.quote p.source).toList.take 200)
  let names := p.flags.names
  "re.compile(" ++ source ++ (if names.isEmpty then "" else ", " ++ "|".intercalate names) ++ ")"

def Scalar.shown : Scalar → String
  | .null => "None"
  | .bool b => Bool.shown b
  | .int n => Number.integerText n
  | .float x => x.text
  | .str s => Text.quote s
  | .date d => d.shown
  | .moment m => m.shown
  | .uuid u => "UUID('" ++ u.text ++ "')"
  | .decimal d => "Decimal('" ++ d.text ++ "')"
  | .pattern p => p.shown
  | .native t => t.shown

def Scalar.text : Scalar → String
  | .str s => s
  | .date d => d.text
  | .moment m => m.spaced
  | .uuid u => u.text
  | .decimal d => d.text
  | s => s.shown

mutual

def Property.parts : Property → List String
  | ⟨type, index, id, properties, items⟩ =>
    ["type='" ++ type.name ++ "'", "index=" ++ Bool.shown index, "id=" ++ Bool.shown id,
      "properties=\x7b" ++ separated (shownProperties properties) ++ "\x7d",
      "items=" ++ shownItems items]

def shownProperties : List (String × Property) → List String
  | [] => []
  | (name, p) :: rest =>
    (Text.quote name ++ ": PropertyDefinition(" ++ separated p.parts ++ ")") ::
      shownProperties rest

def shownItems : Option Property → String
  | none => "None"
  | some p => "PropertyDefinition(" ++ separated p.parts ++ ")"

end

def Property.shown (p : Property) : String := "PropertyDefinition(" ++ separated p.parts ++ ")"

def IndexDeclaration.parts (i : IndexDeclaration) : List String :=
  ["name=" ++ Text.quote i.name, "keys=\x7b" ++
    separated (i.keys.map fun e => Text.quote e.1 ++ ": " ++ toString e.2) ++ "\x7d"]

def IndexDeclaration.shown (i : IndexDeclaration) : String :=
  "IndexDefinition(" ++ separated i.parts ++ ")"

namespace Value

mutual

def shown : Value → String
  | scalar s => s.shown
  | array items => "[" ++ separated (shownItems items) ++ "]"
  | tuple items =>
    match shownItems items with
    | [only] => "(" ++ only ++ ",)"
    | parts => "(" ++ separated parts ++ ")"
  | object fields => "\x7b" ++ separated (shownFields fields) ++ "\x7d"
  | record fields => "Model(" ++ separated (shownAttributes fields) ++ ")"
  | property p => p.shown
  | index i => i.shown

def shownItems : List Value → List String
  | [] => []
  | v :: rest => v.shown :: shownItems rest

def shownFields : List (String × Value) → List String
  | [] => []
  | (name, v) :: rest => (Text.quote name ++ ": " ++ v.shown) :: shownFields rest

def shownAttributes : List (String × Value) → List String
  | [] => []
  | (name, v) :: rest => (name ++ "=" ++ v.shown) :: shownAttributes rest

end

def spaced (parts : List String) : String := " ".intercalate parts

/-- Instances are written as their parts alone. -/
def text : Value → String
  | scalar s => s.text
  | record fields => spaced (shownAttributes fields)
  | property p => spaced p.parts
  | index i => spaced i.parts
  | v => v.shown

@[simp] theorem text_str (s : String) : (str s).text = s := rfl

end Value

end ModelStore
