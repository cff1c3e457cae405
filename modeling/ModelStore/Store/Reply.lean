import ModelStore.Fault
import ModelStore.Json.Body
import ModelStore.Text.Case
import ModelStore.Text.Cut

/-! What the network brings back for a request: an answer with a status, some headers and
perhaps a body, one whose headers cannot be read, or no answer. Statuses from 400 to 599 are
errors; the store's own account of them stands in the body. -/

namespace ModelStore

structure Answer where
  status : Int
  etag : Option String
  location : Option String
  body : Except Json.ReadFault Value

inductive Reply where
  | answered (a : Answer)
  | failed (f : TransportFault)
  | unreadable (f : Fault)

namespace Answer

/-- A header, whose name knows no case. The values of one that is given several times are
taken together. -/
def header? (name : String) (headers : List (String × String)) : Option String :=
  let lower (s : String) := s.toList.map Text.lower
  match (headers.filter fun h => lower h.1 = name.toList).map Prod.snd with
  | [] => none
  | values => some (", ".intercalate values)

def ofParts (status : Int) (headers : List (String × String))
    (body : Except Json.ReadFault Value) : Answer :=
  ⟨status, header? "etag" headers, header? "location" headers, body⟩

def isError (a : Answer) : Bool := 400 ≤ a.status && a.status < 600

/-- The place to which an answer directs on, if it does. -/
def redirection? (a : Answer) : Option String :=
  if a.status ∈ [301, 302, 303, 307, 308] then a.location else none

/-- The revision in the entity tag, without its quotation marks. -/
def revision? (a : Answer) : Option String :=
  match a.etag with
  | none => none
  | some "" => none
  | some tag => some (String.ofList (Text.trim (· = Text.doubleQuote) tag.toList))

def account (a : Answer) (key : String) : Value :=
  Value.ofOption (a.body.toOption.bind fun b => b.get? key)

/-- The fault that an error status stands for, told for a method and a path. -/
def fault (method path : String) (a : Answer) : HttpFault :=
  let error := a.account "error"
  let reason := a.account "reason"
  let line := method ++ " " ++ path ++ " -> " ++ Number.integerText a.status
  let message :=
    if error.truthy || reason.truthy then line ++ " " ++ error.text ++ ": " ++ reason.text
    else line
  ⟨.ofStatus a.status, message, a.status, error, reason, none, none⟩

/-- The failure of a request that was answered with an error status. -/
def failure (method path : String) (a : Answer) : Fault :=
  match a.body with
  | .error .tooDeep => .shape .tooNested
  | _ => .http (a.fault method path)

end Answer

namespace Reply

def isAscii (c : Char) : Bool := c.toNat < 0x80

/-- A text that must be in ASCII. Of other characters the first ones in a row are told. -/
def asciiText (s : String) : Except Fault String :=
  let before := s.toList.takeWhile isAscii
  let strays := (s.toList.drop before.length).takeWhile fun c => !isAscii c
  if strays.isEmpty then .ok s
  else .error (.shape (.notAscii s before.length (before.length + strays.length)))

def header (e : String × Value) : Except Fault (String × String) := do
  let name ← asciiText e.1
  match e.2 with
  | .str s => (asciiText s).map fun s => (name, s)
  | v => .error (.shape (.headerNotText v.typeName))

/-- An answer in its parts. Its headers must be texts in ASCII. -/
def ofParts (status : Int) (headers : Fields) (body : Except Json.ReadFault Value) : Reply :=
  match headers.mapM header with
  | .ok headers => answered (Answer.ofParts status headers body)
  | .error f => unreadable f

end Reply

end ModelStore
