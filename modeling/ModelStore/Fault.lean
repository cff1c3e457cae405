import ModelStore.Url.Fault
import ModelStore.Value.Text

/-! What can go wrong, by cause. Each cause carries what its message needs; `kind` is the
name under which programs report an error and `message` its wording. A fault of a batch
holds the faults of its parts. -/

namespace ModelStore

/-- Why a filter, an order or a projection cannot be compiled. -/
inductive QueryFault where
  | optionsNotText (options : Value)
  | filterNotMapping (typeName : String)
  | branchesNotList (key : String)
  | operandNotList (operator : String)
  | operandNotPair
  | patternUnreadable (value : Value)
  | orderUnreadable (order : Value)
  | orderEntryNotText (entry : Value)
  | unknownKeys (keys : List Value)

namespace QueryFault

def message : QueryFault → String
  | optionsNotText v => "'options' must be a string of flags, got " ++ v.shown
  | filterNotMapping name => "where filter must be a mapping, got " ++ name
  | branchesNotList key => "'" ++ key ++ "' expects a list of where filters"
  | operandNotList op => op ++ " requires a list of values"
  | operandNotPair => "between requires a list of two values"
  | patternUnreadable v => "regular expression must be a string or pattern, got " ++ v.shown
  | orderUnreadable v => "order must be a string or a list, got " ++ v.shown
  | orderEntryNotText v => "order entries must be strings, got " ++ v.shown
  | unknownKeys keys => "Unsupported filter keys: " ++ (Value.array keys).shown

end QueryFault

inductive Complaint.Cause where
  | missing
  | notText | notMapping | notModel
  | notInt | intUnreadable | intFraction | intTooLong
  | notFloat | floatUnreadable
  | notBool | boolUnreadable
  | notFinite
  | tooSmall
  | rejected (reason : String)

/-- A complaint about the part at a place, given by field names and keys from the outside. -/
structure Complaint where
  place : List String
  cause : Complaint.Cause

namespace Complaint

def Cause.code : Cause → String
  | missing => "missing"
  | notText => "string_type"
  | notMapping => "dict_type"
  | notModel => "model_type"
  | notInt => "int_type"
  | intUnreadable => "int_parsing"
  | intFraction => "int_from_float"
  | intTooLong => "int_parsing_size"
  | notFloat => "float_type"
  | floatUnreadable => "float_parsing"
  | notBool => "bool_type"
  | boolUnreadable => "bool_parsing"
  | notFinite => "finite_number"
  | tooSmall => "greater_than_equal"
  | rejected _ => "value_error"

/-- The reason given for a part that is well typed and yet refused. -/
def reason? (c : Complaint) : Option String :=
  match c.cause with
  | .rejected reason => some ("Value error, " ++ reason)
  | _ => none

def inside (place : String) (c : Complaint) : Complaint := ⟨place :: c.place, c.cause⟩

end Complaint

inductive ValidationFault where
  | settings (complaints : List Complaint)
  | definition (model : String) (complaints : List Complaint)
  | direction (field : String)
  | unregistered (model : String)

namespace ValidationFault

def message : ValidationFault → String
  | settings _ => ""
  | definition model _ => "Invalid definition for model " ++ model ++ ": "
  | direction field => "index direction for " ++ Text.quote field ++ " must be 'asc' or 'desc'"
  | unregistered model => "model " ++ model ++ " does not exist in your registry!"

def complaints? : ValidationFault → Option (List Complaint)
  | settings complaints => some complaints
  | definition _ complaints => some complaints
  | _ => none

end ValidationFault

inductive ProtocolFault where
  | malformedEntry (entry : Value)
  | malformedField (field : Value)
  | findNotObject
  | findWithoutDocs (request : Value)
  | bulkNotList
  | databasesNotList (typeName : String)
  | notJson (method path : String)
  | revisionMissing (model : String) (id : Value)
  | viewWithoutRows (ddoc view : String) (answer : Value)

namespace ProtocolFault

def message : ProtocolFault → String
  | malformedEntry v => "Malformed index entry: " ++ v.shown
  | malformedField v => "Unexpected index field definition: " ++ v.shown
  | findNotObject => "_find returned a non-object body"
  | findWithoutDocs request => "No documents returned for query: " ++ request.shown
  | bulkNotList => "_bulk_docs returned a non-list body"
  | databasesNotList name => "_all_dbs returned " ++ name ++ ", expected a list"
  | notJson method path => method ++ " " ++ path ++ " returned a non-JSON body"
  | revisionMissing model id => "No ETag returned for " ++ model ++ " id=" ++ id.shown
  | viewWithoutRows ddoc view answer =>
    "view " ++ ddoc ++ "/" ++ view ++ " returned no rows: " ++ answer.shown

end ProtocolFault

inductive DocumentFault where
  | notObject (model : String)
  | idMissing (model : String) (doc : Value)
  | dateUnreadable (model field : String) (value : Value)

namespace DocumentFault

def message : DocumentFault → String
  | notObject model => model ++ " document must be a dict"
  | idMissing model doc => model ++ " document has no _id: " ++ doc.shown
  | dateUnreadable model field v =>
    model ++ "." ++ field ++ " is not a valid date: " ++ v.shown

end DocumentFault

inductive ConnectionFault where
  | unreachable (server reason : String)
  | databaseMissing (database : String)
  | refused (message : String)
  | pingFailed

namespace ConnectionFault

def message : ConnectionFault → String
  | unreachable server reason => "Cannot reach CouchDB at " ++ server ++ ": " ++ reason
  | databaseMissing database => "Database " ++ Text.quote database ++ " does not exist"
  | refused message => message
  | pingFailed => "ping failed"

end ConnectionFault

/-- What an error status of the store means. The last two are conflicts of a write. -/
inductive HttpKind where
  | other | notFound | conflict | duplicate | stale
deriving DecidableEq

namespace HttpKind

def name : HttpKind → String
  | other => "CouchHTTPError"
  | notFound => "DocumentNotFoundError"
  | conflict => "DocumentConflictError"
  | duplicate => "DuplicateDocumentError"
  | stale => "UpdateConflictError"

def ofStatus (status : Int) : HttpKind :=
  if status = 404 then notFound else if status = 409 then conflict else other

def isConflict : HttpKind → Bool
  | conflict | duplicate | stale => true
  | _ => false

/-- The kind and the kinds that it is a case of, the narrowest first. -/
def lineage (k : HttpKind) : List String :=
  match k with
  | other => [k.name]
  | notFound | conflict => [k.name, other.name]
  | duplicate | stale => [k.name, conflict.name, other.name]

end HttpKind

/-- An error status of the store, with its own account of it and what it was asked for. -/
structure HttpFault where
  kind : HttpKind
  message : String
  status : Int
  error : Value
  reason : Value
  model : Option String
  docId : Option String

namespace HttpFault

/-- The same fault, told for a model and a document, perhaps as a narrower kind. -/
def withContext (f : HttpFault) (model : Option String) (id : Value)
    (kind : Option HttpKind) (suffix : String) : HttpFault :=
  let docId := if id.isNull then none else some id.text
  let named := match model with
    | some m => if m = "" then [] else ["model=" ++ m]
    | none => []
  let shown := match docId with
    | some d => ["id=" ++ Text.quote d]
    | none => []
  let parts := f.message :: named ++ shown ++ (if suffix = "" then [] else [suffix])
  { f with kind := kind.getD f.kind, message := " ".intercalate parts, model, docId }

end HttpFault

inductive TransportKind where
  | connect | timeout | protocol
deriving DecidableEq

/-- A request that got no answer. -/
structure TransportFault where
  kind : TransportKind
  message : String

def TransportKind.name : TransportKind → String
  | connect => "ConnectError"
  | timeout => "ReadTimeout"
  | protocol => "RemoteProtocolError"

/-- A value that an operation cannot work on. -/
inductive ShapeFault where
  | keyMissing (key : String)
  | notIndexed (typeName : String)
  | memberMissing (typeName member : String)
  | wrongType
  | wrongValue
  | tooLarge
  | tooNested
  | headerNotText (typeName : String)
  | notAscii (text : String) (first next : Nat)
  | undefinedNumber
  | unboundedNumber

namespace ShapeFault

def name : ShapeFault → String
  | keyMissing _ => "KeyError"
  | notIndexed _ => "TypeError"
  | memberMissing _ _ => "AttributeError"
  | wrongType => "TypeError"
  | wrongValue => "ValueError"
  | tooLarge => "OverflowError"
  | tooNested => "RecursionError"
  | headerNotText _ => "TypeError"
  | notAscii _ _ _ => "UnicodeEncodeError"
  | undefinedNumber => "InvalidOperation"
  | unboundedNumber => "Overflow"

def message : ShapeFault → String
  | keyMissing key => key
  | notIndexed typeName =>
    if typeName = "list" then "list indices must be integers or slices, not str"
    else if typeName = "str" then "string indices must be integers, not 'str'"
    else "'" ++ typeName ++ "' object is not subscriptable"
  | memberMissing typeName member =>
    "'" ++ typeName ++ "' object has no attribute '" ++ member ++ "'"
  | headerNotText typeName => "Header value must be str or bytes, not <class '" ++ typeName ++ "'>"
  | _ => ""

/-- What a listing of faults tells of a fault: its message, or, for a text that is not in
ASCII, the text and the places of the characters at fault. -/
def account (f : ShapeFault) : String :=
  match f with
  | notAscii text first next =>
    "'ascii', " ++ Text.quote text ++ ", " ++ toString first ++ ", " ++ toString next ++
      ", 'ordinal not in range(128)'"
  | f => Text.quote f.message

end ShapeFault

inductive Fault where
  | notModelData (data : Value)
  | manyMatches (model : String) (id : Value) (count : Nat)
  | connection (f : ConnectionFault)
  | validation (f : ValidationFault)
  | query (f : QueryFault)
  | protocol (f : ProtocolFault) (query : Option Value)
  | document (f : DocumentFault)
  | http (f : HttpFault)
  | deletesFailed (model : String) (failures : List Fault) (deleted : Nat)
  | writesFailed (model : String) (failures results : List Value)
  | transport (f : TransportFault)
  | url (f : UrlFault)
  | shape (f : ShapeFault)

namespace Fault

/-- How many items succeeded, if the fault tells of some of many. -/
def succeeded? : Fault → Option Nat
  | deletesFailed _ _ deleted => some deleted
  | writesFailed _ failures results => some (results.length - failures.length)
  | _ => none

def kind : Fault → String
  | notModelData _ => "CouchPersistenceError"
  | manyMatches _ _ _ => "CouchPersistenceError"
  | connection _ => "CouchConnectionError"
  | validation _ => "CouchValidationError"
  | query _ => "CouchQueryError"
  | protocol _ _ => "CouchProtocolError"
  | document _ => "MalformedDocumentError"
  | http f => f.kind.name
  | deletesFailed _ _ _ => "BatchWriteError"
  | writesFailed _ _ _ => "BatchWriteError"
  | transport f => f.kind.name
  | url _ => "InvalidURL"
  | shape f => f.name

mutual

def message : Fault → String
  | notModelData data => "Model data must be a dict or a pydantic model, got " ++ data.shown
  | manyMatches model id count =>
    "destroy of " ++ model ++ " id=" ++ id.shown ++ " matched " ++ toString count ++ " documents"
  | connection f => f.message
  | validation f => f.message
  | query f => f.message
  | protocol f _ => f.message
  | document f => f.message
  | http f => f.message
  | deletesFailed model failures _ =>
    "Unable to delete " ++ toString failures.length ++ " " ++ model ++ " document(s): [" ++
      separated (shownAll failures) ++ "]"
  | writesFailed model failures _ =>
    "Unable to update 1 or more " ++ model ++ " document(s): " ++ (Value.array failures).shown
  | transport f => f.message
  | url f => f.message
  | shape f => f.message

/-- A fault as its kind and what is told of it. -/
def shown : Fault → String
  | shape f => f.name ++ "(" ++ f.account ++ ")"
  | f => f.kind ++ "(" ++ Text.quote f.message ++ ")"

def shownAll : List Fault → List String
  | [] => []
  | f :: rest => f.shown :: shownAll rest

end

def isNotFound : Fault → Bool
  | http f => f.kind = .notFound
  | _ => false

def isConflict : Fault → Bool
  | http f => f.kind.isConflict
  | _ => false

end Fault

/-- A remark that does not stop an operation. -/
inductive Warning where
  | globalFlag
  | unknownFlag (flag : Char)
  | directionsCoerced (index direction : String) (fields : List String)
deriving DecidableEq

def Warning.message : Warning → String
  | globalFlag => "CouchDB regex syntax does not support global; flag ignored"
  | unknownFlag c => "Unsupported regex flag " ++ Text.quote (String.ofList [c]) ++ " ignored"
  | directionsCoerced index direction fields =>
    "CouchDB does not allow composite indexes with conflicting sort directions; index " ++
      index ++ " will be created using " ++ direction ++ " order, coerced fields: " ++
      ",".intercalate fields

end ModelStore
