import ModelStore.Json.Encodable
import ModelStore.Json.Writer
import ModelStore.Store.Path
import ModelStore.Url.Query

/-! What is asked of the store: the method, path, parameters and body of each question. A body
must have a JSON form; a call without one is never sent. -/

namespace ModelStore

inductive Call where
  | listDatabases
  | openDatabase (name : String)
  | find (db : String) (query : Fields)
  | get (db id : String)
  | head (db id : String)
  | insert (db : String) (doc : Fields)
  | delete (db id : String) (rev : Value)
  | bulk (db : String) (docs : List Value)
  | listIndexes (db : String)
  | createIndex (db : String) (body : Fields)
  | view (db ddoc view : String) (params : Fields)

namespace Call

def method : Call → String
  | head _ _ => "HEAD"
  | find _ _ | insert _ _ | bulk _ _ | createIndex _ _ => "POST"
  | delete _ _ _ => "DELETE"
  | _ => "GET"

/-- The path of a call. The name of a database to open is taken as it is given, so that it
may go on with a query. -/
def path : Call → String
  | listDatabases => "/_all_dbs"
  | openDatabase name => "/" ++ name
  | find db _ => Path.base db ++ "/_find"
  | get db id => Path.document db id
  | head db id => Path.document db id
  | insert db _ => Path.base db
  | delete db id _ => Path.document db id
  | bulk db _ => Path.base db ++ "/_bulk_docs"
  | listIndexes db => Path.base db ++ "/_index"
  | createIndex db _ => Path.base db ++ "/_index"
  | view db ddoc name _ => Path.view db ddoc name

/-- View parameters that the store reads as JSON. -/
def isJsonParam (name : String) : Bool :=
  ["key", "keys", "startkey", "endkey", "start_key", "end_key"].contains name

def viewParam (name : String) (v : Value) : Value :=
  if isJsonParam name then .str (Json.text v)
  else
    match v with
    | .bool b => .str (if b then "true" else "false")
    | v => v

def viewParams (params : Fields) : Fields := params.map fun e => (e.1, viewParam e.1 e.2)

/-- The text of a parameter: truth values in small letters, null as nothing. -/
def paramText : Value → String
  | .null => ""
  | .bool b => if b then "true" else "false"
  | v => v.text

/-- A list gives one field for each element. -/
def paramFields (name : String) (v : Value) : List (String × String) :=
  match v.items? with
  | some items => items.map fun item => (name, paramText item)
  | none => [(name, paramText v)]

def queryFields (params : Fields) : List (String × String) :=
  params.flatMap fun e => paramFields e.1 e.2

/-- The query of a call that brings parameters of its own; none of them make no query. -/
def query? : Call → Option (Option (List Char))
  | delete _ _ rev => some (some (UrlQuery.encode (paramFields "rev" rev)))
  | view _ _ _ params =>
    some (if params.isEmpty then none else some (UrlQuery.encode (queryFields (viewParams params))))
  | _ => none

def body? : Call → Option Value
  | find _ query => some (.object query)
  | insert _ doc => some (.object doc)
  | bulk _ docs => some (.object [("docs", .array docs)])
  | createIndex _ body => some (.object body)
  | _ => none

def encodingFault : Json.EncodingFault → Fault
  | .notFinite => .shape .wrongValue
  | .noForm => .shape .wrongType

def encodeFields (fields : Fields) : Except Fault Fields :=
  (Json.encodeFields fields).mapError encodingFault

/-- The call with its body in JSON form. -/
def encode : Call → Except Fault Call
  | find db query => (encodeFields query).map (find db)
  | insert db doc => (encodeFields doc).map (insert db)
  | bulk db docs => ((Json.encodeItems docs).mapError encodingFault).map (bulk db)
  | createIndex db body => (encodeFields body).map (createIndex db)
  | c => .ok c

end Call

end ModelStore
