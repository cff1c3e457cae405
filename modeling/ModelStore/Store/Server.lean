import ModelStore.Store.Program

/-! What concerns the server or a database as a whole: which databases there are, whether
the server answers, whether a database is there, and the views of design documents. -/

namespace ModelStore.Server

def databases : Program (List Value) := do
  match ← Program.request .listDatabases with
  | .array names => pure names
  | v => Program.fail (.protocol (.databasesNotList v.typeName) none)

/-- Whether the fault means that the server is not in order. -/
def isOutage : Fault → Bool
  | .transport _ | .http _ | .protocol _ _ => true
  | _ => false

def ping : Program Unit :=
  let asked : Program Unit := discard databases
  asked.rescue fun f => Program.fail (if isOutage f then .connection .pingFailed else f)

/-- An error status in the place of a database, told as a failure to connect. -/
def refusal : Fault → Fault
  | .http f => .connection (.refused f.message)
  | f => f

/-- What the answer for a database says about connecting to it. -/
def connected (server database : String) (c : Call) : Exchange → Except Fault Unit
  | .refused f => .error f
  | .failed f => .error (.connection (.unreachable server f.message))
  | .answered path a =>
    if a.status = 404 then .error (.connection (.databaseMissing database))
    else if a.isError then .error (refusal (a.failure c.method path))
    else .ok ()

def connect (server database : String) : Program Unit :=
  let c := Call.openDatabase database
  .ask c fun x => .done (connected server database c x)

def hasRows : Value → Bool
  | .object fields =>
    match Entries.get? fields "rows" with
    | some (.array _) => true
    | _ => false
  | _ => false

/-- Asks a view; the answer must have rows. -/
def view (db design name : String) (params : Fields) : Program Value := do
  let answer ← Program.request (.view db design name params)
  if hasRows answer then pure answer
  else Program.fail (.protocol (.viewWithoutRows design name answer) none)

end ModelStore.Server
