import ModelStore.Check.Definition

/-! Connection settings. Either a URL or a user name with a password must be given. Keys
are taken in two spellings. The server's address and the database are read off the URL
when there is one. -/

namespace ModelStore

structure Settings where
  url : Option String
  username : Option String
  password : Option String
  host : String
  port : Int
  protocol : String
  database : Option String
  modelIndex : Option String
  globalLimit : Option { n : Nat // 1 ≤ n }
  lazyConnect : Bool
  pageSize : { n : Nat // 1 ≤ n }
  timeout : Binary64

namespace Settings

open Text

def given (s : Option String) : Bool := s.any (· ≠ "")

def credentialsGiven (s : Settings) : Bool :=
  given s.url || (given s.username && given s.password)

def missingCredentials : String :=
  "Invalid settings: \"url\" OR \"username\" AND \"password\" required"

def check : Value → Checked Settings
  | .object fields => do
    let part {α : Type} (name : String) (fallback : α) (check : Value → Checked α) : Checked α :=
      Check.field fields name name fallback check
    let (url, username, password, host, port, protocol, database, modelIndex, globalLimit,
        lazyConnect, pageSize, timeout) ←
      Checked.both (part "url" none (Check.optional Check.text)) <|
      Checked.both (part "username" none (Check.optional Check.text)) <|
      Checked.both (part "password" none (Check.optional Check.text)) <|
      Checked.both (part "host" "localhost" Check.text) <|
      Checked.both (part "port" 5984 Check.int) <|
      Checked.both (part "protocol" "http" Check.text) <|
      Checked.both (Check.field fields "db" "database" none (Check.optional Check.text)) <|
      Checked.both
        (Check.field fields "modelIndex" "model_index" none (Check.optional Check.text)) <|
      Checked.both (Check.field fields "globalLimit" "global_limit" none
        (Check.optional Check.positive)) <|
      Checked.both (Check.field fields "lazyConnect" "lazy_connect" false Check.bool) <|
      Checked.both (Check.field fields "pageSize" "page_size" ⟨200, by decide⟩ Check.positive)
        (part "timeout" (Binary64.ofInt 30) Check.float)
    let s : Settings := ⟨url, username, password, host, port, protocol, database, modelIndex,
      globalLimit, lazyConnect, pageSize, timeout⟩
    if s.credentialsGiven then .ok s else .complain (.rejected missingCredentials)
  | _ => .complain .notModel

def ofValue (v : Value) : Except Fault Settings :=
  match check v with
  | .ok s => .ok s
  | .error complaints => .error (.validation (.settings complaints))

end Settings

end ModelStore
