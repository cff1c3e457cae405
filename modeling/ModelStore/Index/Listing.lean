import ModelStore.Index.Candidate
import ModelStore.Text.Cut
import ModelStore.Value.Equality
import ModelStore.Value.Members

/-! The store's listing of its indexes. An entry has a name, a design document and a
definition with fields; of entries with the same name the last one counts, at the place
of the first. A model owns the entries whose design document begins with its prefix. -/

namespace ModelStore

structure ListedIndex where
  name : Value
  design : Value
  fields : List IndexField

abbrev Listing := List (Value × ListedIndex)

namespace Listing

def set : Listing → ListedIndex → Listing
  | [], i => [(i.name, i)]
  | (name, old) :: rest, i =>
    if name.same i.name then (name, i) :: rest else (name, old) :: set rest i

def get? (listing : Listing) (name : String) : Option ListedIndex :=
  (listing.find? fun e => e.1.same (.str name)).map Prod.snd

end Listing

namespace ListedIndex

/-- The fields of an entry's definition; absent ones are no fields. -/
def rawFields? (entry : Value) : Option Value :=
  match (entry.get? "def").getD (.object []) with
  | .object definition => some ((Entries.get? definition "fields").getD (.array []))
  | _ => none

/-- Objects and arrays cannot name an index. -/
def namesIndex : Value → Bool
  | .array _ | .object _ => false
  | _ => true

def ofEntry (entry : Value) : Except Fault ListedIndex :=
  match entry.get? "name", entry.get? "ddoc", rawFields? entry with
  | some name, some design, some raw => do
    let items ← raw.members
    let fields ← items.mapM IndexField.ofValue
    if namesIndex name then .ok ⟨name, design, fields⟩ else .error (.shape .wrongType)
  | _, _, _ => .error (.protocol (.malformedEntry entry) none)

def list (entries : List Value) : Except Fault Listing :=
  entries.foldlM (fun acc entry => (ofEntry entry).map acc.set) []

def owned (n : Naming) (model : String) (entry : Value) : Except Fault Bool := do
  let fields ← entry.fieldsFor "get"
  match Entries.get? fields "ddoc" with
  | some (.str design) =>
    .ok (Text.afterLeading? (designPrefix ++ n.modelStem model).toList design.toList).isSome
  | _ => .ok false

def selectOwned (n : Naming) (model : String) : List Value → Except Fault (List Value)
  | [] => .ok []
  | entry :: rest => do
    let mine ← owned n model entry
    let others ← selectOwned n model rest
    .ok (if mine then entry :: others else others)

def listOwned (n : Naming) (model : String) (entries : List Value) : Except Fault Listing := do
  let mine ← selectOwned n model entries
  list mine

end ListedIndex

end ModelStore
