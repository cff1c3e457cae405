import ModelStore.Index.Candidate
import ModelStore.Text.Cut
import ModelStore.Text.Percent

/-! Paths of the store's resources. Names are percent-encoded as single segments; the id
of a design document keeps its two segments. -/

namespace ModelStore.Path

open Text

def base (db : String) : String := "/" ++ encode db

def design (name : String) : String := designPrefix ++ encode name

/-- The name of a design document, given with or without its leading segment. -/
def designName? (id : String) : Option String :=
  (afterLeading? designPrefix.toList id.toList).map String.ofList

def document (db id : String) : String :=
  base db ++ "/" ++
    match designName? id with
    | some name => design name
    | none => encode id

def view (db ddoc view : String) : String :=
  base db ++ "/" ++ design ((designName? ddoc).getD ddoc) ++ "/_view/" ++ encode view

end ModelStore.Path
