/-! The two directions of an order. -/

namespace ModelStore

inductive Direction where
  | asc | desc
deriving DecidableEq

namespace Direction

def name : Direction → String
  | asc => "asc"
  | desc => "desc"

def ofName? (s : String) : Option Direction :=
  if s = "asc" then some asc else if s = "desc" then some desc else none

theorem ofName?_name (d : Direction) : ofName? d.name = some d := by
  cases d <;> decide

end Direction

end ModelStore
