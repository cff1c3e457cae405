import ModelStore.Value.Basic

/-! Where-filters as trees. A branch is a list of clauses that must all hold. A clause
either puts a condition on a field or joins further branches. -/

namespace ModelStore

inductive Junction where
  | and | or | nor
deriving DecidableEq

namespace Junction

def name : Junction → String
  | and => "and"
  | or => "or"
  | nor => "nor"

def ofName? (s : String) : Option Junction :=
  if s = "and" then some and else if s = "or" then some or else if s = "nor" then some nor else none

def key (j : Junction) : String := "$" ++ j.name

theorem ofName?_name (j : Junction) : ofName? j.name = some j := by
  cases j <;> decide

theorem name_of_ofName? {s : String} {j : Junction} (h : ofName? s = some j) : j.name = s := by
  unfold ofName? at h
  split at h
  · simp_all [name]
    cases h
    rfl
  · split at h
    · simp_all
      cases h
      rfl
    · split at h
      · simp_all
        cases h
        rfl
      · cases h

end Junction

/-- A condition on a field: to equal a value, or to stand to it in a named relation, with
pattern flags beside it if any are given. -/
inductive Condition where
  | literal (value : Value)
  | operator (name : String) (value : Value) (options : Option String)

inductive Clause where
  | field (path : String) (condition : Condition)
  | logical (op : Junction) (branches : List (List Clause))

abbrev Filter := List Clause

end ModelStore
