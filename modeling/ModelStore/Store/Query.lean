import ModelStore.Selector.Build
import ModelStore.Store.IdOrder
import ModelStore.Store.Program

/-! Queries and the documents they find. A query sends its selector and those of its other
parts that say something. Ids that are numbers are put in order once all pages have
come in. -/

namespace ModelStore

structure Query where
  selector : Value
  sort : Value
  fields : Value
  useIndex : Value

namespace Query

def ofSelector (selector : Fields) : Query := ⟨.object selector, .null, .null, .null⟩

def part (name : String) (v : Value) : Fields := if v.truthy then [(name, v)] else []

def body (q : Query) : Fields :=
  ("selector", q.selector) :: part "sort" q.sort ++ part "fields" q.fields ++
    part "use_index" q.useIndex

/-- Which of the documents to read: how many to a page, how many in all, and from where
on. -/
structure Window where
  pageSize : Nat
  limit : Value
  offset : Value

/-- The limit of a window; null sets none. -/
def Window.limit? (w : Window) : Except Fault (Option Limit) :=
  if w.limit.isNull then .ok none else (Limit.ofValue w.limit).map some

def fetch (db : String) (w : Window) (numericId : Bool) (body : Fields) :
    Program (List Value) := do
  let limit ← Program.ofExcept w.limit?
  let docs ← Program.find (Scan.start db body w.pageSize limit w.offset)
  let sort := Value.ofOption (Entries.get? body "sort")
  if numericId && sort.truthy then Program.ofExcept (IdOrder.resort docs sort)
  else pure docs

/-- All documents of a model that a filter lets through, up to a limit. -/
def resolve (pageSize : Nat) (h : Handle) (filter : Value) (limit : Option Nat) :
    Program (List Value) := do
  let selector ← Program.ofNoted (Selector.build h filter)
  fetch h.database ⟨pageSize, Value.ofOption (limit.map fun n => .int n), .null⟩ false
    (ofSelector selector).body

end Query

end ModelStore
