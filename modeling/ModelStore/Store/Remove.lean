import ModelStore.Store.Write

/-! Removal of documents. The store cannot delete by query, so the documents are read
first and deleted one by one, each at the revision that was read. A delete that fails
does not stop the others; all failures are told together at the end. -/

namespace ModelStore.Remove

/-- Deletes a document at the revision that it carries. -/
def document (h : Handle) (doc : Value) : Program Value := do
  let id ← Program.ofExcept (doc.required "_id")
  let rev ← Program.ofExcept (doc.required "_rev")
  let name ← Program.ofExcept (Write.idText id)
  (Program.request (.delete h.database name rev)).retell fun f =>
    if f.kind = .notFound ∨ f.kind.isConflict then f.withContext (some h.name) id none "" else f

def confirms (answer : Value) : Except Fault Bool := do
  let fields ← answer.fieldsFor "get"
  .ok (Value.ofOption (Entries.get? fields "ok")).truthy

/-- Deletes the document of an id; more than one match is an error. -/
def one (pageSize : Nat) (h : Handle) (id : Value) : Program Nat := do
  match ← Query.resolve pageSize h (.object [(h.idName, id)]) none with
  | [] => pure 0
  | [doc] => do
    let answer ← document h doc
    let confirmed ← Program.ofExcept (confirms answer)
    pure (if confirmed then 1 else 0)
  | docs => Program.fail (.manyMatches h.name id docs.length)

structure Tally where
  deleted : Nat
  failures : List Fault

def tally : List (Except Fault Value) → Except Fault Tally
  | [] => .ok ⟨0, []⟩
  | .error f :: rest => (tally rest).map fun t => ⟨t.deleted, f :: t.failures⟩
  | .ok answer :: rest => do
    let confirmed ← confirms answer
    let t ← tally rest
    .ok (if confirmed then ⟨t.deleted + 1, t.failures⟩ else t)

def settled (model : String) (t : Tally) : Except Fault Nat :=
  if t.failures.isEmpty then .ok t.deleted
  else .error (.deletesFailed model t.failures t.deleted)

/-- Deletes every document that a filter lets through, up to a limit. -/
def all (pageSize : Nat) (limit : Option Nat) (h : Handle) (filter : Value) : Program Nat := do
  let docs ← Query.resolve pageSize h filter limit
  let outcomes ← Program.collect (docs.map (document h))
  let t ← Program.ofExcept (tally outcomes)
  Program.ofExcept (settled h.name t)

end ModelStore.Remove
