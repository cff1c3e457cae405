import ModelStore.Index.Plan
import ModelStore.Store.Program
import ModelStore.Value.Members

/-! Bringing the indexes of a model in line with its definition. The listing is read, a
plan is made, and the plan is carried out: design documents are dropped first, since a
changed index is created again under the same design document. -/

namespace ModelStore.Migration

def entries (db : String) : Program Value := do
  let answer ← Program.request (.listIndexes db)
  let fields ← Program.ofExcept (answer.fieldsFor "get")
  pure ((Entries.get? fields "indexes").getD (.array []))

def listing (h : Handle) : Program Listing := do
  let listed ← entries h.database
  let items ← Program.ofExcept listed.members
  Program.ofExcept (ListedIndex.listOwned Naming.default h.name items)

/-- The id of a design document given with or without its leading segment. -/
def designId (design : String) : String :=
  if (Path.designName? design).isSome then design else designPrefix ++ design

/-- Deletes a design document at its current revision; false if it is gone already. -/
def dropDesign (db design : String) : Program Bool :=
  let dropped : Program Bool := do
    let found ← Program.request (.get db (designId design))
    let rev ← Program.ofExcept (found.required "_rev")
    let _ ← Program.request (.delete db (designId design) rev)
    pure true
  dropped.rescue fun f => if f.isNotFound then pure false else Program.fail f

def create (h : Handle) (c : Candidate) : Program Value :=
  Program.request (.createIndex h.database c.toRequest)

/-- The design documents of listed indexes, each once. -/
def designs (l : Listing) : List String := (l.filterMap fun e => e.2.design.str?).eraseDups

def carryOut (h : Handle) (p : IndexPlan) : Program Unit := do
  (designs p.drop).forM fun design => discard (dropDesign h.database design)
  p.add.forM fun e => discard (create h e.2)

def plan (h : Handle) (rebuild : Bool) : Program IndexPlan := do
  let owned ← listing h
  let wanted ← Program.ofNoted (Candidate.all Naming.default h.definition h.discriminator)
  Program.ofExcept (IndexPlan.make wanted owned rebuild)

def migrate (h : Handle) (rebuild : Bool) : Program IndexPlan := do
  let p ← plan h rebuild
  carryOut h p
  pure p

def declared (h : Handle) (name : String) (fields : Value) : Noted Candidate := do
  let items ← Noted.ofExcept fields.members
  let fields ← Noted.ofExcept (items.mapM IndexField.ofValue)
  Candidate.ofFields Naming.default h.name name h.discriminator fields

end ModelStore.Migration
