import ModelStore.Index.Listing
import ModelStore.Value.Ranking

/-! What a migration does to the indexes of a model. A full rebuild drops every listed
index and adds every candidate. Otherwise a candidate that is listed with the same fields
stays, one that is listed with others is dropped and added, one that is not listed is
added, and a listed index that is no candidate is dropped. A plan is made only if the names
of the indexes to drop have an order among themselves. -/

namespace ModelStore

structure IndexPlan where
  add : Entries Candidate
  drop : Listing

namespace IndexPlan

def isEmpty (p : IndexPlan) : Bool := p.add.isEmpty && p.drop.isEmpty

/-- The same fields with the same directions, in any order. -/
def sameFields (a b : List IndexField) : Bool :=
  a.all (fun f => b.contains f) && b.all fun f => a.contains f

def step (listing : Listing) (plan : IndexPlan) (e : String × Candidate) : IndexPlan :=
  match Listing.get? listing e.1 with
  | none => { plan with add := Entries.set plan.add e.1 e.2 }
  | some old =>
    if sameFields e.2.fields old.fields then plan
    else ⟨Entries.set plan.add e.1 e.2, Listing.set plan.drop old⟩

def isCandidate (candidates : Entries Candidate) (name : Value) : Bool :=
  match name with
  | .str s => Entries.has candidates s
  | _ => false

def update (candidates : Entries Candidate) (listing : Listing) : IndexPlan :=
  let plan := candidates.foldl (step listing) ⟨[], []⟩
  let orphans := listing.filter fun e => !isCandidate candidates e.1
  { plan with drop := plan.drop ++ orphans }

def of (candidates : Entries Candidate) (listing : Listing) (rebuild : Bool) : IndexPlan :=
  if rebuild then ⟨candidates, listing⟩ else update candidates listing

/-- Whether the names of the indexes to drop can be put in order. -/
def isOrdered (p : IndexPlan) : Bool := (Value.sorted? (p.drop.map Prod.fst)).isSome

def make (candidates : Entries Candidate) (listing : Listing) (rebuild : Bool) :
    Except Fault IndexPlan :=
  let plan := of candidates listing rebuild
  if plan.isOrdered then .ok plan else .error (.shape .wrongType)

end IndexPlan

end ModelStore
