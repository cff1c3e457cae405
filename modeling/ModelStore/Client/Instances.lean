import ModelStore.Client.Action
import ModelStore.Store.Bulk
import ModelStore.Store.Read
import ModelStore.Store.Remove
import ModelStore.Store.Save

/-! Reading and writing the instances of a model by its name. -/

namespace ModelStore.Client

open ModelStore.Action

def allRaw (model : String) (criteria useIndex : Value) : Action (List Value) := do
  let c ← ofExcept (Criteria.ofValue criteria)
  onModel model fun s h => Read.raw s h c useIndex

def all (model : String) (criteria useIndex : Value) : Action (List Fields) := do
  let c ← ofExcept (Criteria.ofValue criteria)
  onModel model fun s h => Read.all s h c useIndex

def findById (model : String) (id : Value) : Action (Option Fields) :=
  onModel model fun s h => Read.byId s h id

def contains (model : String) (id : Value) : Action Bool := do
  let found ← findById model id
  pure found.isSome

def count (model : String) (filter : Value) : Action Nat :=
  onModel model fun s h => Read.count s h filter

def create (model : String) (data : Value) : Action Receipt :=
  onModel model fun _ h => Write.create h data

def save (model : String) (data : Value) : Action Fields :=
  onModel model fun _ h => Save.save h data

def updateAttributes (model : String) (id data : Value) : Action Fields :=
  onModel model fun _ h => Write.merge h id data

def updateOrCreate (model : String) (data : Value) : Action Save.Saved :=
  onModel model fun _ h => Save.update h data

def replaceOrCreate (model : String) (data : Value) : Action Save.Saved :=
  onModel model fun _ h => Save.replace h data

def replaceById (model : String) (id data : Value) : Action Fields :=
  onModel model fun _ h => Write.replace h id data

def updateAll (model : String) (filter data : Value) : Action Nat :=
  onModel model fun s h => Bulk.update s.pageSize.val h filter data

def bulkReplace (model : String) (data : Value) : Action (List Value) :=
  onModel model fun _ h => Bulk.replace h data

def destroy (model : String) (id : Value) : Action Nat :=
  onModel model fun s h => Remove.one s.pageSize.val h id

def destroyAll (model : String) (filter : Value) : Action Nat :=
  onModel model fun s h => Remove.all s.pageSize.val (Read.limitOf s) h filter

def currentRevision (model : String) (id : Value) : Action String :=
  onModel model fun _ h => Save.currentRevision h id

end ModelStore.Client
