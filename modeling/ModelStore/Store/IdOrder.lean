import ModelStore.Direction
import ModelStore.Value.Members

/-! The order of documents by their ids as numbers. The store keeps ids as text and sorts
them so, with `10` before `9`. When an order names `_id`, documents are sorted again by
the number that each id stands for; an id that is no number counts as zero, and documents
of equal number keep their places in both directions. -/

namespace ModelStore.IdOrder

def idNumber : Value → Except Fault Int
  | .str s => .ok ((Number.integer? s).getD 0)
  | .int n => .ok n
  | .bool b => .ok (if b then 1 else 0)
  | .float x => if x.isInfinite then .error (.shape .tooLarge) else .ok (x.trunc?.getD 0)
  | .scalar (.decimal (.infinite _)) => .error (.shape .tooLarge)
  | .scalar (.decimal d) => .ok (d.trunc?.getD 0)
  | .scalar (.uuid u) => .ok u.value
  | _ => .ok 0

def docNumber (doc : Value) : Except Fault Int := do
  let fields ← doc.fieldsFor "get"
  idNumber ((Entries.get? fields "_id").getD (.int 0))

structure Numbered where
  number : Int
  doc : Value

def Numbered.of (doc : Value) : Except Fault Numbered := (docNumber doc).map (⟨·, doc⟩)

def mayPrecede (d : Direction) (a b : Numbered) : Bool :=
  match d with
  | .asc => a.number ≤ b.number
  | .desc => b.number ≤ a.number

def sortBy (d : Direction) (docs : List Value) : Except Fault (List Value) :=
  (docs.mapM Numbered.of).map fun numbered =>
    (numbered.mergeSort (mayPrecede d)).map Numbered.doc

/-- The direction in which a sort entry orders the ids, if it does. -/
def direction? (entry : Value) : Except Fault (Option Direction) :=
  match entry with
  | .object fields =>
    .ok ((Entries.get? fields "_id").map fun v => if v.same (.str "desc") then .desc else .asc)
  | v => do
    let named ← v.holds "_id"
    if named then .error (.shape .wrongType) else .ok none

def sortEntry (docs : List Value) (entry : Value) : Except Fault (List Value) := do
  match ← direction? entry with
  | some d => sortBy d docs
  | none => .ok docs

/-- Entries are followed one after the other, so the last one that names `_id` decides. -/
def sortEntries (docs entries : List Value) : Except Fault (List Value) :=
  entries.foldlM sortEntry docs

/-- The documents in the order of a sort. A text has characters for entries, an object its
keys. -/
def resort (docs : List Value) (sort : Value) : Except Fault (List Value) := do
  let entries ← sort.members
  sortEntries docs entries

end ModelStore.IdOrder
