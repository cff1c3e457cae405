import ModelStore.Number.Decimal.Difference
import ModelStore.Store.Exchange
import ModelStore.Value.Equality

/-! Paged reads. One answer may hold fewer documents than asked for although more match,
so a scan repeats its request with the bookmark of the last answer. It ends when the
limit is met, a page is empty, or the bookmark is missing or stays the same. The offset
goes with the first request only; after that the bookmark carries the position. -/

namespace ModelStore

/-- A limit on the documents of a scan, as its caller wrote it. -/
inductive Limit where
  | whole (n : Int)
  | binary (x : Binary64)
  | decimal (d : Decimal)

namespace Limit

/-- A limit must be a number. A decimal one must be defined and not be too great. -/
def ofValue : Value → Except Fault Limit
  | .int n => .ok (whole n)
  | .bool b => .ok (whole (if b then 1 else 0))
  | .float x => .ok (binary x)
  | .scalar (.decimal d) =>
    if d.isNaN then .error (.shape .undefinedNumber)
    else
      match d.minus? 0 with
      | some d => .ok (decimal d)
      | none => .error (.shape .unboundedNumber)
  | _ => .error (.shape .wrongType)

/-- What is left of a limit after some documents. -/
def less (l : Limit) (found : Nat) : Limit :=
  match l with
  | whole n => whole (n - found)
  | binary x => binary (x.sub (Binary64.ofInt found))
  | decimal d => decimal ((d.minus? found).getD d)

def isMet : Limit → Bool
  | whole n => n ≤ 0
  | binary x =>
    match x.key? with
    | some key => key ≤ 0
    | none => false
  | decimal d => !d.isPositive

def below (l : Limit) (n : Nat) : Bool :=
  match l with
  | whole m => m < n
  | binary x =>
    match x.key? with
    | some key => key < Binary64.intKey n
    | none => false
  | decimal d => d.isBelow n

def toValue : Limit → Value
  | whole n => .int n
  | binary x => .float x
  | decimal d => .scalar (.decimal d)

end Limit

structure Scan where
  database : String
  request : Fields
  pageSize : Nat
  limit : Option Limit
  bookmark : Value
  found : List Value

namespace Scan

def start (database : String) (query : Fields) (pageSize : Nat) (limit : Option Limit)
    (offset : Value) : Scan :=
  let request := Entries.erase query "bookmark"
  let request := if offset.truthy then Entries.set request "skip" offset else request
  ⟨database, request, pageSize, limit, .null, []⟩

/-- The number of documents to ask for next. -/
def pageLimit (s : Scan) : Value :=
  match s.limit with
  | none => .int s.pageSize
  | some l =>
    let left := l.less s.found.length
    if left.below s.pageSize then left.toValue else .int s.pageSize

def isMet (s : Scan) : Bool := s.limit.any fun l => (l.less s.found.length).isMet

def body (s : Scan) : Fields := Entries.set s.request "limit" s.pageLimit

inductive Next where
  | ended (result : Except Fault (List Value))
  | ask (c : Call)

def next (s : Scan) : Next :=
  if s.isMet then .ended (.ok s.found) else .ask (Call.find s.database s.body)

structure Page where
  docs : List Value
  bookmark : Value

def page (s : Scan) (answer : Value) : Except Fault Page :=
  match answer with
  | .object fields =>
    match Entries.get? fields "docs" with
    | some (.array docs) => .ok ⟨docs, Value.ofOption (Entries.get? fields "bookmark")⟩
    | _ => .error (.protocol (.findWithoutDocs (.object s.body)) (some (.object s.body)))
  | _ => .error (.protocol .findNotObject (some (.object s.body)))

def isLast (s : Scan) (p : Page) : Bool :=
  p.docs.isEmpty || !p.bookmark.truthy || p.bookmark.same s.bookmark

def turn (s : Scan) (p : Page) : Scan :=
  { s with
    request := Entries.erase (Entries.set s.body "bookmark" p.bookmark) "skip"
    bookmark := p.bookmark
    found := s.found ++ p.docs }

/-- What comes of a call makes the end of a scan or its continuation. -/
def receive (s : Scan) (c : Call) (x : Exchange) : Except Fault (List Value) ⊕ Scan :=
  match (x.value c).bind s.page with
  | .error f => .inl (.error f)
  | .ok p => if s.isLast p then .inl (.ok (s.found ++ p.docs)) else .inr (s.turn p)

end Scan

end ModelStore
