import ModelStore.Filter.Basic
import ModelStore.Proofs.Entries
import ModelStore.Proofs.Text.Cut
import ModelStore.Proofs.Value.Collation
import ModelStore.Value.Members

/-! Which documents a selector picks out. A selector is the conjunction of its entries. A key
that joins selectors holds a list of them; a key with a dollar sign in front is an operator
on the value at hand; any other key leads to a field, where dots go down into objects. Under
a field stands the value to equal, or an object: of operators on the field, or else a selector
for the object found there. What the store cannot read counts as not met. How patterns are
searched for is up to the store. -/

namespace ModelStore

def Junction.ofKey? (key : String) : Option Junction :=
  if key = "$and" then some .and
  else if key = "$or" then some .or
  else if key = "$nor" then some .nor
  else none

@[simp] theorem Junction.ofKey?_key (j : Junction) : ofKey? j.key = some j := by
  cases j <;> decide

theorem Junction.key_of_ofKey? {key : String} {j : Junction} (h : ofKey? key = some j) :
    key = j.key := by
  unfold ofKey? at h
  split at h
  · rename_i same
    cases h
    rw [same]
    rfl
  · split at h
    · rename_i same
      cases h
      rw [same]
      rfl
    · split at h
      · rename_i same
        cases h
        rw [same]
        rfl
      · cases h

def Junction.ofNone : Junction → Bool
  | .or => false
  | _ => true

namespace Selector

/-- Whether a pattern is found in a text. -/
abbrev Search := String → String → Bool

def isOperator (key : String) : Bool := key.toList.head? = some '$'

def elemKey : String := "$elemMatch"

def valueAt : List String → Value → Option Value
  | [], v => some v
  | key :: rest, v => (v.get? key).bind (valueAt rest)

/-- The value of a document under a key, whose dots go down into objects. -/
def fieldAt (key : String) (v : Value) : Option Value := valueAt (Text.cut '.' key) v

/-- Whether a value is a member of another; none if that cannot be asked. A text has its parts for
members and is asked about texts, an object has its keys and is asked about what can be a key. -/
def memberOf? (arg v : Value) : Option Bool :=
  match arg with
  | .array items => some (v.elem items)
  | .tuple items => some (v.elem items)
  | .object fields =>
    match v with
    | .str key => some (Entries.has fields key)
    | v => if v.isKey then some false else none
  | .str s => v.str?.map fun part => Text.occursIn part.toList s.toList
  | _ => none

def relates (search : Search) (op : String) (arg v : Value) : Bool :=
  match op with
  | "$eq" => v.same arg
  | "$ne" => !v.same arg
  | "$gt" => v.collate? arg == some .gt
  | "$gte" => v.collate? arg == some .gt || v.collate? arg == some .eq
  | "$lt" => v.collate? arg == some .lt
  | "$lte" => v.collate? arg == some .lt || v.collate? arg == some .eq
  | "$in" => memberOf? arg v == some true
  | "$nin" => memberOf? arg v == some false
  | "$regex" =>
    match arg, v with
    | .str pattern, .str text => search pattern text
    | _, _ => false
  | _ => false

def applies (search : Search) (op : String) (arg : Value) (v : Option Value) : Bool :=
  if op = "$exists" then v.isSome == arg.truthy else v.any (relates search op arg)

def leafHolds (search : Search) (key : String) (c : Value) (v : Option Value) : Bool :=
  if isOperator key then applies search key c v
  else (v.bind (fieldAt key)).any fun w => w.same c

def isObject : Value → Bool
  | .object _ => true
  | _ => false

def elements : Value → List Value
  | .array items => items
  | _ => []

mutual

/-- Whether a value, if there is one, meets all entries. Only in a selector do `$and`, `$or`
and `$nor` join further selectors; among the operators on a field they mean nothing. -/
def holdsAll (search : Search) (joins : Bool) : List (String × Value) → Option Value → Bool
  | [], _ => true
  | (key, c) :: rest, v => holds search joins key c v && holdsAll search joins rest v

def holds (search : Search) (joins : Bool) (key : String) : Value → Option Value → Bool
  | .object fields, v =>
    match (if joins then Junction.ofKey? key else none) with
    | some j => fields.isEmpty && j.ofNone
    | none =>
      if key = elemKey then
        (v.map elements).any fun items => items.any fun w => holdsAll search true fields (some w)
      else if isOperator key then applies search key (.object fields) v
      else
        let field := v.bind (fieldAt key)
        if fields.isEmpty then field.any fun w => w.same (.object [])
        else if fields.all fun e => isOperator e.1 then holdsAll search false fields field
        else field.any isObject && holdsAll search true fields field
  | .array items, v =>
    match (if joins then Junction.ofKey? key else none) with
    | some .and => allMeet search items v
    | some .or => someMeets search items v
    | some .nor => noneMeets search items v
    | none => leafHolds search key (.array items) v
  | .tuple items, v =>
    match (if joins then Junction.ofKey? key else none) with
    | some .and => allMeet search items v
    | some .or => someMeets search items v
    | some .nor => noneMeets search items v
    | none => leafHolds search key (.tuple items) v
  | c, v =>
    match (if joins then Junction.ofKey? key else none) with
    | some j => c.str? = some "" && j.ofNone
    | none => leafHolds search key c v

def allMeet (search : Search) : List Value → Option Value → Bool
  | [], _ => true
  | .object fields :: rest, v => holdsAll search true fields v && allMeet search rest v
  | _ :: _, _ => false

def someMeets (search : Search) : List Value → Option Value → Bool
  | [], _ => false
  | .object fields :: rest, v => holdsAll search true fields v || someMeets search rest v
  | _ :: _, _ => false

def noneMeets (search : Search) : List Value → Option Value → Bool
  | [], _ => true
  | .object fields :: rest, v => !holdsAll search true fields v && noneMeets search rest v
  | _ :: _, _ => false

end

/-- Whether a document matches a selector. -/
def meets (search : Search) (selector doc : Fields) : Bool :=
  holdsAll search true selector (some (.object doc))

variable {search : Search} {joins : Bool} {v : Option Value}

theorem fieldAt_eq_get? {key : String} (undotted : '.' ∉ key.toList) (v : Value) :
    fieldAt key v = v.get? key := by
  rw [fieldAt, Text.cut_of_not_mem undotted, valueAt]
  cases v.get? key <;> rfl

theorem isOperator_key (j : Junction) : isOperator j.key = true := by
  cases j <;> decide

theorem ofKey?_of_not_operator {key : String} (h : isOperator key = false) :
    Junction.ofKey? key = none := by
  cases hj : Junction.ofKey? key with
  | none => rfl
  | some j =>
    rw [Junction.key_of_ofKey? hj, isOperator_key] at h
    cases h

theorem holdsAll_iff {entries : List (String × Value)} :
    holdsAll search joins entries v = true ↔
      ∀ e ∈ entries, holds search joins e.1 e.2 v = true :=
  Entries.forall_iff (holdsAll search joins · v = true) (by simp [holdsAll]) (by simp [holdsAll])

theorem meets_single (key : String) (f : Value) (doc : Fields) :
    meets search [(key, f)] doc = holds search true key f (some (.object doc)) := by
  rw [meets, holdsAll, holdsAll, Bool.and_true]

theorem holds_elemMatch (fields : Fields) :
    holds search joins elemKey (.object fields) v =
      (v.map elements).any fun items => items.any fun w =>
        holdsAll search true fields (some w) := by
  have plain : (if joins then Junction.ofKey? elemKey else none) = none := by
    cases joins <;> rfl
  rw [holds, plain]
  simp only [if_true]

/-- Under a field the entries are operators on it, or a selector for the object found there. -/
theorem holds_field {key : String} {fields : Fields} (field : isOperator key = false)
    (some_ : fields.isEmpty = false) :
    holds search joins key (.object fields) v =
      if fields.all fun e => isOperator e.1 then
        holdsAll search false fields (v.bind (fieldAt key))
      else (v.bind (fieldAt key)).any isObject &&
        holdsAll search true fields (v.bind (fieldAt key)) := by
  have plain : (if joins then Junction.ofKey? key else none) = none := by
    rw [ofKey?_of_not_operator field, ite_self]
  have other : key ≠ elemKey := by
    rintro rfl
    cases field
  rw [holds, plain]
  simp only [other, field, some_, if_false, Bool.false_eq_true]

end Selector

end ModelStore
