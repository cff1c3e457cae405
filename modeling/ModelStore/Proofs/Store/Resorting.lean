import ModelStore.Proofs.Noted
import ModelStore.Selector.Order
import ModelStore.Store.IdOrder

/-! Sorts by several keys, of which ids are one. Documents that a store has sorted with their ids as
text are sorted again by the numbers of these ids and by nothing else. So a pair of them that is
turned falls out of the order of the keys before the id, and a pair that is not turned keeps the
order of the texts. -/

namespace ModelStore

/-- A relation of two elements in the places that a sort gives them. The first stood before the
second. -/
def Placed {α : Type} (le : α → α → Bool) (R : α → α → Prop) (a b : α) : Prop :=
  if le a b then R a b else R b a

section

variable {α : Type} {le : α → α → Bool} {R : α → α → Prop}

theorem pairwise_append_cons {before after : List α} {a : α} :
    (before ++ a :: after).Pairwise R ↔
      (before ++ after).Pairwise R ∧ (∀ b ∈ before, R b a) ∧ ∀ b ∈ after, R a b := by
  simp only [List.pairwise_append, List.pairwise_cons, List.mem_cons]
  grind

/-- The pairs of a sorted list: a pair is turned if it has to be, and keeps its places otherwise. -/
theorem pairwise_mergeSort_iff (trans : ∀ a b c, le a b = true → le b c = true → le a c = true)
    (total : ∀ a b, (le a b || le b a) = true) (l : List α) :
    (l.mergeSort le).Pairwise R ↔ l.Pairwise (Placed le R) := by
  induction l with
  | nil => simp
  | cons a l ih =>
    obtain ⟨before, after, whole, rest, turned⟩ := List.mergeSort_cons trans total a l
    have kept : ∀ b ∈ after, le a b = true := by
      have ordered := List.pairwise_mergeSort trans total (a :: l)
      rw [whole] at ordered
      exact (pairwise_append_cons.1 ordered).2.2
    have members : ∀ b, b ∈ l ↔ b ∈ before ∨ b ∈ after := fun b => by
      rw [← List.mem_append, ← rest, List.mem_mergeSort]
    have first : (∀ b ∈ l, Placed le R a b) ↔ (∀ b ∈ before, R b a) ∧ ∀ b ∈ after, R a b := by
      simp only [members, or_imp, forall_and]
      refine and_congr (forall₂_congr fun b mem => ?_) (forall₂_congr fun b mem => ?_)
      · have other : le a b = false := by simpa using turned b mem
        rw [Placed, other]
        exact Iff.rfl
      · rw [Placed, kept b mem]
        exact Iff.rfl
    rw [whole, pairwise_append_cons, ← rest, ih, List.pairwise_cons, first, and_comm]

end

structure Identified where
  fields : Fields
  id : String
  named : Entries.get? fields "_id" = some (.str id)

namespace Identified

def doc (x : Identified) : Value := .object x.fields

/-- The number of an id, which is zero if the id is no number. -/
def number (x : Identified) : Int := (Number.integer? x.id).getD 0

/-- Whether the number of the first may stand before that of the second. -/
def mayPrecede (d : Direction) (a b : Identified) : Bool :=
  IdOrder.mayPrecede d ⟨a.number, a.doc⟩ ⟨b.number, b.doc⟩

variable {d : Direction} {a b : Identified}

theorem mayPrecede_trans (d : Direction) (a b c : Identified) (first : mayPrecede d a b = true)
    (second : mayPrecede d b c = true) : mayPrecede d a c = true := by
  cases d <;> simp [mayPrecede, IdOrder.mayPrecede] at first second ⊢ <;> omega

theorem mayPrecede_total (d : Direction) (a b : Identified) :
    (mayPrecede d a b || mayPrecede d b a) = true := by
  cases d <;> simp [mayPrecede, IdOrder.mayPrecede] <;> omega

theorem docNumber_doc (x : Identified) : IdOrder.docNumber x.doc = .ok x.number := by
  show IdOrder.idNumber ((Entries.get? x.fields "_id").getD (.int 0)) = _
  rw [x.named]
  rfl

/-- Documents after the sort by number that a key asks for. -/
def sortedAt (key : SortKey) (docs : List Identified) : List Identified :=
  if key.1 = "_id" then docs.mergeSort (mayPrecede key.2) else docs

/-- Documents after the sorts by number that the keys of an order ask for. -/
def resorted : List SortKey → List Identified → List Identified
  | [], docs => docs
  | key :: rest, docs => resorted rest (sortedAt key docs)

theorem sortBy_docs (d : Direction) (docs : List Identified) :
    IdOrder.sortBy d (docs.map doc) = .ok ((docs.mergeSort (mayPrecede d)).map doc) := by
  have numbered : (docs.map doc).mapM IdOrder.Numbered.of =
      .ok (docs.map fun x => ⟨x.number, x.doc⟩) := by
    induction docs with
    | nil => rfl
    | cons x rest ih =>
      rw [List.map_cons, List.mapM_cons]
      refine Except.bind_eq_ok.2 ⟨⟨x.number, x.doc⟩, ?_, Except.bind_eq_ok.2 ⟨_, ih, rfl⟩⟩
      rw [IdOrder.Numbered.of, docNumber_doc]
      rfl
  have alike : (docs.map fun x => (⟨x.number, x.doc⟩ : IdOrder.Numbered)).mergeSort
      (IdOrder.mayPrecede d) = (docs.mergeSort (mayPrecede d)).map fun x => ⟨x.number, x.doc⟩ :=
    (List.map_mergeSort (r := mayPrecede d) (s := IdOrder.mayPrecede d)
      (f := fun x : Identified => ⟨x.number, x.doc⟩) fun _ _ _ _ => rfl).symm
  rw [IdOrder.sortBy, numbered, Except.map, alike, List.map_map]
  rfl

theorem sortEntry_docs (key : SortKey) (docs : List Identified) :
    IdOrder.sortEntry (docs.map doc) (.object [(key.1, .str key.2.name)]) =
      .ok ((sortedAt key docs).map doc) := by
  obtain ⟨name, d⟩ := key
  unfold sortedAt
  by_cases same : name = "_id"
  · subst same
    have directed : IdOrder.direction? (.object [("_id", .str d.name)]) = .ok (some d) := by
      cases d <;> rfl
    exact Except.bind_eq_ok.2 ⟨some d, directed, (sortBy_docs d docs).trans (by simp)⟩
  · have undirected : IdOrder.direction? (.object [(name, .str d.name)]) = .ok none := by
      simp [IdOrder.direction?, Entries.get?, same]
    exact Except.bind_eq_ok.2 ⟨none, undirected, by simp [same]⟩

theorem resort_docs (keys : List SortKey) (docs : List Identified) :
    IdOrder.resort (docs.map doc) (Order.toValue keys) = .ok ((resorted keys docs).map doc) := by
  refine Except.bind_eq_ok.2 ⟨_, rfl, ?_⟩
  induction keys generalizing docs with
  | nil => rfl
  | cons key rest ih =>
    exact List.foldlM_cons.trans (Except.bind_eq_ok.2 ⟨_, sortEntry_docs key docs, ih _⟩)

theorem resorted_perm (keys : List SortKey) (docs : List Identified) :
    (resorted keys docs).Perm docs := by
  induction keys generalizing docs with
  | nil => exact .refl _
  | cons key rest ih =>
    refine (ih _).trans ?_
    unfold sortedAt
    split
    · exact List.mergeSort_perm _ _
    · exact .refl _

theorem resorted_eq {keys : List SortKey} (other : ∀ key ∈ keys, key.1 ≠ "_id")
    (docs : List Identified) : resorted keys docs = docs := by
  induction keys with
  | nil => rfl
  | cons key rest ih =>
    rw [resorted, sortedAt, if_neg (other key List.mem_cons_self)]
    exact ih fun key mem => other key (List.mem_cons_of_mem _ mem)

def lastDirection? : List SortKey → Option Direction
  | [] => none
  | (name, d) :: rest => (lastDirection? rest).or (if name = "_id" then some d else none)

theorem placed_placed (d d' : Direction) (R : Identified → Identified → Prop) :
    Placed (mayPrecede d) (Placed (mayPrecede d') R) = Placed (mayPrecede d') R := by
  funext a b
  cases d <;> cases d' <;> simp [Placed, mayPrecede, IdOrder.mayPrecede] <;> grind

theorem pairwise_resorted_iff (keys : List SortKey) (docs : List Identified)
    (R : Identified → Identified → Prop) :
    (resorted keys docs).Pairwise R ↔ docs.Pairwise (match lastDirection? keys with
      | none => R
      | some d => Placed (mayPrecede d) R) := by
  induction keys generalizing docs with
  | nil => exact Iff.rfl
  | cons key rest ih =>
    obtain ⟨name, d⟩ := key
    refine (ih _).trans ?_
    rw [sortedAt, lastDirection?]
    by_cases same : name = "_id"
    · rw [if_pos same, if_pos same,
        pairwise_mergeSort_iff (mayPrecede_trans d) (mayPrecede_total d)]
      cases lastDirection? rest with
      | none => exact Iff.rfl
      | some d' => exact iff_of_eq (congrArg docs.Pairwise (placed_placed d d' R))
    · rw [if_neg same, if_neg same, Option.or_none]

end Identified

def Direction.turn : Direction → Ordering → Ordering
  | asc, o => o
  | desc, o => o.swap

theorem Direction.swap_turn (d : Direction) (o : Ordering) : (d.turn o).swap = d.turn o.swap := by
  cases d <;> rfl

/-- What becomes of a pair that is turned by the order `n` in the direction `last`, if it is wanted
in the order of `o`, then of `n` in the direction `first`, then of `r`. -/
theorem Direction.settles_iff (first last : Direction) {o n r : Ordering}
    (started : o.isLE = true) :
    (if (last.turn n).isLE = true then (o.then ((first.turn n).then r)).isLE = true
      else (o.then ((first.turn n).then r)).isGE = true) ↔
    (o = .lt → (last.turn n).isLE = true) ∧ (o = .eq → n ≠ .eq → first = last) ∧
      (o = .eq → n = .eq → r.isLE = true) := by
  cases first <;> cases last <;> cases o <;> cases n <;> cases r <;> simp_all [turn]

/-- How a store compares texts, and documents by a field. -/
structure Collation where
  text : String → String → Ordering
  field : String → Fields → Fields → Ordering
  text_swap : ∀ s t, (text s t).swap = text t s
  field_swap : ∀ key a b, (field key a b).swap = field key b a

namespace Collation

open Identified (mayPrecede lastDirection? resorted)

variable {k : Collation} {ids : Identified → Identified → Ordering} {keys : List SortKey}
  {a b : Identified}

/-- The order of documents by a key, with an order of their ids given. -/
def byKey (k : Collation) (ids : Identified → Identified → Ordering) (key : SortKey)
    (a b : Identified) : Ordering :=
  key.2.turn (if key.1 = "_id" then ids a b else k.field key.1 a.fields b.fields)

/-- The order of documents by keys, each of which decides where those before it do not. -/
def byKeys (k : Collation) (ids : Identified → Identified → Ordering) :
    List SortKey → Identified → Identified → Ordering
  | [], _, _ => .eq
  | key :: rest, a, b => (k.byKey ids key a b).then (k.byKeys ids rest a b)

def textual (k : Collation) (a b : Identified) : Ordering := k.text a.id b.id

def numeric (a b : Identified) : Ordering := compare a.number b.number

def InText (k : Collation) (keys : List SortKey) (a b : Identified) : Prop :=
  (k.byKeys k.textual keys a b).isLE = true

def InNumber (k : Collation) (keys : List SortKey) (a b : Identified) : Prop :=
  (k.byKeys numeric keys a b).isLE = true

instance (k : Collation) (keys : List SortKey) (a b : Identified) : Decidable (k.InText keys a b) :=
  inferInstanceAs (Decidable (_ = true))

instance (k : Collation) (keys : List SortKey) (a b : Identified) :
    Decidable (k.InNumber keys a b) :=
  inferInstanceAs (Decidable (_ = true))

theorem numeric_swap (a b : Identified) : (numeric a b).swap = numeric b a :=
  (Std.OrientedCmp.eq_swap : compare b.number a.number = (compare a.number b.number).swap).symm

theorem mayPrecede_eq (d : Direction) (a b : Identified) :
    mayPrecede d a b = (d.turn (numeric a b)).isLE := by
  rw [Bool.eq_iff_iff]
  cases d with
  | asc => simp [mayPrecede, IdOrder.mayPrecede, Direction.turn, numeric, Std.isLE_compare]
  | desc => simp [mayPrecede, IdOrder.mayPrecede, Direction.turn, numeric, Std.isGE_compare]

theorem byKeys_append (before after : List SortKey) :
    k.byKeys ids (before ++ after) a b =
      (k.byKeys ids before a b).then (k.byKeys ids after a b) := by
  induction before with
  | nil => rfl
  | cons key rest ih => simp only [List.cons_append, byKeys, ih, Ordering.then_assoc]

theorem byKeys_swap (swap : ∀ a b, (ids a b).swap = ids b a) (keys : List SortKey) :
    (k.byKeys ids keys a b).swap = k.byKeys ids keys b a := by
  induction keys with
  | nil => rfl
  | cons key rest ih =>
    have first : (k.byKey ids key a b).swap = k.byKey ids key b a := by
      unfold byKey
      rw [Direction.swap_turn]
      split
      · rw [swap]
      · rw [k.field_swap]
    rw [byKeys, Ordering.swap_then, first, ih, byKeys]

theorem byKeys_congr (ids ids' : Identified → Identified → Ordering)
    (other : ∀ key ∈ keys, key.1 ≠ "_id") : k.byKeys ids keys a b = k.byKeys ids' keys a b := by
  induction keys with
  | nil => rfl
  | cons key rest ih =>
    have first : k.byKey ids key a b = k.byKey ids' key a b := by
      simp only [byKey, if_neg (other key List.mem_cons_self)]
    rw [byKeys, byKeys, first, ih fun key mem => other key (List.mem_cons_of_mem _ mem)]

/-- Whether a sort by number in the direction `last` puts two documents in the order of keys, of
which the id is the first after `before`. The first document stood before the second. -/
structure Settles (k : Collation) (before : List SortKey) (first last : Direction)
    (after : List SortKey) (a b : Identified) : Prop where
  earlier : k.byKeys numeric before a b = .lt → mayPrecede last a b = true
  directed : k.byKeys numeric before a b = .eq → a.number ≠ b.number → first = last
  later : k.byKeys numeric before a b = .eq → a.number = b.number → k.InNumber after a b

instance (k : Collation) (before : List SortKey) (first last : Direction) (after : List SortKey)
    (a b : Identified) : Decidable (k.Settles before first last after a b) :=
  decidable_of_iff
    ((k.byKeys numeric before a b = .lt → mayPrecede last a b = true) ∧
      (k.byKeys numeric before a b = .eq → a.number ≠ b.number → first = last) ∧
      (k.byKeys numeric before a b = .eq → a.number = b.number → k.InNumber after a b))
    ⟨fun h => ⟨h.1, h.2.1, h.2.2⟩, fun h => ⟨h.earlier, h.directed, h.later⟩⟩

theorem placed_iff {before after : List SortKey} {first last : Direction}
    (other : ∀ key ∈ before, key.1 ≠ "_id")
    (inText : k.InText (before ++ ("_id", first) :: after) a b) :
    Placed (mayPrecede last) (k.InNumber (before ++ ("_id", first) :: after)) a b ↔
      k.Settles before first last after a b := by
  have turned : k.InNumber (before ++ ("_id", first) :: after) b a ↔
      (k.byKeys numeric (before ++ ("_id", first) :: after) a b).isGE = true := by
    rw [InNumber, ← byKeys_swap numeric_swap, Ordering.isLE_swap]
  have same : a.number = b.number ↔ numeric a b = .eq := by simp [numeric]
  have started : (k.byKeys numeric before a b).isLE = true := by
    rw [InText, byKeys_append] at inText
    rw [byKeys_congr numeric k.textual other]
    exact Ordering.isLE_left_of_isLE_then inText
  have key : k.byKey numeric ("_id", first) a b = first.turn (numeric a b) := rfl
  have settles : k.Settles before first last after a b ↔
      (k.byKeys numeric before a b = .lt → (last.turn (numeric a b)).isLE = true) ∧
      (k.byKeys numeric before a b = .eq → numeric a b ≠ .eq → first = last) ∧
      (k.byKeys numeric before a b = .eq → numeric a b = .eq →
        (k.byKeys numeric after a b).isLE = true) := by
    simp only [← mayPrecede_eq, ne_eq, ← same]
    exact ⟨fun h => ⟨h.earlier, h.directed, h.later⟩, fun h => ⟨h.1, h.2.1, h.2.2⟩⟩
  rw [Placed, turned, InNumber, byKeys_append, byKeys, key, settles, mayPrecede_eq]
  exact Direction.settles_iff first last started

/-- What a second sort makes of documents that a store has sorted with their ids as text. They are
in the same order with their ids as numbers just if every pair of them is settled by the numbers
alone: the keys before the id do not mind, the id goes in the direction of its last key, and the
keys after it find documents of equal numbers in order. -/
theorem resort_ordered_iff (k : Collation) (keys : List SortKey) {docs : List Identified}
    (inText : docs.Pairwise (k.InText keys)) :
    ∃ sorted : List Identified, IdOrder.resort (docs.map Identified.doc) (Order.toValue keys) =
        .ok (sorted.map Identified.doc) ∧
      sorted.Perm docs ∧
      ((∀ key ∈ keys, key.1 ≠ "_id") → sorted = docs ∧ sorted.Pairwise (k.InNumber keys)) ∧
      ∀ before first after last, keys = before ++ ("_id", first) :: after →
        (∀ key ∈ before, key.1 ≠ "_id") → lastDirection? keys = some last →
        (sorted.Pairwise (k.InNumber keys) ↔
          docs.Pairwise (k.Settles before first last after)) := by
  refine ⟨resorted keys docs, Identified.resort_docs keys docs, Identified.resorted_perm keys docs,
    fun other => ?_, fun before first after last split other newest => ?_⟩
  · have same := Identified.resorted_eq other docs
    rw [same]
    refine ⟨rfl, inText.imp fun ordered => ?_⟩
    rwa [InNumber, byKeys_congr numeric k.textual other]
  · subst split
    rw [Identified.pairwise_resorted_iff, newest]
    constructor
    · intro placed
      exact (inText.and placed).imp fun pair => (placed_iff other pair.1).1 pair.2
    · intro settles
      exact (inText.and settles).imp fun pair => (placed_iff other pair.1).2 pair.2

def letters : Collation where
  text := compare
  field key a b := compare (shown key a) (shown key b)
  text_swap _ _ := Std.OrientedCmp.eq_swap.symm
  field_swap _ _ _ := Std.OrientedCmp.eq_swap.symm
where
  shown (key : String) (fields : Fields) : String :=
    match Entries.get? fields key with
    | some (.str s) => s
    | _ => ""

def named (id name : String) : Identified := ⟨[("_id", .str id), ("name", .str name)], id, rfl⟩

/-- The ids go down with the names going up, and so do their numbers. -/
theorem resort_ordered_shelf :
    ∃ sorted : List Identified,
      IdOrder.resort ([named "2" "cup", named "10" "cup", named "1" "pot"].map Identified.doc)
        (Order.toValue [("name", .asc), ("_id", .desc)]) = .ok (sorted.map Identified.doc) ∧
      sorted.Pairwise (letters.InNumber [("name", .asc), ("_id", .desc)]) := by
  have inText : [named "2" "cup", named "10" "cup", named "1" "pot"].Pairwise
      (letters.InText [("name", .asc), ("_id", .desc)]) := by
    decide
  obtain ⟨sorted, same, -, -, ordered⟩ := resort_ordered_iff letters _ inText
  exact ⟨sorted, same, (ordered [("name", .asc)] .desc [] .desc rfl (by simp) rfl).2 (by decide)⟩

/-- Sorted again by its numbers a shelf is no longer in the order of its names. -/
theorem resort_unsettles_name :
    [named "2" "cup", named "1" "pot"].Pairwise (letters.InText [("name", .asc), ("_id", .asc)]) ∧
      IdOrder.resort ([named "2" "cup", named "1" "pot"].map Identified.doc)
        (Order.toValue [("name", .asc), ("_id", .asc)]) =
          .ok ([named "1" "pot", named "2" "cup"].map Identified.doc) ∧
      ¬letters.InNumber [("name", .asc), ("_id", .asc)] (named "1" "pot") (named "2" "cup") := by
  refine ⟨by decide, ?_, by decide⟩
  have behind : mayPrecede .asc (named "2" "cup") (named "1" "pot") = false := by decide
  rw [Identified.resort_docs]
  simp [Identified.resorted, Identified.sortedAt, List.mergeSort, behind]

end Collation

end ModelStore
