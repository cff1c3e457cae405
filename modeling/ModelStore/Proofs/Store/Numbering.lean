import ModelStore.Proofs.Number.Numeral
import ModelStore.Proofs.Selector.Ordering
import ModelStore.Proofs.Store.Calling
import ModelStore.Proofs.Store.Concurrency
import ModelStore.Proofs.Store.Restricting
import ModelStore.Proofs.Store.Wholeness
import Mathlib.Data.List.Sort
import Mathlib.Data.String.Basic

/-! Reads in the order of numeric ids. The store keeps ids as text and cuts the window in the order
of these texts; what comes in is then put in the order of the numbers. So a window holds the right
documents just if it holds the same ones in both orders. -/

namespace ModelStore

/-- A document whose id is the text of a whole number, with the instance that it is read as. -/
structure Row (h : Handle) where
  number : Int
  fields : Fields
  data : Fields
  named : Entries.get? fields "_id" = some (.str (Number.integerText number))
  short : (Nat.toDigits 10 number.natAbs).length ≤ Number.digitLimit
  read : (Mapper.ofHandle h).fromDoc .null (.object fields) = .ok data

namespace Row

variable {h : Handle} {d : Direction}

def doc (r : Row h) : Value := .object r.fields

def text (r : Row h) : String := Number.integerText r.number

def numberOrder (d : Direction) (a b : Row h) : Bool :=
  IdOrder.mayPrecede d ⟨a.number, a.doc⟩ ⟨b.number, b.doc⟩

def TextOrder : Direction → Row h → Row h → Prop
  | .asc, a, b => a.text ≤ b.text
  | .desc, a, b => b.text ≤ a.text

def byNumber (d : Direction) (rows : List (Row h)) : List (Row h) := rows.mergeSort (numberOrder d)

def cut (offset limit : Option Nat) (rows : List (Row h)) : List (Row h) :=
  upTo limit (rows.drop (offset.getD 0))

theorem docNumber_doc (r : Row h) : IdOrder.docNumber r.doc = .ok r.number := by
  show IdOrder.idNumber ((Entries.get? r.fields "_id").getD (.int 0)) = _
  rw [r.named]
  show Except.ok ((Number.integer? (Number.integerText r.number)).getD 0) = _
  rw [Number.integer?_integerText r.short]
  rfl

theorem resort_docs (rows : List (Row h)) (d : Direction) :
    IdOrder.resort (rows.map doc) (Order.toValue [("_id", d)]) =
      .ok ((byNumber d rows).map doc) := by
  have directed : IdOrder.direction? (.object [("_id", .str d.name)]) = .ok (some d) := by
    cases d <;> rfl
  have numbered : (rows.map doc).mapM IdOrder.Numbered.of =
      .ok (rows.map fun r => ⟨r.number, r.doc⟩) := by
    induction rows with
    | nil => rfl
    | cons r rest ih =>
      rw [List.map_cons, List.mapM_cons]
      refine Except.bind_eq_ok.2 ⟨⟨r.number, r.doc⟩, ?_, Except.bind_eq_ok.2 ⟨_, ih, rfl⟩⟩
      rw [IdOrder.Numbered.of, docNumber_doc]
      rfl
  have sorted : IdOrder.sortBy d (rows.map doc) = .ok ((byNumber d rows).map doc) := by
    have alike : (rows.map fun r => (⟨r.number, r.doc⟩ : IdOrder.Numbered)).mergeSort
        (IdOrder.mayPrecede d) = (byNumber d rows).map fun r => ⟨r.number, r.doc⟩ :=
      (List.map_mergeSort (r := numberOrder d) (s := IdOrder.mayPrecede d)
        (f := fun r : Row h => ⟨r.number, r.doc⟩) fun _ _ _ _ => rfl).symm
    rw [IdOrder.sortBy, numbered, Except.map, alike, List.map_map]
    rfl
  show [Value.object [("_id", .str d.name)]].foldlM IdOrder.sortEntry (rows.map doc) = _
  refine List.foldlM_cons.trans (Except.bind_eq_ok.2 ⟨_, ?_, rfl⟩)
  exact Except.bind_eq_ok.2 ⟨some d, directed, sorted⟩

theorem mapM_read (rows : List (Row h)) :
    (rows.map doc).mapM ((Mapper.ofHandle h).fromDoc .null) = .ok (rows.map data) := by
  induction rows with
  | nil => rfl
  | cons r rest ih =>
    rw [List.map_cons, List.mapM_cons]
    exact Except.bind_eq_ok.2 ⟨_, r.read, Except.bind_eq_ok.2 ⟨_, ih, rfl⟩⟩

theorem cut_sublist (offset limit : Option Nat) (rows : List (Row h)) :
    (cut offset limit rows).Sublist rows :=
  (upTo_sublist _ _).trans (List.drop_sublist _ _)

theorem window_docs (offset limit : Option Nat) (rows : List (Row h)) :
    window (rows.map doc) (offset.getD 0) limit = (cut offset limit rows).map doc := by
  cases limit with
  | none => exact List.map_drop.symm
  | some n => rw [window, cut, upTo, Option.elim, List.map_take, List.map_drop]

theorem byNumber_perm (d : Direction) (rows : List (Row h)) : (byNumber d rows).Perm rows :=
  List.mergeSort_perm _ _

theorem pairwise_byNumber (d : Direction) (rows : List (Row h)) :
    (byNumber d rows).Pairwise (numberOrder d · · = true) := by
  refine List.pairwise_mergeSort (fun a b c => ?_) (fun a b => ?_) rows
  · cases d <;> simp [numberOrder, IdOrder.mayPrecede] <;> omega
  · cases d <;> simp [numberOrder, IdOrder.mayPrecede] <;> omega

theorem eq_of_numberOrder {rows : List (Row h)} (distinct : (rows.map number).Nodup) {a b : Row h}
    (ha : a ∈ rows) (hb : b ∈ rows) (before : numberOrder d a b = true)
    (after : numberOrder d b a = true) : a = b := by
  refine List.inj_on_of_nodup_map distinct ha hb ?_
  cases d <;> simp [numberOrder, IdOrder.mayPrecede] at before after <;> omega

theorem byNumber_eq_of_perm {rows sorted : List (Row h)} (distinct : (rows.map number).Nodup)
    (perm : sorted.Perm rows) (ordered : sorted.Pairwise (numberOrder d · · = true)) :
    byNumber d rows = sorted := by
  refine List.Perm.eq_of_pairwise (fun a b ha hb before after => ?_) (pairwise_byNumber d rows)
    ordered ((byNumber_perm d rows).trans perm.symm)
  exact eq_of_numberOrder distinct ((byNumber_perm d rows).mem_iff.1 ha) (perm.mem_iff.1 hb)
    before after

/-- A window that is cut in the order of the texts and then put in the order of the numbers is the
window in the order of the numbers just if both hold the same rows. -/
theorem byNumber_cut_eq_iff {rows : List (Row h)} (distinct : (rows.map number).Nodup)
    {offset limit : Option Nat} :
    byNumber d (cut offset limit rows) = cut offset limit (byNumber d rows) ↔
      (cut offset limit rows).Perm (cut offset limit (byNumber d rows)) := by
  constructor
  · intro same
    rw [← same]
    exact (byNumber_perm d _).symm
  · intro perm
    have distinct' : ((cut offset limit rows).map number).Nodup :=
      ((cut_sublist offset limit rows).map number).nodup distinct
    exact byNumber_eq_of_perm distinct' perm.symm
      ((pairwise_byNumber d rows).sublist (cut_sublist _ _ _))

theorem byNumber_eq_iff {rows : List (Row h)} :
    byNumber d rows = rows ↔ rows.Pairwise (numberOrder d · · = true) := by
  constructor
  · intro same
    rw [← same]
    exact pairwise_byNumber d rows
  · exact List.mergeSort_of_pairwise

theorem forall_byNumber_cut_iff {rows : List (Row h)} :
    (∀ offset limit, byNumber d (cut offset limit rows) = cut offset limit (byNumber d rows)) ↔
      byNumber d rows = rows := by
  constructor
  · intro every
    -- The windows of one row tell the rows one by one.
    refine List.ext_getElem? fun i => ?_
    have alone : byNumber d ((rows.drop i).take 1) = (rows.drop i).take 1 := by
      cases rows.drop i <;> simp [byNumber]
    have single : (rows.drop i).take 1 = ((byNumber d rows).drop i).take 1 :=
      alone.symm.trans (every (some i) (some 1))
    have first := congrArg List.head? single
    simpa [List.head?_take] using first.symm
  · intro same offset limit
    have sorted : (cut offset limit rows).Pairwise (numberOrder d · · = true) := by
      rw [← same]
      exact (pairwise_byNumber d rows).sublist (cut_sublist _ _ _)
    rw [same]
    exact List.mergeSort_of_pairwise sorted

theorem number_eq_of_text {a b : Row h} (same : a.text = b.text) : a.number = b.number := by
  have read := congrArg Number.integer? same
  rw [text, text, Number.integer?_integerText a.short, Number.integer?_integerText b.short] at read
  exact Option.some.inj read

theorem numberOrder_of_eq {a b : Row h} (same : a.number = b.number) :
    numberOrder d a b = true := by
  cases d <;> simp [numberOrder, IdOrder.mayPrecede, same]

theorem TextOrder.antisymm {a b : Row h} (before : TextOrder d a b) (after : TextOrder d b a) :
    a.text = b.text := by
  cases d with
  | asc => exact le_antisymm before after
  | desc => exact le_antisymm after before

/-- Rows in the order of their texts are in the order of their numbers just if the two orders agree
on them. -/
theorem pairwise_numberOrder_iff {rows : List (Row h)} (sorted : rows.Pairwise (TextOrder d)) :
    rows.Pairwise (numberOrder d · · = true) ↔
      ∀ a ∈ rows, ∀ b ∈ rows, TextOrder d a b → numberOrder d a b = true := by
  constructor
  · intro numbered a ha b hb before
    let Either (a b : Row h) : Prop := numberOrder d a b = true ∨ TextOrder d b a
    have either : Either a b :=
      List.Pairwise.forall_of_forall_of_flip (R := Either)
        (fun a _ => .inl (numberOrder_of_eq rfl)) (numbered.imp .inl) (sorted.imp .inr) ha hb
    rcases either with number | after
    · exact number
    · exact numberOrder_of_eq (number_eq_of_text (before.antisymm after))
  · intro agree
    exact sorted.imp_of_mem fun ha hb before => agree _ ha _ hb before

end Row

namespace Query

variable {site : Except Fault Site} {answers : Request → Reply → Prop} {body : Fields}
  {docs out : List Value} {sort : Value}

theorem yields_resorted (db : String) (pageSize : Nat) (limit offset : Option Nat)
    (sorted : Entries.get? body "sort" = some sort) (filled : sort.truthy = true)
    (scanned : (Program.scan (Scan.start db body pageSize (limit.map fun n : Nat => .whole n)
      (Value.ofOption (offset.map fun n : Nat => .int n))) .done).Yields site answers
        (· = .ok docs)) (resorted : IdOrder.resort docs sort = .ok out) :
    (fetch db (.ofNat pageSize limit offset) true body).Yields site answers (· = .ok out) := by
  have bound : (Window.ofNat pageSize limit offset).limit? =
      .ok (limit.map fun n : Nat => .whole n) := by
    cases limit <;> rfl
  rw [fetch, bound]
  refine Program.Yields.bind (p := Program.find _) scanned ?_
  simp only [sorted, Value.ofOption, filled, Bool.and_self, if_true]
  exact .finished rfl resorted

end Query

/-- A store that answers queries like a given one with pages of some rows, in their order. -/
def Row.Pages {h : Handle} (db : String) (base : Fields) (rows : List (Row h))
    (place : String → Nat) (q : Request) (reply : Reply) : Prop :=
  ∀ query, q.call = .find db query → Scan.Alike query base →
    ModelStore.Pages (rows.map Row.doc) place q reply

/-- Criteria that only filter and order, between an offset and a limit. -/
def Criteria.paged (filter order : Value) (limit offset : Option Nat) : Criteria where
  filter := filter
  fields := .null
  order := order
  limit := Value.ofOption (limit.map fun n : Nat => .int n)
  offset := Value.ofOption (offset.map fun n : Nat => .int n)

namespace Read

open Criteria (paged)

variable {s : Settings} {h : Handle} {d : Direction} {filter order useIndex : Value}
  {limit offset : Option Nat} {base : Fields} {site : Site} {url : Url} {q : Query}

theorem window_paged (positive : ∀ n, limit = some n → 1 ≤ n) :
    window s (paged filter order limit offset) =
      .ofNat s.pageSize.val (limit.or (limitOf s)) offset := by
  unfold window Query.Window.ofNat
  congr 1
  cases limit with
  | none => cases limitOf s <;> rfl
  | some n =>
    have filled : (Value.int n).truthy = true := by
      have least := positive n rfl
      rw [Value.truthy, bne_iff_ne]
      omega
    exact if_pos filled

theorem yields_byId (numeric : h.definition.idIsNumeric = true)
    (positive : ∀ n, limit = some n → 1 ≤ n)
    (ordered : Order.build h order = .ok (some [("_id", d)]))
    (made : (query h (paged filter order limit offset) useIndex).outcome = .ok q)
    (form : Json.encodeFields q.body = .ok base)
    (reached : site.address (.find h.database []) = .ok url) (typed : url.isTyped = true)
    (place : String → Nat) (rows : List (Row h)) :
    (all s h (paged filter order limit offset) useIndex).Yields (.ok site)
      (Row.Pages h.database base rows place)
      (· = .ok ((Row.byNumber d (Row.cut offset (limit.or (limitOf s)) rows)).map Row.data)) := by
  obtain ⟨selector, sort, names, -, ordered', whole, rfl⟩ := query_eq_ok.1 made
  cases ordered.symm.trans ordered'
  cases whole
  have filled : (Order.toValue [("_id", d)]).truthy = true := rfl
  have sorted : Entries.get? (Query.mk (.object selector) (Order.toValue [("_id", d)]) .null
      useIndex).body "sort" = some (Order.toValue [("_id", d)]) := by
    simp only [Query.body, Query.part, filled]
    rfl
  have unskipped : Entries.get? (Query.mk (.object selector) (Order.toValue [("_id", d)]) .null
      useIndex).body "skip" = none := by
    simp only [Query.body, Query.part, filled]
    cases useIndex.truthy <;> rfl
  have found : (documents s h (paged filter order limit offset) useIndex).Yields (.ok site)
      (Row.Pages h.database base rows place)
      (· = .ok ((Row.byNumber d (Row.cut offset (limit.or (limitOf s)) rows)).map Row.doc)) := by
    refine (Program.yields_ofNoted made).bind ?_
    rw [window_paged positive, numeric]
    refine Query.yields_resorted _ _ _ _ sorted filled ?_ (Row.resort_docs _ d)
    rw [← Row.window_docs]
    exact Scan.yields_alike base (fun query reply alike pages => pages query rfl alike)
      s.pageSize.property reached typed _ _ (Scan.stands_start _ place _ offset form unskipped)
      (fun coded form' => (Scan.alike_start _ _ _ _ _).encode form' form) rfl
  refine found.bind ?_
  show (Program.ofExcept (asData h .null _)).Yields _ _ _
  rw [asData_null, Row.mapM_read]
  exact .finished rfl rfl

end Read

namespace Client

open Criteria (paged)

/-- A call that lists instances of a model with numeric ids, in the order of these and between an
offset and a limit. `base` is what its query asks for, in JSON form. -/
structure ListsById (c : Client) (name : String) (criteria useIndex : Value) (h : Handle)
    (d : Direction) (limit offset : Option Nat) (base : Fields) : Prop where
  known : c.resolve name = .ok h
  kept : ∀ h', Entries.get? c.handles name = some h' → h' = h
  numeric : h.definition.idIsNumeric = true
  positive : ∀ n, limit = some n → 1 ≤ n
  asked : ∃ filter order q, Criteria.ofValue criteria = .ok (paged filter order limit offset) ∧
    Order.build h order = .ok (some [("_id", d)]) ∧
    (Read.query h (paged filter order limit offset) useIndex).outcome = .ok q ∧
    Json.encodeFields q.body = .ok base

variable {c : Client} {name : String} {criteria useIndex : Value} {h : Handle} {d : Direction}
  {limit offset : Option Nat} {base : Fields} {site : Site} {url : Url}

/-- Such a list is the window in the order of the texts, put in the order of the numbers. -/
theorem ListsById.yields (lists : ListsById c name criteria useIndex h d limit offset base)
    (reached : site.address (.find h.database []) = .ok url) (typed : url.isTyped = true)
    (place : String → Nat) (rows : List (Row h)) :
    (all name criteria useIndex c).Yields (.ok site)
      (Row.Pages h.database base rows place)
      fun r => ∃ c', r = .ok ⟨.ok ((Row.byNumber d
        (Row.cut offset (limit.or (Read.limitOf c.settings)) rows)).map Row.data), c'⟩ := by
  obtain ⟨filter, order, q, given, ordered, made, form⟩ := lists.asked
  obtain ⟨c', settings, handled⟩ := Action.handle_eq lists.known lists.kept
  rw [all_of_criteria given, Action.onModel_of_handle handled, settings]
  refine (Read.yields_byId lists.numeric lists.positive ordered made form reached typed place
    rows).andThen ?_
  rintro _ rfl
  exact .finished rfl ⟨c', rfl⟩

/-- What a list by numeric ids holds. On every store that sends the documents that match page by
page in the order of their ids as text, it is the window in that order, put in the order of the
numbers. That is the window in the order of the numbers just if both hold the same rows, and it
always is just if the two orders agree on the ids. -/
theorem lists_by_id (lists : ListsById c name criteria useIndex h d limit offset base)
    (reached : site.address (.find h.database []) = .ok url) (typed : url.isTyped = true)
    (place : String → Nat) {rows : List (Row h)} (distinct : (rows.map Row.number).Nodup)
    (sorted : rows.Pairwise (Row.TextOrder d)) :
    ((all name criteria useIndex c).Yields (.ok site) (Row.Pages h.database base rows place)
      fun r => ∃ c', r = .ok ⟨.ok ((Row.byNumber d
        (Row.cut offset (limit.or (Read.limitOf c.settings)) rows)).map Row.data), c'⟩) ∧
    (∀ limit offset, Row.byNumber d (Row.cut offset limit rows) =
        Row.cut offset limit (Row.byNumber d rows) ↔
      (Row.cut offset limit rows).Perm (Row.cut offset limit (Row.byNumber d rows))) ∧
    ((∀ limit offset, Row.byNumber d (Row.cut offset limit rows) =
        Row.cut offset limit (Row.byNumber d rows)) ↔
      ∀ a ∈ rows, ∀ b ∈ rows, Row.TextOrder d a b → Row.numberOrder d a b = true) := by
  refine ⟨lists.yields reached typed place rows, fun _ _ => Row.byNumber_cut_eq_iff distinct, ?_⟩
  rw [← Row.pairwise_numberOrder_iff sorted, ← Row.byNumber_eq_iff, ← Row.forall_byNumber_cut_iff]
  exact forall_comm

def counted : ModelDefinition :=
  ⟨"Customer", [("id", ⟨.number, false, true, [], none⟩)], [], .default⟩

def countedModel : Handle := ⟨counted, "shop", some defaultMark, none⟩

def till : Client := Shop.client none none [("Customer", counted)]

def numbered (n : Int) (short : (Nat.toDigits 10 n.natAbs).length ≤ Number.digitLimit) :
    Row countedModel where
  number := n
  fields := [("_id", .str (Number.integerText n)), (defaultMark, .str "Customer")]
  data := [("id", .int n)]
  named := rfl
  short := short
  read := by
    have known : (Mapper.ofHandle countedModel).parseId (.str (Number.integerText n)) = .int n := by
      show ((Number.integer? (Number.integerText n)).map Value.int).getD _ = _
      rw [Number.integer?_integerText short]
      rfl
    refine (Mapper.fromDoc_ok rfl).2
      ⟨true, [(defaultMark, .str "Customer"), ("id", .int n)], rfl, ?_, rfl⟩
    rw [← known]
    rfl

def one : Row countedModel := numbered 1 (by decide)

def two : Row countedModel := numbered 2 (by decide)

def ten : Row countedModel := numbered 10 (by decide)

def inText : List (Row countedModel) := [one, ten, two]

theorem inText_sorted : inText.Pairwise (Row.TextOrder .asc) := by
  have first : Row.TextOrder .asc one ten := show "1" ≤ "10" by decide
  have second : Row.TextOrder .asc one two := show "1" ≤ "2" by decide
  have third : Row.TextOrder .asc ten two := show "10" ≤ "2" by decide
  simp [inText, first, second, third]

theorem inText_distinct : (inText.map Row.number).Nodup := by decide

theorem byNumber_inText : Row.byNumber .asc inText = [one, two, ten] :=
  Row.byNumber_eq_of_perm inText_distinct (.cons one (.swap ten two [])) (by decide)

def inOrder (parts : Fields) : Value :=
  .object (("order", Order.byId countedModel .asc) :: parts)

def asksInOrder : Fields :=
  [("selector", .object [(defaultMark, .str "Customer")]), ("sort", Order.toValue [("_id", .asc)])]

theorem lists_inOrder {parts : Fields} {limit : Option Nat}
    (given : Criteria.ofValue (inOrder parts) =
      .ok (paged .null (Order.byId countedModel .asc) limit none))
    (positive : ∀ n, limit = some n → 1 ≤ n) :
    ListsById till "Customer" (inOrder parts) .null countedModel .asc limit none asksInOrder where
  known := rfl
  kept := nofun
  numeric := rfl
  positive := positive
  asked := by
    have plain : ∀ c ∈ ['i', 'd'], Text.isBlank c = false ∧ c ≠ ',' := by
      simp [Text.isBlank, Text.isWhiteSpace]
    have built : Order.build countedModel (Order.byId countedModel .asc) =
        .ok (some [("_id", .asc)]) := Order.build_byId .asc (by decide) plain
    exact ⟨.null, _, _, given, built,
      Read.query_eq_ok.2 ⟨[(defaultMark, .str "Customer")], _, none, rfl, built, rfl, rfl⟩, rfl⟩

theorem pages_inText (q : Request) : Row.Pages "shop" asksInOrder inText untally q
    (pager (inText.map Row.doc) 10 q) :=
  fun _ _ _ => pager_pages _ (by decide) q

/-- All three customers come in the order of their numbers, but not every window of them does. -/
theorem lists_by_id_inText :
    (∃ n c', ((all "Customer" (inOrder []) .null till).run (.ok Shop.site)
      ((all "Customer" (inOrder []) .null till).replies (.ok Shop.site)
        (fun _ q => (pager (inText.map Row.doc) 10 q, ())) n ())).result =
      .ok ⟨.ok ([one, two, ten].map Row.data), c'⟩) ∧
    ¬∀ limit offset, Row.byNumber .asc (Row.cut offset limit inText) =
      Row.cut offset limit (Row.byNumber .asc inText) := by
  obtain ⟨url, reached, typed⟩ : ∃ url, Shop.site.address (.find "shop" []) = .ok url ∧
      url.isTyped = true := ⟨_, rfl, rfl⟩
  have listed : ListsById till "Customer" (inOrder []) .null countedModel .asc none none
      asksInOrder := lists_inOrder rfl nofun
  have lists := lists_by_id listed reached typed untally inText_distinct inText_sorted
  constructor
  · let serve (_ : Unit) (q : Request) : Reply × Unit := (pager (inText.map Row.doc) 10 q, ())
    have keeps : ∀ u q, Row.Pages "shop" asksInOrder inText untally q (serve u q).1 :=
      fun _ q => pages_inText q
    obtain ⟨n, ⟨c', result⟩, -⟩ := lists.1.run keeps ()
    refine ⟨n, c', result.trans ?_⟩
    show Except.ok (Ended.mk (.ok ((Row.byNumber .asc inText).map Row.data)) c') = _
    rw [byNumber_inText]
  · rw [lists.2.2]
    intro agree
    have before : Row.TextOrder .asc ten two := show "10" ≤ "2" by decide
    have wrong : Row.numberOrder .asc ten two = true :=
      agree ten (by simp [inText]) two (by simp [inText]) before
    exact absurd wrong (by decide)

/-- Of the first two customers by number the second is missing, and the tenth comes instead. -/
theorem lists_tenth_for_second :
    (∃ n c', ((all "Customer" (inOrder [("limit", .int 2)]) .null till).run (.ok Shop.site)
      ((all "Customer" (inOrder [("limit", .int 2)]) .null till).replies (.ok Shop.site)
        (fun _ q => (pager (inText.map Row.doc) 10 q, ())) n ())).result =
      .ok ⟨.ok ([one, ten].map Row.data), c'⟩) ∧
    Row.cut none (some 2) (Row.byNumber .asc inText) = [one, two] ∧
    [one, ten].map Row.data ≠ [one, two].map Row.data := by
  obtain ⟨url, reached, typed⟩ : ∃ url, Shop.site.address (.find "shop" []) = .ok url ∧
      url.isTyped = true := ⟨_, rfl, rfl⟩
  have listed : ListsById till "Customer" (inOrder [("limit", .int 2)]) .null countedModel .asc
      (some 2) none asksInOrder := by
    refine lists_inOrder rfl ?_
    rintro n ⟨⟩
    decide
  refine ⟨?_, ?_, ?_⟩
  · let serve (_ : Unit) (q : Request) : Reply × Unit := (pager (inText.map Row.doc) 10 q, ())
    have keeps : ∀ u q, Row.Pages "shop" asksInOrder inText untally q (serve u q).1 :=
      fun _ q => pages_inText q
    obtain ⟨n, ⟨c', result⟩, -⟩ := (listed.yields reached typed untally inText).run keeps ()
    have sorted : Row.byNumber .asc [one, ten] = [one, ten] :=
      Row.byNumber_eq_iff.2 (by decide)
    refine ⟨n, c', result.trans ?_⟩
    show Except.ok (Ended.mk (.ok ((Row.byNumber .asc [one, ten]).map Row.data)) c') = _
    rw [sorted]
  · rw [byNumber_inText]
    rfl
  · simp [one, ten, two, numbered]

end Client

end ModelStore
