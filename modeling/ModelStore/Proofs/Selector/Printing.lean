import Mathlib.Data.List.Forall2
import ModelStore.Proofs.Selector.Ordering
import ModelStore.Proofs.Text.Cut

/-! Orders as they are written. A name stands alone or has blanks and a word for its direction
behind it, in any letter case; the items of an order stand between commas, with blanks around
them and empty items among them, or in a list. Each order is read back as the names that were
written, with their directions, where no name ends in a word for a direction itself. -/

namespace ModelStore

namespace Order

/-- A small letter, or what stands for it where case is disregarded, the long s included. -/
def InCase (letter c : Char) : Prop :=
  c = letter ∨ c = letter.toUpper ∨ letter = 's' ∧ c = Char.ofNat 0x17F

end Order

/-- A word that names a direction, in any letter case. -/
def Direction.Spells (d : Direction) (word : List Char) : Prop :=
  List.Forall₂ Order.InCase d.name.toList word

namespace Order

def EndsInDirection (cs : List Char) : Prop :=
  ∃ before blank word d, cs = before ++ blank :: word ∧ Text.isBlank blank = true ∧
    Direction.Spells d word

/-- The names that can be written in an order: not empty, without commas and without blanks at
their ends, and no word for a direction as their last. -/
structure IsName (name : String) : Prop where
  filled : name ≠ ""
  single : ',' ∉ name.toList
  inkedHead : ∀ c ∈ name.toList.head?, Text.isBlank c = false
  inkedLast : ∀ c ∈ name.toList.getLast?, Text.isBlank c = false
  undirected : ¬EndsInDirection name.toList

/-- How a name and a direction are written. -/
inductive Prints (name : List Char) : Direction → List Char → Prop where
  | bare : Prints name .asc name
  | worded {d : Direction} {blanks word : List Char} (parted : blanks ≠ [])
      (blank : ∀ c ∈ blanks, Text.isBlank c = true) (spells : d.Spells word) :
      Prints name d (name ++ blanks ++ word)

/-- How the entries of an order are written, one by one, between items that are empty. -/
inductive PrintsAll : List SortKey → List String → Prop where
  | nil : PrintsAll [] []
  | skip {keys : List SortKey} {piece : String} {pieces : List String}
      (blank : ∀ c ∈ piece.toList, Text.isBlank c = true) (others : PrintsAll keys pieces) :
      PrintsAll keys (piece :: pieces)
  | item {name : String} {d : Direction} {keys : List SortKey} {piece : String}
      {pieces : List String} {lead item trail : List Char} (prints : Prints name.toList d item)
      (before : ∀ c ∈ lead, Text.isBlank c = true) (after : ∀ c ∈ trail, Text.isBlank c = true)
      (written : piece.toList = lead ++ item ++ trail) (others : PrintsAll keys pieces) :
      PrintsAll ((name, d) :: keys) (piece :: pieces)

variable {d : Direction} {word cs item : List Char}

theorem inCase_iff {letter c : Char} (other : letter ≠ 's') :
    InCase letter c ↔ isLetter letter letter.toUpper c = true := by
  simp [InCase, isLetter, other]

theorem inCase_s {c : Char} : InCase 's' c ↔ isLetterS c = true := by
  have upper : 's'.toUpper = 'S' := rfl
  simp [InCase, isLetterS, isLetter, upper, or_assoc]

theorem directionWord?_eq_some : directionWord? word = some d ↔ d.Spells word := by
  have a {c : Char} : InCase 'a' c ↔ isLetter 'a' 'A' c = true := inCase_iff (by decide)
  have c_ {c : Char} : InCase 'c' c ↔ isLetter 'c' 'C' c = true := inCase_iff (by decide)
  have d_ {c : Char} : InCase 'd' c ↔ isLetter 'd' 'D' c = true := inCase_iff (by decide)
  have e {c : Char} : InCase 'e' c ↔ isLetter 'e' 'E' c = true := inCase_iff (by decide)
  have asc : Direction.asc.Spells word ↔ List.Forall₂ InCase ['a', 's', 'c'] word := Iff.rfl
  have desc : Direction.desc.Spells word ↔ List.Forall₂ InCase ['d', 'e', 's', 'c'] word := Iff.rfl
  unfold directionWord?
  split
  · cases d <;> simp [asc, desc, a, c_, inCase_s, and_assoc]
  · cases d <;> simp [asc, desc, d_, e, c_, inCase_s, and_assoc]
  · rename_i three four
    constructor
    · intro read
      cases read
    · intro spells
      cases d with
      | asc =>
        obtain _ | ⟨-, _ | ⟨-, _ | ⟨-, _ | _⟩⟩⟩ := asc.1 spells
        exact absurd rfl (three _ _ _)
      | desc =>
        obtain _ | ⟨-, _ | ⟨-, _ | ⟨-, _ | ⟨-, _ | _⟩⟩⟩⟩ := desc.1 spells
        exact absurd rfl (four _ _ _ _)

theorem exists_letter {letters : List Char} (spelled : List.Forall₂ InCase letters word) {c : Char}
    (mem : c ∈ word) : ∃ letter ∈ letters, InCase letter c := by
  induction spelled with
  | nil => cases mem
  | cons first _ ih =>
    rcases List.mem_cons.1 mem with rfl | later
    · exact ⟨_, List.mem_cons_self, first⟩
    · obtain ⟨letter, known, same⟩ := ih later
      exact ⟨letter, List.mem_cons_of_mem _ known, same⟩

theorem plain_of_spells (spells : d.Spells word) {c : Char} (mem : c ∈ word) :
    Text.isBlank c = false ∧ c ≠ ',' := by
  have letters : ∀ letter ∈ d.name.toList, (Text.isBlank letter = false ∧ letter ≠ ',') ∧
      Text.isBlank letter.toUpper = false ∧ letter.toUpper ≠ ',' := by
    cases d <;> simp [Direction.name, Text.isBlank, Text.isWhiteSpace]
  obtain ⟨letter, known, same⟩ := exists_letter spells mem
  rcases same with rfl | rfl | ⟨-, rfl⟩
  · exact (letters _ known).1
  · exact (letters _ known).2
  · decide

theorem dropWhile_of_inked {p : Char → Bool} (inked : ∀ c ∈ cs.head?, p c = false) :
    cs.dropWhile p = cs := by
  cases cs with
  | nil => rfl
  | cons c rest => rw [List.dropWhile_cons, inked c rfl, if_neg Bool.false_ne_true]

theorem trimEnd_padded {p : Char → Bool} {trail : List Char} (after : ∀ c ∈ trail, p c = true)
    (inked : ∀ c ∈ item.getLast?, p c = false) : Text.trimEnd p (item ++ trail) = item := by
  have turned : ∀ c ∈ trail.reverse, p c = true := fun c mem => after c (List.mem_reverse.1 mem)
  rw [Text.trimEnd, List.reverse_append, List.dropWhile_append_of_pos turned,
    dropWhile_of_inked (by rwa [List.head?_reverse]), List.reverse_reverse]

theorem trim_padded {p : Char → Bool} {lead trail : List Char} (before : ∀ c ∈ lead, p c = true)
    (after : ∀ c ∈ trail, p c = true) (inkedHead : ∀ c ∈ item.head?, p c = false)
    (inkedLast : ∀ c ∈ item.getLast?, p c = false) :
    Text.trim p (lead ++ item ++ trail) = item := by
  rw [List.append_assoc, Text.trim, List.dropWhile_append_of_pos before]
  cases item with
  | nil =>
    rw [List.nil_append, List.dropWhile_eq_nil_iff.2 after]
    rfl
  | cons c rest =>
    have first : ∀ c' ∈ (c :: rest ++ trail).head?, p c' = false := inkedHead
    rw [dropWhile_of_inked first, trimEnd_padded after inkedLast]

theorem endsInDirection_iff : EndsInDirection cs ↔
    (directionWord? (lastWord cs)).isSome = true ∧ lastWord cs ≠ cs := by
  constructor
  · rintro ⟨before, blank, word, d, rfl, stop, spells⟩
    have last : lastWord (before ++ [blank] ++ word) = word :=
      lastWord_append (List.cons_ne_nil blank []) (by simpa using stop)
        fun c mem => (plain_of_spells spells mem).1
    rw [List.append_assoc, List.singleton_append] at last
    rw [last, directionWord?_eq_some.2 spells]
    refine ⟨rfl, fun same => ?_⟩
    have length := congrArg List.length same
    simp only [List.length_append, List.length_cons] at length
    omega
  · rintro ⟨named, more⟩
    obtain ⟨d, named⟩ := Option.isSome_iff_exists.1 named
    obtain ⟨front, first⟩ : ∃ front, cs.reverse.dropWhile (fun c => !Text.isBlank c) = front :=
      ⟨_, rfl⟩
    have parts : cs = front.reverse ++ lastWord cs := by
      rw [lastWord, ← first, ← List.reverse_append, List.takeWhile_append_dropWhile,
        List.reverse_reverse]
    cases front with
    | nil => exact absurd parts.symm more
    | cons blank rest =>
      have stop : Text.isBlank blank = true := by
        have head := List.head_dropWhile_not (fun c => !Text.isBlank c) (l := cs.reverse)
          (by simp [first])
        simpa [first] using head
      refine ⟨rest.reverse, blank, lastWord cs, d, ?_, stop, directionWord?_eq_some.1 named⟩
      simpa using parts

instance : DecidablePred EndsInDirection := fun _ => decidable_of_iff' _ endsInDirection_iff

theorem splitItem_of_undirected (undirected : ¬EndsInDirection cs) : splitItem cs = (cs, .asc) := by
  rw [endsInDirection_iff, not_and, Decidable.not_not] at undirected
  simp only [splitItem_eq]
  split
  · rename_i d named
    have alone : lastWord cs = cs := undirected (by rw [named, Option.isSome_some])
    rw [alone, Nat.sub_self]
    rfl
  · rfl

def sorted (idName : String) (k : SortKey) : SortKey :=
  (if k.1 = idName then "_id" else k.1, k.2)

variable {idName name piece : String} {lead trail : List Char}

theorem key?_of_blank (blank : ∀ c ∈ piece.toList, Text.isBlank c = true) :
    key? idName piece = none := by
  have none_ : Text.trim Text.isBlank piece.toList = [] := by
    rw [Text.trim, List.dropWhile_eq_nil_iff.2 blank]
    rfl
  rw [key?, none_]

theorem splitItem_of_prints (named : IsName name) (prints : Prints name.toList d item) :
    splitItem item = (name.toList, d) := by
  cases prints with
  | bare => exact splitItem_of_undirected named.undirected
  | worded parted blank spells =>
    have whole : Text.trimEnd Text.isBlank name.toList = name.toList := by
      have bare := trimEnd_padded (List.forall_mem_nil _) named.inkedLast
      rwa [List.append_nil] at bare
    have some_ : Text.trimEnd Text.isBlank name.toList ≠ [] := by
      rw [whole]
      simpa using named.filled
    have split_ := splitItem_append parted blank (fun c mem => (plain_of_spells spells mem).1)
      (directionWord?_eq_some.2 spells) some_
    rwa [whole] at split_

theorem inked_of_prints (named : IsName name) (prints : Prints name.toList d item) :
    item ≠ [] ∧ (∀ c ∈ item.head?, Text.isBlank c = false) ∧
      ∀ c ∈ item.getLast?, Text.isBlank c = false := by
  have some_ : name.toList ≠ [] := by simpa using named.filled
  cases prints with
  | bare => exact ⟨some_, named.inkedHead, named.inkedLast⟩
  | @worded _ blanks word parted blank spells =>
    have spelled : word ≠ [] := by
      rintro rfl
      cases d <;> cases spells
    refine ⟨by simp [some_], ?_, ?_⟩
    · rw [List.append_assoc, List.head?_append_of_ne_nil _ some_]
      exact named.inkedHead
    · rw [List.getLast?_append_of_ne_nil _ spelled]
      exact fun c mem => (plain_of_spells spells (List.mem_of_getLast? mem)).1

theorem key?_of_prints (named : IsName name) (prints : Prints name.toList d item)
    (before : ∀ c ∈ lead, Text.isBlank c = true) (after : ∀ c ∈ trail, Text.isBlank c = true)
    (written : piece.toList = lead ++ item ++ trail) :
    key? idName piece = some (sorted idName (name, d)) := by
  obtain ⟨some_, head, last⟩ := inked_of_prints named prints
  have split_ := splitItem_of_prints named prints
  rw [key?, written, trim_padded before after head last]
  obtain ⟨c, rest, rfl⟩ := List.exists_cons_of_ne_nil some_
  simp only [split_, String.ofList_toList]
  rfl

theorem not_comma_of_blank (blank : ∀ c ∈ cs, Text.isBlank c = true) : ',' ∉ cs :=
  fun mem => absurd (blank _ mem) (by decide)

theorem not_comma_of_prints (named : IsName name) (prints : Prints name.toList d item) :
    ',' ∉ item := by
  cases prints with
  | bare => exact named.single
  | worded parted blank spells =>
    simp only [List.mem_append, not_or]
    exact ⟨⟨named.single, not_comma_of_blank blank⟩, fun mem => (plain_of_spells spells mem).2 rfl⟩

variable {keys : List SortKey} {pieces : List String}

theorem filterMap_key? (names : ∀ k ∈ keys, IsName k.1) (prints : PrintsAll keys pieces) :
    pieces.filterMap (key? idName) = keys.map (sorted idName) := by
  induction prints with
  | nil => rfl
  | skip blank _ ih => rw [List.filterMap_cons, key?_of_blank blank, ih names]
  | item prints before after written _ ih =>
    obtain ⟨named, names⟩ := List.forall_mem_cons.1 names
    rw [List.filterMap_cons, key?_of_prints named prints before after written, ih names]
    rfl

theorem not_comma_of_printsAll (names : ∀ k ∈ keys, IsName k.1) (prints : PrintsAll keys pieces) :
    ∀ p ∈ pieces, ',' ∉ p.toList := by
  induction prints with
  | nil => exact List.forall_mem_nil _
  | skip blank _ ih => exact List.forall_mem_cons.2 ⟨not_comma_of_blank blank, ih names⟩
  | item prints before after written _ ih =>
    obtain ⟨named, names⟩ := List.forall_mem_cons.1 names
    refine List.forall_mem_cons.2 ⟨?_, ih names⟩
    rw [written]
    simp only [List.mem_append, not_or]
    exact ⟨⟨not_comma_of_blank before, not_comma_of_prints named prints⟩, not_comma_of_blank after⟩

theorem texts_map_str (pieces : List String) : texts (pieces.map .str) = .ok pieces := by
  induction pieces with
  | nil => rfl
  | cons p rest ih =>
    rw [List.map_cons, texts, ih]
    rfl

/-- An order whose items are known is a sort by what each of them is read as. -/
theorem build_of_items {h : Handle} {order : Value} (truthy : order.truthy = true)
    (single : items order = .ok pieces) (some_ : keys ≠ [])
    (read : pieces.filterMap (key? h.idName) = keys.map (sorted h.idName)) :
    build h order = .ok (some (keys.map (sorted h.idName))) := by
  have filled : (keys.map (sorted h.idName)).isEmpty = false := by simpa using some_
  rw [build, if_pos truthy, single]
  show Except.ok (nonEmpty _) = _
  rw [read, nonEmpty, filled]
  rfl

/-- An order that is written, as a text or as a list of its items, is read as the names and the
directions that were written, in their order, the id property as `_id`. -/
theorem build_printed (h : Handle) (some_ : keys ≠ []) (names : ∀ k ∈ keys, IsName k.1)
    (prints : PrintsAll keys pieces) :
    build h (.str (Text.join ',' pieces)) = .ok (some (keys.map (sorted h.idName))) ∧
      build h (.array (pieces.map .str)) = .ok (some (keys.map (sorted h.idName))) ∧
      build h (.tuple (pieces.map .str)) = .ok (some (keys.map (sorted h.idName))) := by
  have read : pieces.filterMap (key? h.idName) = keys.map (sorted h.idName) :=
    filterMap_key? names prints
  have filled : pieces ≠ [] := by
    rintro rfl
    exact some_ (List.map_eq_nil_iff.1 read.symm)
  have cut : Text.cut ',' (Text.join ',' pieces) = pieces :=
    Text.cut_join filled (not_comma_of_printsAll names prints)
  have listed : (pieces.map Value.str).isEmpty = false := by simpa using filled
  refine ⟨build_of_items ?_ ?_ some_ read, build_of_items ?_ ?_ some_ read,
    build_of_items ?_ ?_ some_ read⟩
  · -- An empty text would be a single item that is empty.
    refine decide_eq_true fun none_ => ?_
    rw [none_] at cut
    rw [← cut] at read
    exact some_ (List.map_eq_nil_iff.1 read.symm)
  · rw [items, cut]
  · rw [Value.truthy, listed]
    rfl
  · exact texts_map_str pieces
  · rw [Value.truthy, listed]
    rfl
  · exact texts_map_str pieces

/-- A name may end in a word for a direction only if it is no more than that. -/
theorem build_printed_people :
    let h : Handle := ⟨⟨"Customer", [], [], .default⟩, "shop", none, none⟩
    let keys : List SortKey := [("id", .desc), ("big desc word", .asc), ("desc", .asc)]
    let pieces : List String := [" id \t DeSc", "", "big desc word ", "desc asc"]
    keys ≠ [] ∧ (∀ k ∈ keys, IsName k.1) ∧ PrintsAll keys pieces ∧
      build h (.str " id \t DeSc,,big desc word ,desc asc") =
        .ok (some [("_id", .desc), ("big desc word", .asc), ("desc", .asc)]) := by
  intro h keys pieces
  have names : ∀ k ∈ keys, IsName k.1 := by
    simp only [keys, List.forall_mem_cons, List.not_mem_nil, false_implies, implies_true, and_true]
    refine ⟨?_, ?_, ?_⟩
    all_goals exact ⟨by decide, by decide, by rintro _ ⟨⟩; rfl, by rintro _ ⟨⟩; rfl, by decide⟩
  have prints : PrintsAll keys pieces := by
    have first : Prints "id".toList .desc _ := @Prints.worded _ _ [' ', '\t', ' '] "DeSc".toList
      (by decide) (List.all_eq_true.1 rfl) (directionWord?_eq_some.1 rfl)
    have last : Prints "desc".toList .asc _ := @Prints.worded _ _ [' '] "asc".toList
      (by decide) (List.all_eq_true.1 rfl) (directionWord?_eq_some.1 rfl)
    have blank : ∀ c ∈ [' '], Text.isBlank c = true := List.all_eq_true.1 rfl
    have none_ : ∀ c ∈ ([] : List Char), Text.isBlank c = true := List.forall_mem_nil _
    exact .item first blank none_ rfl (.skip none_
      (.item .bare none_ blank rfl (.item last none_ none_ rfl .nil)))
  exact ⟨by simp [keys], names, prints, (build_printed h (by simp [keys]) names prints).1⟩

end Order

end ModelStore
