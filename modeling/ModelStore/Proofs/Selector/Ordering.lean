import Mathlib.Data.List.TakeWhile
import ModelStore.Proofs.Number.Numeral
import ModelStore.Selector.Order

/-! The order by the id property: its name, a blank and the word for a direction. It is read as a
sort by `_id` in that direction. -/

namespace ModelStore

/-- A word for a direction, as orders are written. -/
def Direction.word : Direction → String
  | asc => "ASC"
  | desc => "DESC"

namespace Order

def byId (h : Handle) (d : Direction) : Value := .str (h.idName ++ " " ++ d.word)

theorem word_reverse (d : Direction) : ∃ c rest, d.word.toList.reverse = c :: rest ∧
    ∀ c' ∈ c :: rest, Text.isBlank c' = false ∧ c' ≠ ',' := by
  cases d with
  | asc => exact ⟨'C', ['S', 'A'], rfl, by simp [Text.isBlank, Text.isWhiteSpace]⟩
  | desc => exact ⟨'C', ['S', 'E', 'D'], rfl, by simp [Text.isBlank, Text.isWhiteSpace]⟩

variable {cs : List Char} {name idName : String} (d : Direction)

theorem trimEnd_word (cs : List Char) :
    Text.trimEnd Text.isBlank (cs ++ ' ' :: d.word.toList) = cs ++ ' ' :: d.word.toList := by
  obtain ⟨last, before, word, written⟩ := word_reverse d
  have reversed : (cs ++ ' ' :: d.word.toList).reverse = last :: (before ++ ' ' :: cs.reverse) := by
    simp [word]
  rw [Text.trimEnd, reversed, List.dropWhile_cons, (written last List.mem_cons_self).1,
    if_neg Bool.false_ne_true, ← reversed, List.reverse_reverse]

theorem trim_word (some_ : Text.trim Text.isBlank cs ≠ []) :
    Text.trim Text.isBlank (cs ++ ' ' :: d.word.toList) =
      cs.dropWhile Text.isBlank ++ ' ' :: d.word.toList := by
  have some' : (cs.dropWhile Text.isBlank).isEmpty = false := by
    rw [List.isEmpty_eq_false_iff]
    intro none_
    exact some_ (congrArg (Text.trimEnd Text.isBlank) none_)
  rw [Text.trim, List.dropWhile_append, some', if_neg Bool.false_ne_true, trimEnd_word]

theorem trim_word_of_blank (none_ : Text.trim Text.isBlank cs = []) :
    Text.trim Text.isBlank (cs ++ ' ' :: d.word.toList) = d.word.toList := by
  have none' : cs.dropWhile Text.isBlank = [] := by
    cases rest : cs.dropWhile Text.isBlank with
    | nil => rfl
    | cons c cs' =>
      rw [Text.trim, rest, Text.trimEnd, List.reverse_eq_nil_iff,
        List.dropWhile_eq_nil_iff] at none_
      have inked := List.head_dropWhile_not Text.isBlank (l := cs) (by simp [rest])
      simp only [rest, List.head_cons] at inked
      exact absurd (none_ c (by simp)) (by simp [inked])
  rw [Text.trim, List.dropWhile_append, none']
  cases d <;> decide

def lastWord (cs : List Char) : List Char :=
  (cs.reverse.takeWhile fun c => !Text.isBlank c).reverse

theorem splitItem_eq (cs : List Char) : splitItem cs =
    let before := Text.trimEnd Text.isBlank (cs.take (cs.length - (lastWord cs).length))
    match directionWord? (lastWord cs) with
    | some d => if before.isEmpty then (cs, .asc) else (before, d)
    | none => (cs, .asc) := rfl

theorem lastWord_append {blanks word : List Char} (parted : blanks ≠ [])
    (blank : ∀ c ∈ blanks, Text.isBlank c = true) (inked : ∀ c ∈ word, Text.isBlank c = false) :
    lastWord (cs ++ blanks ++ word) = word := by
  have reversed : (cs ++ blanks ++ word).reverse =
      word.reverse ++ (blanks.reverse ++ cs.reverse) := by
    simp
  have inked' : ∀ c ∈ word.reverse, (!Text.isBlank c) = true := by
    intro c mem
    rw [inked c (List.mem_reverse.1 mem)]
    rfl
  obtain ⟨first, rest, turned⟩ := List.exists_cons_of_ne_nil (mt List.reverse_eq_nil_iff.1 parted)
  have stop : Text.isBlank first = true :=
    blank first (List.mem_reverse.1 (turned ▸ List.mem_cons_self))
  rw [lastWord, reversed, List.takeWhile_append_of_pos inked', turned, List.cons_append,
    List.takeWhile_cons, stop]
  simp

theorem splitItem_append {blanks word : List Char} {d : Direction} (parted : blanks ≠ [])
    (blank : ∀ c ∈ blanks, Text.isBlank c = true) (inked : ∀ c ∈ word, Text.isBlank c = false)
    (named : directionWord? word = some d) (some_ : Text.trimEnd Text.isBlank cs ≠ []) :
    splitItem (cs ++ blanks ++ word) = (Text.trimEnd Text.isBlank cs, d) := by
  have short : (cs ++ blanks ++ word).take ((cs ++ blanks ++ word).length - word.length) =
      cs ++ blanks := by
    rw [List.length_append, Nat.add_sub_cancel, List.take_left]
  have front : Text.trimEnd Text.isBlank (cs ++ blanks) = Text.trimEnd Text.isBlank cs := by
    rw [Text.trimEnd, List.reverse_append,
      List.dropWhile_append_of_pos fun c mem => blank c (List.mem_reverse.1 mem), Text.trimEnd]
  have filled : (Text.trimEnd Text.isBlank cs).isEmpty = false := List.isEmpty_eq_false_iff.2 some_
  simp only [splitItem_eq, lastWord_append parted blank inked, short, front, named, filled]
  rfl

theorem splitItem_word (some_ : Text.trimEnd Text.isBlank cs ≠ []) :
    splitItem (cs ++ ' ' :: d.word.toList) = (Text.trimEnd Text.isBlank cs, d) := by
  obtain ⟨last, before, word, written⟩ := word_reverse d
  have inked : ∀ c ∈ d.word.toList, Text.isBlank c = false := by
    intro c mem
    rw [← List.mem_reverse, word] at mem
    exact (written c mem).1
  have named : directionWord? d.word.toList = some d := by
    cases d <;> rfl
  have blank : ∀ c ∈ [' '], Text.isBlank c = true := fun c mem => List.mem_singleton.1 mem ▸ rfl
  have split_ := splitItem_append (List.cons_ne_nil _ _) blank inked named some_
  rwa [List.append_assoc] at split_

theorem key?_word (some_ : Text.strip name ≠ "") : key? idName (name ++ " " ++ d.word) =
    some (if Text.strip name = idName then "_id" else Text.strip name, d) := by
  have chars : (name ++ " " ++ d.word).toList = name.toList ++ ' ' :: d.word.toList := by simp
  have some' : Text.trim Text.isBlank name.toList ≠ [] := by
    intro none_
    exact some_ (congrArg String.ofList none_)
  obtain ⟨c, rest, item⟩ : ∃ c rest,
      name.toList.dropWhile Text.isBlank ++ ' ' :: d.word.toList = c :: rest :=
    List.exists_cons_of_ne_nil (by simp)
  have split_ : splitItem (name.toList.dropWhile Text.isBlank ++ ' ' :: d.word.toList) =
      (Text.trim Text.isBlank name.toList, d) := splitItem_word d some'
  rw [item] at split_
  rw [key?, chars, trim_word d some', item]
  simp only [split_]
  rfl

theorem key?_word_of_blank (none_ : Text.strip name = "") : key? idName (name ++ " " ++ d.word) =
    some (if d.word = idName then "_id" else d.word, .asc) := by
  have chars : (name ++ " " ++ d.word).toList = name.toList ++ ' ' :: d.word.toList := by simp
  have none' : Text.trim Text.isBlank name.toList = [] := by
    simpa [Text.strip] using none_
  rw [key?, chars, trim_word_of_blank d none']
  cases d <;> rfl

/-- The order by an id property whose name has no blanks and no commas. -/
theorem build_byId {h : Handle} (some_ : h.idName ≠ "")
    (plain : ∀ c ∈ h.idName.toList, Text.isBlank c = false ∧ c ≠ ',') :
    build h (byId h d) = .ok (some [("_id", d)]) := by
  obtain ⟨last, before, word, written⟩ := word_reverse d
  have chars : (h.idName ++ " " ++ d.word).toList = h.idName.toList ++ ' ' :: d.word.toList := by
    simp
  have stripped : Text.strip h.idName = h.idName := by
    rw [Text.strip, Text.trim_eq_self fun c mem => (plain c mem).1, String.ofList_toList]
  have filled : (byId h d).truthy = true := by
    have long : h.idName ++ " " ++ d.word ≠ "" := by simp [some_]
    exact decide_eq_true long
  have single : items (byId h d) = .ok [h.idName ++ " " ++ d.word] := by
    have unseparated : ',' ∉ h.idName.toList ++ ' ' :: d.word.toList := by
      rw [List.mem_append, List.mem_cons]
      rintro (mem | wrong | mem)
      · exact (plain _ mem).2 rfl
      · exact absurd wrong (by decide)
      · have mem' : ',' ∈ d.word.toList.reverse := List.mem_reverse.2 mem
        rw [word] at mem'
        exact (written _ mem').2 rfl
    rw [byId, items, Text.cut, chars, Text.cutChars_of_not_mem unseparated, ← chars]
    show Except.ok [String.ofList (h.idName ++ " " ++ d.word).toList] = _
    rw [String.ofList_toList]
  have key : key? h.idName (h.idName ++ " " ++ d.word) = some ("_id", d) := by
    rw [key?_word d (by rwa [stripped]), stripped, if_pos rfl]
  rw [build, if_pos filled, single]
  show Except.ok (nonEmpty _) = _
  rw [List.filterMap_cons, key]
  rfl

end Order

end ModelStore
