import Mathlib.Data.List.Nodup
import ModelStore.Proofs.Noted
import ModelStore.Proofs.Text.Cut
import ModelStore.Selector.Fragment

/-! The spellings of a pattern with flags. Slashed text, a source with options beside it and a
compiled pattern become the same condition, up to the order in which the flags are written.
Cleaning keeps each flag that can be written inline once and tells of each other letter once,
and to clean what has been cleaned tells and changes nothing more. -/

namespace ModelStore

namespace Pattern

def flagLetters : List Char := ['i', 'm', 's', 'x']

/-- A source behind its flags, if it has any. -/
def flagged (letters : List Char) (source : String) : String :=
  if letters = [] then source else "(?" ++ String.ofList letters ++ ")" ++ source

def remarks (letters : List Char) : List Warning :=
  (letters.filter fun c => c ∉ flagLetters).map fun c =>
    if c = 'g' then .globalFlag else .unknownFlag c

theorem isFlag_iff {c : Char} : isFlag c = true ↔ c ∈ flagLetters := by
  simp [isFlag, flagLetters, or_assoc]

theorem flagRemarks_eq (letters : List Char) : flagRemarks letters = remarks letters := by
  induction letters with
  | nil => rfl
  | cons c rest ih =>
    unfold flagRemarks remarks at ih ⊢
    by_cases flag : c ∈ flagLetters
    · have kept : isFlag c = true := isFlag_iff.2 flag
      simp [kept, flag, ih]
    · have dropped : isFlag c = false := by
        rw [← Bool.not_eq_true, isFlag_iff]
        exact flag
      by_cases global : c = 'g' <;> simp_all

def keep (kept : List Char) (c : Char) : List Char :=
  if isFlag c && !kept.contains c then kept ++ [c] else kept

theorem keptFlags_eq (letters : List Char) : keptFlags letters = letters.foldl keep [] := rfl

theorem mem_keep {kept : List Char} {c x : Char} :
    x ∈ keep kept c ↔ x ∈ kept ∨ x = c ∧ c ∈ flagLetters := by
  rw [← isFlag_iff]
  unfold keep
  split
  · rename_i new
    simp_all
  · rename_i old
    simp only [Bool.and_eq_true, Bool.not_eq_true', List.contains_eq_mem, decide_eq_false_iff_not,
      not_and, not_not] at old
    constructor
    · exact .inl
    · rintro (mem | ⟨rfl, flag⟩)
      · exact mem
      · exact old flag

theorem nodup_keep {kept : List Char} (distinct : kept.Nodup) (c : Char) : (keep kept c).Nodup := by
  unfold keep
  split
  · rename_i new
    simp only [Bool.and_eq_true, Bool.not_eq_true', List.contains_eq_mem,
      decide_eq_false_iff_not] at new
    rw [List.nodup_append]
    refine ⟨distinct, by simp, ?_⟩
    rintro x mem y last rfl
    cases List.mem_singleton.1 last
    exact new.2 mem
  · exact distinct

theorem mem_foldl_keep {letters kept : List Char} {x : Char} :
    x ∈ letters.foldl keep kept ↔ x ∈ kept ∨ x ∈ letters ∧ x ∈ flagLetters := by
  induction letters generalizing kept with
  | nil => simp
  | cons c rest ih =>
    rw [List.foldl_cons, ih, mem_keep, List.mem_cons]
    constructor
    · rintro ((mem | ⟨rfl, flag⟩) | ⟨mem, flag⟩)
      · exact .inl mem
      · exact .inr ⟨.inl rfl, flag⟩
      · exact .inr ⟨.inr mem, flag⟩
    · rintro (mem | ⟨rfl | mem, flag⟩)
      · exact .inl (.inl mem)
      · exact .inl (.inr ⟨rfl, flag⟩)
      · exact .inr ⟨mem, flag⟩

theorem nodup_foldl_keep {kept : List Char} (distinct : kept.Nodup) (letters : List Char) :
    (letters.foldl keep kept).Nodup := by
  induction letters generalizing kept with
  | nil => exact distinct
  | cons c rest ih => exact ih (nodup_keep distinct c)

theorem mem_keptFlags {letters : List Char} {c : Char} :
    c ∈ keptFlags letters ↔ c ∈ letters ∧ c ∈ flagLetters := by
  rw [keptFlags_eq, mem_foldl_keep]
  simp

theorem nodup_keptFlags (letters : List Char) : (keptFlags letters).Nodup :=
  nodup_foldl_keep List.nodup_nil letters

theorem foldl_keep_eq_append {kept letters : List Char} (distinct : (kept ++ letters).Nodup)
    (flags : ∀ c ∈ letters, c ∈ flagLetters) : letters.foldl keep kept = kept ++ letters := by
  induction letters generalizing kept with
  | nil => simp
  | cons c rest ih =>
    obtain ⟨flag, flags⟩ := List.forall_mem_cons.1 flags
    have new : c ∉ kept := fun mem => (List.nodup_append.1 distinct).2.2 c mem c (by simp) rfl
    have added : keep kept c = kept ++ [c] := by
      simp [keep, isFlag_iff.2 flag, new]
    rw [List.foldl_cons, added, ih (by simpa using distinct) flags]
    simp

/-- Letters that stand behind flags already cleaned are cleaned as they would be behind the flags
as they were given. -/
theorem keptFlags_keptFlags_append (first second : List Char) :
    keptFlags (keptFlags first ++ second) = keptFlags (first ++ second) := by
  have again : (keptFlags first).foldl keep [] = keptFlags first :=
    foldl_keep_eq_append (nodup_keptFlags first) fun c mem => (mem_keptFlags.1 mem).2
  rw [keptFlags_eq, List.foldl_append, again, keptFlags_eq (first ++ second), List.foldl_append,
    keptFlags_eq]

theorem remarks_append (first second : List Char) :
    remarks (first ++ second) = remarks first ++ remarks second := by
  simp [remarks]

theorem remarks_keptFlags (letters : List Char) : remarks (keptFlags letters) = [] := by
  have flags : ∀ c ∈ keptFlags letters, c ∈ flagLetters := fun c mem => (mem_keptFlags.1 mem).2
  simpa [remarks] using flags

theorem mem_letters_ofLetters {letters : List Char} {c : Char} :
    c ∈ (Flags.ofLetters letters).letters ↔ c ∈ letters ∧ c ∈ flagLetters := by
  simp only [Flags.letters, Flags.ofLetters, flagLetters, List.mem_append, List.mem_ite_nil_right,
    List.mem_cons, List.not_mem_nil, or_false, decide_eq_true_eq]
  constructor
  · rintro (((⟨mem, rfl⟩ | ⟨mem, rfl⟩) | ⟨mem, rfl⟩) | ⟨mem, rfl⟩) <;> simp [mem]
  · rintro ⟨mem, rfl | rfl | rfl | rfl⟩ <;> simp [mem]

theorem nodup_letters (flags : Flags) : flags.letters.Nodup := by
  obtain ⟨i, m, s, x⟩ := flags
  cases i <;> cases m <;> cases s <;> cases x <;> decide

theorem letters_ofLetters_perm (letters : List Char) :
    (Flags.ofLetters letters).letters.Perm (keptFlags letters) := by
  rw [List.perm_ext_iff_of_nodup (nodup_letters _) (nodup_keptFlags _)]
  intro c
  rw [mem_letters_ofLetters, mem_keptFlags]

/-- Letters from a to z, with or without a line break behind them. -/
def Ends (letters cs : List Char) : Prop :=
  (∀ c ∈ letters, 'a' ≤ c ∧ c ≤ 'z') ∧ (cs = letters ∨ cs = letters ++ ['\n'])

theorem Ends.unslashed {letters cs : List Char} (ends : Ends letters cs) : '/' ∉ cs := by
  have lower : '/' ∉ letters := fun mem => absurd (ends.1 _ mem) (by decide)
  rcases ends.2 with rfl | rfl
  · exact lower
  · simpa using lower

theorem ends_iff {letters tail : List Char} :
    Ends letters tail ↔ dropLineEnd tail = letters ∧ letters.all isLower = true := by
  have lower_iff : letters.all isLower = true ↔ ∀ c ∈ letters, 'a' ≤ c ∧ c ≤ 'z' := by
    simp [isLower]
  rw [lower_iff, Ends, and_comm, and_congr_left_iff]
  intro lower
  constructor
  · rintro (rfl | rfl)
    · unfold dropLineEnd
      split
      · rename_i last
        exact absurd (lower _ (List.mem_of_getLast? last)) (by decide)
      · rfl
    · simp [dropLineEnd]
  · rintro rfl
    unfold dropLineEnd
    split
    · rename_i last
      exact .inr (List.dropLast_append_getLast? _ last).symm
    · exact .inl rfl

theorem ofSlashed?_eq_some {cs source letters : List Char} :
    ofSlashed? cs = some ⟨source, letters⟩ ↔
      ∃ tail, Ends letters tail ∧ cs = '/' :: (source ++ '/' :: tail) := by
  constructor
  · intro h
    unfold ofSlashed? at h
    split at h
    · split at h
      · rename_i cut
        dsimp only at h
        split_ifs at h with lower
        cases h
        obtain ⟨-, rfl⟩ := Text.splitLast_eq_some.1 cut
        exact ⟨_, ends_iff.2 ⟨rfl, lower⟩, rfl⟩
      · cases h
    · cases h
  · rintro ⟨tail, ends, rfl⟩
    obtain ⟨rfl, lower⟩ := ends_iff.1 ends
    simp only [ofSlashed?, Text.splitLast_append source ends.unslashed, lower, if_true]

theorem ofList_withFlags (letters : List Char) (source : String) :
    String.ofList (withFlags letters source.toList) = flagged letters source := by
  unfold withFlags flagged
  cases letters with
  | nil => simp
  | cons c rest =>
    apply String.toList_injective
    simp

theorem cleanFlags_eq (letters : List Char) :
    cleanFlags letters = ⟨remarks letters, .ok (keptFlags letters)⟩ := by
  rw [cleanFlags, flagRemarks_eq]

/-- Options are cleaned together with the flags that the pattern itself has, whose own cleaning
leaves no trace in the end. -/
theorem inline_of_split (negative : Bool) {slashed : Bool} {v : Value} {source : String}
    {first : List Char}
    (parts : split slashed v = ⟨remarks first, .ok ⟨source.toList, keptFlags first⟩⟩)
    (options : Option String) :
    inline negative slashed options v =
      ⟨remarks (first ++ (options.getD "").toList),
        .ok (flagged (keptFlags (first ++ (options.getD "").toList))
          (if negative then "[^" ++ source ++ "]" else source))⟩ := by
  have written : (if negative then '[' :: '^' :: source.toList ++ [']'] else source.toList) =
      (if negative then "[^" ++ source ++ "]" else source).toList := by
    cases negative <;> simp
  rw [inline, parts, Noted.bind_of_ok]
  simp only [written]
  cases extra : (options.getD "").toList with
  | nil => simp [← ofList_withFlags]
  | cons c rest =>
    simp only [List.isEmpty_cons, Bool.false_eq_true, if_false, cleanFlags_eq, Noted.bind_of_ok]
    simp [remarks_append, remarks_keptFlags, keptFlags_keptFlags_append, ofList_withFlags]

theorem inline_text (s : String) (options : Option String) :
    inline false false options (.str s) =
      ⟨remarks (options.getD "").toList,
        .ok (flagged (keptFlags (options.getD "").toList) s)⟩ := by
  have unflagged : split false (.str s) = ⟨remarks [], .ok ⟨s.toList, keptFlags []⟩⟩ := rfl
  exact inline_of_split false unflagged options

theorem inline_slashed (s : String) {f : String} (lower : ∀ c ∈ f.toList, 'a' ≤ c ∧ c ≤ 'z')
    (options : Option String) :
    inline false true options (.str ("/" ++ s ++ "/" ++ f)) =
      ⟨remarks (f.toList ++ (options.getD "").toList),
        .ok (flagged (keptFlags (f.toList ++ (options.getD "").toList)) s)⟩ := by
  have chars : ("/" ++ s ++ "/" ++ f).toList = '/' :: (s.toList ++ '/' :: f.toList) := by simp
  have parts : ofSlashed? ('/' :: (s.toList ++ '/' :: f.toList)) = some ⟨s.toList, f.toList⟩ :=
    ofSlashed?_eq_some.2 ⟨f.toList, ⟨lower, .inl rfl⟩, rfl⟩
  refine inline_of_split false ?_ options
  rw [split, if_pos rfl, chars, parts]
  simp only [cleanFlags_eq, Noted.bind_of_ok, Noted.outcome_pure]
  exact congrArg (Noted.mk · _) (List.append_nil _)

theorem inline_compiled (slashed : Bool) (p : Pattern) :
    inline false slashed none (.scalar (.pattern p)) =
      ⟨[], .ok (flagged p.flags.letters p.source)⟩ := by
  rw [← ofList_withFlags]
  rfl

end Pattern

namespace Operator

open Pattern

def searching (text : String) : Value := .object [(regexKey, .str text)]

theorem fragment_of_inline {name : String} (pattern : isPattern name = true) {v : Value}
    {options : Option String} {ws : List Warning} {text : String}
    (written : inline (name = "nlike") (name = "regexp") options v = ⟨ws, .ok text⟩) :
    fragment name v options = ⟨ws, .ok (searching text)⟩ := by
  rw [fragment, search?, if_pos pattern, written]
  simp only [Option.getD_some, Noted.bind_of_ok]
  exact congrArg (Noted.mk · _) (List.append_nil _)

/-- The three spellings of a pattern with flags agree: slashed text, with or without options beside
it, the source with these options, and the pattern compiled under the flags. What they become is
the source behind the flags, each once, and each other letter is told of once. -/
theorem spellings_agree (s f : String) (lower : ∀ c ∈ f.toList, 'a' ≤ c ∧ c ≤ 'z') :
    ∃ letters : List Char,
      letters.Nodup ∧ (∀ c, c ∈ letters ↔ c ∈ f.toList ∧ c ∈ flagLetters) ∧
      fragment "regexp" (.str ("/" ++ s ++ "/" ++ f)) none =
        ⟨remarks f.toList, .ok (searching (flagged letters s))⟩ ∧
      fragment "like" (.str s) (some f) =
        ⟨remarks f.toList, .ok (searching (flagged letters s))⟩ ∧
      (∀ more, fragment "regexp" (.str ("/" ++ s ++ "/" ++ f)) (some more) =
        fragment "like" (.str s) (some (f ++ more))) ∧
      ∀ name, name = "like" ∨ name = "regexp" →
        ∃ others : List Char, others.Perm letters ∧
          fragment name (.scalar (.pattern ⟨s, .ofLetters f.toList⟩)) none =
            ⟨[], .ok (searching (flagged others s))⟩ := by
  have slashed := inline_slashed s lower
  have beside := inline_text s
  refine ⟨keptFlags f.toList, nodup_keptFlags _, fun c => mem_keptFlags, ?_, ?_, ?_, ?_⟩
  · refine fragment_of_inline rfl ((slashed none).trans ?_)
    simp
  · exact fragment_of_inline rfl (beside (some f))
  · intro more
    have first : fragment "regexp" (.str ("/" ++ s ++ "/" ++ f)) (some more) = _ :=
      fragment_of_inline rfl (slashed (some more))
    have second : fragment "like" (.str s) (some (f ++ more)) = _ :=
      fragment_of_inline rfl (beside (some (f ++ more)))
    rw [first, second]
    simp
  · intro name given
    refine ⟨_, letters_ofLetters_perm f.toList, ?_⟩
    rcases given with rfl | rfl
    · exact fragment_of_inline rfl (inline_compiled _ _)
    · exact fragment_of_inline rfl (inline_compiled _ _)

/-- A source with a slash and a line break in it, and flags that are repeated or unknown. -/
theorem spellings_agree_global :
    (∀ c ∈ "gimgi".toList, 'a' ≤ c ∧ c ≤ 'z') ∧
      fragment "regexp" (.str "/a/b\n/gimgi") none =
        fragment "like" (.str "a/b\n") (some "gimgi") := by
  have lower : ∀ c ∈ "gimgi".toList, 'a' ≤ c ∧ c ≤ 'z' := by simp
  obtain ⟨letters, -, -, slashed, beside, -⟩ := spellings_agree "a/b\n" "gimgi" lower
  exact ⟨lower, slashed.trans beside.symm⟩

end Operator

end ModelStore
