import ModelStore.Number.Numeral

/-! The text of a whole number is read as that number, unless it has more digits than are
read at all. -/

namespace ModelStore

namespace Text

variable {c : Char}

theorem toNat_of_isDigit (digit : c.isDigit) : 0x30 ≤ c.toNat ∧ c.toNat ≤ 0x39 := by
  simpa [Char.isDigit, UInt32.le_iff_toNat_le] using digit

theorem digit?_of_isDigit (digit : c.isDigit) : digit? c = some (c.toNat - 0x30) := by
  obtain ⟨low, high⟩ := toNat_of_isDigit digit
  have found := digit?_digitChar (c.toNat - 0x30) (by omega)
  rwa [digitChar, Nat.add_sub_cancel' low, Char.ofNat_toNat] at found

theorem isWhiteSpace_of_isDigit (digit : c.isDigit) : isWhiteSpace c = false := by
  obtain ⟨low, high⟩ := toNat_of_isDigit digit
  simp [isWhiteSpace]
  omega

theorem dropWhile_eq_self {p : Char → Bool} {cs : List Char} (plain : ∀ c ∈ cs, p c = false) :
    cs.dropWhile p = cs := by
  cases cs with
  | nil => rfl
  | cons c rest => rw [List.dropWhile_cons, plain c List.mem_cons_self, if_neg (by simp)]

theorem trim_eq_self {p : Char → Bool} {cs : List Char} (plain : ∀ c ∈ cs, p c = false) :
    trim p cs = cs := by
  have reversed : ∀ c ∈ cs.reverse, p c = false := fun c mem => plain c (List.mem_reverse.1 mem)
  rw [trim, dropWhile_eq_self plain, trimEnd, dropWhile_eq_self reversed, List.reverse_reverse]

end Text

namespace Number

open Text

theorem groupedDigits?_digits {cs : List Char} (written : cs ≠ [])
    (digits : ∀ c ∈ cs, c.isDigit) :
    groupedDigits? digit? cs = some (cs.map fun c => c.toNat - 0x30) := by
  induction cs with
  | nil => exact absurd rfl written
  | cons c rest ih =>
    have first := digit?_of_isDigit (digits c List.mem_cons_self)
    cases rest with
    | nil => simp [groupedDigits?, first]
    | cons d rest =>
      have others := ih (by simp) fun e mem => digits e (List.mem_cons_of_mem _ mem)
      have plain : d ≠ '_' := by
        rintro rfl
        exact absurd (digits '_' (by simp)) (by decide)
      have apart : ∀ after, d :: rest = '_' :: after → False := by
        intro after same
        cases same
        exact plain rfl
      simp only [groupedDigits?, first, others]
      rfl

theorem ofDigits_toDigits (n : Nat) :
    ofDigits 10 ((Nat.toDigits 10 n).map fun c => c.toNat - 0x30) = n := by
  have read := Nat.ofDigitChars_ten_toDigits (n := n)
  simp only [Nat.ofDigitChars_eq_foldl, Nat.mul_comm 10] at read
  rw [ofDigits, List.foldl_map]
  exact read

theorem integer?_of_digits {s : String} {n : Nat} (neg : Bool)
    (short : (Nat.toDigits 10 n).length ≤ digitLimit)
    (blankless : ∀ c ∈ s.toList, isWhiteSpace c = false)
    (sign : takeSign s.toList = (neg, Nat.toDigits 10 n)) : integer? s = some (signed neg n) := by
  have digits : ∀ c ∈ Nat.toDigits 10 n, c.isDigit := fun c mem =>
    Nat.isDigit_of_mem_toDigits (by decide) (by decide) mem
  have read := groupedDigits?_digits Nat.toDigits_ne_nil digits
  simp only [integer?, trim_eq_self blankless, sign, read, List.length_map,
    if_neg (Nat.not_lt.2 short), ofDigits_toDigits]

theorem takeSign_digits {cs : List Char} (digits : ∀ c ∈ cs, c.isDigit) :
    takeSign cs = (false, cs) := by
  cases cs with
  | nil => rfl
  | cons c rest =>
    have digit := digits c List.mem_cons_self
    unfold takeSign
    split
    · rename_i same
      cases same
      exact absurd digit (by decide)
    · rename_i same
      cases same
      exact absurd digit (by decide)
    · rfl

theorem integer?_integerText {n : Int} (short : (Nat.toDigits 10 n.natAbs).length ≤ digitLimit) :
    integer? (integerText n) = some n := by
  have digits : ∀ k, ∀ c ∈ Nat.toDigits 10 k, c.isDigit := fun k c mem =>
    Nat.isDigit_of_mem_toDigits (by decide) (by decide) mem
  cases n with
  | ofNat k =>
    have chars : (integerText (.ofNat k)).toList = Nat.toDigits 10 k := Nat.toList_repr
    refine integer?_of_digits false short ?_ ?_
    · rw [chars]
      exact fun c mem => isWhiteSpace_of_isDigit (digits k c mem)
    · rw [chars, takeSign_digits (digits k)]
  | negSucc k =>
    have chars : (integerText (.negSucc k)).toList = '-' :: Nat.toDigits 10 (k + 1) := by
      show ("-" ++ Nat.repr (k + 1)).toList = _
      rw [String.toList_append, Nat.toList_repr]
      rfl
    refine integer?_of_digits true short ?_ ?_
    · rw [chars, List.forall_mem_cons]
      exact ⟨by decide, fun c mem => isWhiteSpace_of_isDigit (digits (k + 1) c mem)⟩
    · rw [chars]
      rfl

end Number

end ModelStore
