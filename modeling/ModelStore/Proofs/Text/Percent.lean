import ModelStore.Text.Percent

/-! Percent-encoded text read back. What a text stands for is the sequence of its bytes, an escape
being the byte that it writes and any other character its bytes in UTF-8. Encoding changes how the
bytes are written and not which they are, so encoded text decodes to what was encoded. A text is
its own decoding exactly if there is no escape in it. -/

namespace ModelStore.Text

theorem hexValue?_upperHex {n : Nat} (small : n < 16) : hexValue? (upperHex n) = some n := by
  have all : ∀ n < 16, hexValue? (upperHex n) = some n := by decide
  exact all n small

theorem toNat_lt (c : Char) : c.toNat < 0x110000 := by
  rcases c.valid with low | ⟨-, high⟩
  · exact Nat.lt_trans low (by decide)
  · exact high

theorem not_surrogate (c : Char) : c.toNat < 0xD800 ∨ 0xDFFF < c.toNat := by
  rcases c.valid with low | ⟨high, -⟩
  · exact .inl low
  · exact .inr high

theorem lt_of_mem_utf8 {c : Char} {b : Nat} (mem : b ∈ utf8 c) : b < 256 := by
  have bound := toNat_lt c
  simp only [utf8] at mem
  split at mem
  · simp at mem
    omega
  · split at mem
    · simp at mem
      omega
    · split at mem <;> simp at mem <;> omega

theorem utf8_of_lt {c : Char} (ascii : c.toNat < 0x80) : utf8 c = [c.toNat] := by
  simp only [utf8, if_pos ascii]

/-! ### Bytes to characters -/

variable {pending bits lo hi b : Nat} {bs : List Nat}

theorem utf8Chars_ascii (ascii : b < 0x80) :
    utf8Chars 0 bits lo hi (b :: bs) = Char.ofNat b :: utf8Chars 0 0 0 0 bs := by
  simp [utf8Chars, ascii]

theorem utf8Chars_leading {more own : Nat} {lo' hi' : Nat} (high : 0x80 ≤ b)
    (leads : leading? b = some (more, own, lo', hi')) :
    utf8Chars 0 bits lo hi (b :: bs) = utf8Chars more own lo' hi' bs := by
  simp [utf8Chars, leads, Nat.not_lt.2 high]

theorem utf8Chars_stray (high : 0x80 ≤ b) (alone : leading? b = none) :
    utf8Chars 0 bits lo hi (b :: bs) = replacement :: utf8Chars 0 0 0 0 bs := by
  simp [utf8Chars, alone, Nat.not_lt.2 high]

theorem utf8Chars_next (within : lo ≤ b ∧ b ≤ hi) :
    utf8Chars (pending + 2) bits lo hi (b :: bs) =
      utf8Chars (pending + 1) (bits * 0x40 + (b - 0x80)) 0x80 0xBF bs := by
  simp [utf8Chars, within]

theorem utf8Chars_last (within : lo ≤ b ∧ b ≤ hi) :
    utf8Chars 1 bits lo hi (b :: bs) =
      Char.ofNat (bits * 0x40 + (b - 0x80)) :: utf8Chars 0 0 0 0 bs := by
  simp [utf8Chars, within]

theorem utf8Chars_broken (other : ¬(lo ≤ b ∧ b ≤ hi)) :
    utf8Chars (pending + 1) bits lo hi (b :: bs) =
      replacement :: utf8Chars 0 0 0 0 (b :: bs) := by
  simp [utf8Chars, other]
  split
  · rfl
  · split <;> rfl

theorem leading?_two (low : 0xC2 ≤ b) (high : b < 0xE0) :
    leading? b = some (1, b - 0xC0, 0x80, 0xBF) := by
  rw [leading?, if_pos ⟨low, high⟩]

theorem leading?_three (low : 0xE0 ≤ b) (high : b < 0xF0) :
    leading? b = some (2, b - 0xE0, if b = 0xE0 then 0xA0 else 0x80,
      if b = 0xED then 0x9F else 0xBF) := by
  rw [leading?, if_neg (by omega), if_pos ⟨low, high⟩]

theorem leading?_four (low : 0xF0 ≤ b) (high : b < 0xF5) :
    leading? b = some (3, b - 0xF0, if b = 0xF0 then 0x90 else 0x80,
      if b = 0xF4 then 0x8F else 0xBF) := by
  rw [leading?, if_neg (by omega), if_neg (by omega), if_pos ⟨low, high⟩]

theorem utf8Chars_utf8 (c : Char) (rest : List Nat) :
    utf8Chars 0 bits lo hi (utf8 c ++ rest) = c :: utf8Chars 0 0 0 0 rest := by
  have bound := toNat_lt c
  have apart := not_surrogate c
  have back := Char.ofNat_toNat c
  simp only [utf8]
  generalize c.toNat = n at bound apart back
  split
  · rename_i ascii
    rw [List.singleton_append, utf8Chars_ascii ascii, back]
  · split
    · have leads := leading?_two (b := 0xC0 + n / 0x40) (by omega) (by omega)
      have whole : (0xC0 + n / 0x40 - 0xC0) * 0x40 + (0x80 + n % 0x40 - 0x80) = n := by omega
      simp only [List.cons_append, List.nil_append]
      rw [utf8Chars_leading (by omega) leads, utf8Chars_last (by omega), whole, back]
    · split
      · have leads := leading?_three (b := 0xE0 + n / 0x1000) (by omega) (by omega)
        have whole : ((0xE0 + n / 0x1000 - 0xE0) * 0x40 + (0x80 + n / 0x40 % 0x40 - 0x80)) * 0x40 +
            (0x80 + n % 0x40 - 0x80) = n := by omega
        simp only [List.cons_append, List.nil_append]
        rw [utf8Chars_leading (by omega) leads,
          utf8Chars_next (by constructor <;> split <;> omega), utf8Chars_last (by omega), whole,
          back]
      · have leads := leading?_four (b := 0xF0 + n / 0x40000) (by omega) (by omega)
        have whole : (((0xF0 + n / 0x40000 - 0xF0) * 0x40 +
            (0x80 + n / 0x1000 % 0x40 - 0x80)) * 0x40 + (0x80 + n / 0x40 % 0x40 - 0x80)) * 0x40 +
            (0x80 + n % 0x40 - 0x80) = n := by omega
        simp only [List.cons_append, List.nil_append]
        rw [utf8Chars_leading (by omega) leads,
          utf8Chars_next (by constructor <;> split <;> omega), utf8Chars_next (by omega),
          utf8Chars_last (by omega), whole, back]

theorem awaits_of_leading {more own : Nat} (leads : leading? b = some (more, own, lo, hi)) :
    0x80 ≤ lo ∧ hi ≤ 0xBF := by
  unfold leading? at leads
  split at leads
  · simp only [Option.some.injEq, Prod.mk.injEq] at leads
    omega
  · split at leads
    · simp only [Option.some.injEq, Prod.mk.injEq] at leads
      split at leads <;> split at leads <;> omega
    · split at leads
      · simp only [Option.some.injEq, Prod.mk.injEq] at leads
        split at leads <;> split at leads <;> omega
      · cases leads

theorem exists_utf8_eq_cons (c : Char) :
    ∃ b more, utf8 c = b :: more ∧ (b < 0x80 ∨ 0xBF < b) := by
  simp only [utf8]
  split
  · exact ⟨_, _, rfl, by omega⟩
  · split
    · exact ⟨_, _, rfl, by omega⟩
    · split <;> exact ⟨_, _, rfl, by omega⟩

theorem utf8Chars_append_utf8 (c : Char) (bs rest : List Nat)
    (awaits : pending = 0 ∨ 0x80 ≤ lo ∧ hi ≤ 0xBF) :
    utf8Chars pending bits lo hi (bs ++ (utf8 c ++ rest)) =
      utf8Chars pending bits lo hi bs ++ c :: utf8Chars 0 0 0 0 rest := by
  induction bs generalizing pending bits lo hi with
  | nil =>
    cases pending with
    | zero =>
      rw [List.nil_append, utf8Chars_utf8]
      rfl
    | succ pending =>
      obtain ⟨b, more, first, apart⟩ := exists_utf8_eq_cons c
      rw [List.nil_append, first, List.cons_append, utf8Chars_broken (by omega),
        ← List.cons_append, ← first, utf8Chars_utf8]
      rfl
  | cons b bs ih =>
    -- With nothing pending the byte is read for itself.
    have fresh (bits lo hi : Nat) : utf8Chars 0 bits lo hi (b :: (bs ++ (utf8 c ++ rest))) =
        utf8Chars 0 bits lo hi (b :: bs) ++ c :: utf8Chars 0 0 0 0 rest := by
      by_cases ascii : b < 0x80
      · rw [utf8Chars_ascii ascii, utf8Chars_ascii ascii, ih (.inl rfl), List.cons_append]
      · have high := Nat.not_lt.1 ascii
        cases leads : leading? b with
        | some read =>
          obtain ⟨more, own, lo', hi'⟩ := read
          rw [utf8Chars_leading high leads, utf8Chars_leading high leads,
            ih (.inr (awaits_of_leading leads))]
        | none =>
          rw [utf8Chars_stray high leads, utf8Chars_stray high leads, ih (.inl rfl),
            List.cons_append]
    cases pending with
    | zero => exact fresh bits lo hi
    | succ pending =>
      by_cases within : lo ≤ b ∧ b ≤ hi
      · cases pending with
        | zero =>
          rw [List.cons_append, utf8Chars_last within, utf8Chars_last within, ih (.inl rfl),
            List.cons_append]
        | succ pending =>
          rw [List.cons_append, utf8Chars_next within, utf8Chars_next within,
            ih (.inr (by decide))]
      · rw [List.cons_append, utf8Chars_broken within, utf8Chars_broken within, fresh,
          List.cons_append]

theorem length_utf8Chars_le (pending bits lo hi : Nat) (bs : List Nat) :
    (utf8Chars pending bits lo hi bs).length ≤ bs.length + min pending 1 := by
  induction bs generalizing pending bits lo hi with
  | nil => cases pending <;> simp [utf8Chars]
  | cons b bs ih =>
    have fresh (bits lo hi : Nat) :
        (utf8Chars 0 bits lo hi (b :: bs)).length ≤ (b :: bs).length := by
      by_cases ascii : b < 0x80
      · rw [utf8Chars_ascii ascii]
        exact Nat.succ_le_succ (ih 0 0 0 0)
      · have high := Nat.not_lt.1 ascii
        cases leads : leading? b with
        | some read =>
          obtain ⟨more, own, lo', hi'⟩ := read
          rw [utf8Chars_leading high leads]
          have := ih more own lo' hi'
          simp only [List.length_cons]
          omega
        | none =>
          rw [utf8Chars_stray high leads]
          exact Nat.succ_le_succ (ih 0 0 0 0)
    cases pending with
    | zero => exact fresh bits lo hi
    | succ pending =>
      by_cases within : lo ≤ b ∧ b ≤ hi
      · cases pending with
        | zero =>
          rw [utf8Chars_last within]
          have := ih 0 0 0 0
          simp only [List.length_cons]
          omega
        | succ pending =>
          rw [utf8Chars_next within]
          have := ih (pending + 1) (bits * 0x40 + (b - 0x80)) 0x80 0xBF
          simp only [List.length_cons]
          omega
      · rw [utf8Chars_broken within]
        have := fresh 0 0 0
        simp only [List.length_cons] at this ⊢
        omega

theorem ofUtf8_append_utf8 (bs : List Nat) (c : Char) (rest : List Nat) :
    ofUtf8 (bs ++ (utf8 c ++ rest)) = ofUtf8 bs ++ c :: ofUtf8 rest :=
  utf8Chars_append_utf8 c bs rest (.inl rfl)

theorem ofUtf8_flatMap (cs : List Char) : ofUtf8 (cs.flatMap utf8) = cs := by
  induction cs with
  | nil => rfl
  | cons c cs ih =>
    rw [List.flatMap_cons]
    refine (ofUtf8_append_utf8 [] c _).trans ?_
    rw [ih]
    rfl

/-! ### Escapes -/

/-- The bytes that a text stands for: those that its escapes write, and those of its other
characters. -/
def octets (cs : List Char) : List Nat := (percentBytes cs).flatMap (Sum.elim (fun b => [b]) utf8)

theorem decodeRuns_eq (run : List Nat) (items : List (Nat ⊕ Char)) :
    decodeRuns run items =
      ofUtf8 (run.reverse ++ items.flatMap (Sum.elim (fun b => [b]) utf8)) := by
  induction items generalizing run with
  | nil => simp [decodeRuns]
  | cons item items ih =>
    cases item with
    | inl b =>
      rw [decodeRuns, ih]
      simp
    | inr c =>
      rw [decodeRuns, ih]
      simp only [List.flatMap_cons, Sum.elim_inr, ofUtf8_append_utf8]
      rfl

theorem decodeChars_eq (cs : List Char) : decodeChars cs = ofUtf8 (octets cs) :=
  decodeRuns_eq [] _

inductive HasEscape : List Char → Prop where
  | here {h l : Char} {rest : List Char} (high : (hexValue? h).isSome)
      (low : (hexValue? l).isSome) : HasEscape ('%' :: h :: l :: rest)
  | there {c : Char} {cs : List Char} (escape : HasEscape cs) : HasEscape (c :: cs)

/-- A percent sign before the text would not begin an escape. -/
def Loose (cs : List Char) : Prop :=
  ∀ h l rest, cs = h :: l :: rest → ¬((hexValue? h).isSome ∧ (hexValue? l).isSome)

theorem loose_or_escape (cs : List Char) :
    Loose cs ∨ ∃ h l rest a b, cs = h :: l :: rest ∧ hexValue? h = some a ∧
      hexValue? l = some b := by
  match cs with
  | [] => exact .inl nofun
  | [c] => exact .inl nofun
  | h :: l :: rest =>
    by_cases hex : (hexValue? h).isSome ∧ (hexValue? l).isSome
    · obtain ⟨a, high⟩ := Option.isSome_iff_exists.1 hex.1
      obtain ⟨b, low⟩ := Option.isSome_iff_exists.1 hex.2
      exact .inr ⟨h, l, rest, a, b, rfl, high, low⟩
    · refine .inl ?_
      rintro _ _ _ ⟨⟩
      exact hex

/-- Text is read from the front: an escape at once, and any other character by itself. -/
@[elab_as_elim]
theorem escape_induction {motive : List Char → Prop} (nil : motive [])
    (escape : ∀ h l rest a b, hexValue? h = some a → hexValue? l = some b → motive rest →
      motive ('%' :: h :: l :: rest))
    (sign : ∀ cs, Loose cs → motive cs → motive ('%' :: cs))
    (other : ∀ c cs, c ≠ '%' → motive cs → motive (c :: cs)) (cs : List Char) : motive cs := by
  match cs with
  | [] => exact nil
  | c :: cs =>
    have later (rest : List Char) (shorter : rest.length < (c :: cs).length) : motive rest :=
      escape_induction nil escape sign other rest
    by_cases same : c = '%'
    · subst same
      rcases loose_or_escape cs with loose | ⟨h, l, rest, a, b, rfl, high, low⟩
      · exact sign cs loose (later cs (Nat.lt_succ_self _))
      · exact escape h l rest a b high low (later rest (by simp; omega))
    · exact other c cs same (later cs (Nat.lt_succ_self _))
termination_by cs.length
decreasing_by exact shorter

section Reading

variable {c h l : Char} {cs rest : List Char} {a b : Nat}

theorem percentBytes_of_ne (other : c ≠ '%') :
    percentBytes (c :: cs) =
      (if c.toNat < 0x80 then .inl c.toNat else .inr c) :: percentBytes cs := by
  rw [percentBytes]
  rintro h l rest rfl
  exact absurd rfl other

theorem percentBytes_of_loose (loose : Loose cs) :
    percentBytes ('%' :: cs) = .inl 0x25 :: percentBytes cs := by
  match cs with
  | [] => rfl
  | [c] => rfl
  | h :: l :: rest =>
    have none_ := loose h l rest rfl
    rw [percentBytes]
    split
    · rename_i high low
      simp [high, low] at none_
    · rfl

theorem percentBytes_escape (high : hexValue? h = some a) (low : hexValue? l = some b) :
    percentBytes ('%' :: h :: l :: rest) = .inl (a * 16 + b) :: percentBytes rest := by
  rw [percentBytes, high, low]

theorem octets_of_ne (other : c ≠ '%') : octets (c :: cs) = utf8 c ++ octets cs := by
  rw [octets, percentBytes_of_ne other, List.flatMap_cons, octets]
  split
  · rename_i ascii
    rw [utf8_of_lt ascii]
    rfl
  · rfl

theorem octets_of_loose (loose : Loose cs) : octets ('%' :: cs) = 0x25 :: octets cs := by
  rw [octets, percentBytes_of_loose loose]
  rfl

theorem octets_escape (high : hexValue? h = some a) (low : hexValue? l = some b) :
    octets ('%' :: h :: l :: rest) = (a * 16 + b) :: octets rest := by
  rw [octets, percentBytes_escape high low]
  rfl

end Reading

theorem octets_percentByte {b : Nat} (byte : b < 256) (rest : List Char) :
    octets (percentByte b ++ rest) = b :: octets rest := by
  refine (octets_escape (hexValue?_upperHex (n := b / 16) (by omega))
    (hexValue?_upperHex (n := b % 16) (by omega))).trans ?_
  rw [Nat.div_add_mod' b 16]
  rfl

theorem octets_percentBytes {bs : List Nat} (bytes : ∀ b ∈ bs, b < 256) (rest : List Char) :
    octets (bs.flatMap percentByte ++ rest) = bs ++ octets rest := by
  induction bs with
  | nil => rfl
  | cons b bs ih =>
    obtain ⟨byte, bytes⟩ := List.forall_mem_cons.1 bytes
    rw [List.flatMap_cons, List.append_assoc, octets_percentByte byte, ih bytes]
    rfl

theorem octets_percentChar {keep : Char → Bool} {c : Char} (other : keep c = true → c ≠ '%')
    (rest : List Char) : octets (percentChar keep c ++ rest) = utf8 c ++ octets rest := by
  unfold percentChar
  split
  · rename_i kept
    exact octets_of_ne (other kept)
  · exact octets_percentBytes (fun _ => lt_of_mem_utf8) rest

theorem octets_encodeChars {keep : Char → Bool} (other : keep '%' = false) (cs : List Char) :
    octets (encodeChars keep cs) = cs.flatMap utf8 := by
  induction cs with
  | nil => rfl
  | cons c cs ih =>
    rw [encodeChars, List.flatMap_cons, octets_percentChar ?_, List.flatMap_cons]
    · exact congrArg (utf8 c ++ ·) ih
    · rintro kept rfl
      rw [other] at kept
      cases kept

theorem decodeChars_encodeChars {keep : Char → Bool} (other : keep '%' = false)
    (cs : List Char) : decodeChars (encodeChars keep cs) = cs := by
  rw [decodeChars_eq, octets_encodeChars other, ofUtf8_flatMap]

/-- A text is told by its encoded form, whatever its characters are. -/
theorem decode_encode (s : String) : decode (encode s) = s := by
  unfold decode encode
  rw [String.toList_ofList, decodeChars_encodeChars (by decide), String.ofList_toList]

/-! ### Text that keeps its escapes -/

section Keeping

variable {keep : Char → Bool} {c : Char} {cs : List Char}

theorem encodeKeeping_of_ne (other : c ≠ '%') :
    encodeKeeping keep (c :: cs) = percentChar keep c ++ encodeKeeping keep cs := by
  rw [encodeKeeping]
  rintro h l rest rfl
  exact absurd rfl other

theorem encodeKeeping_escape {h l : Char} {a b : Nat} (high : hexValue? h = some a)
    (low : hexValue? l = some b) :
    encodeKeeping keep ('%' :: h :: l :: cs) = '%' :: h :: l :: encodeKeeping keep cs := by
  rw [encodeKeeping, if_pos (by simp [high, low])]

theorem encodeKeeping_of_loose (sign : keep '%' = true) (loose : Loose cs) :
    encodeKeeping keep ('%' :: cs) = '%' :: encodeKeeping keep cs := by
  have kept : percentChar keep '%' = ['%'] := if_pos sign
  match cs, loose with
  | [], _ => exact congrArg (· ++ encodeKeeping keep []) kept
  | [c], _ => exact congrArg (· ++ encodeKeeping keep [c]) kept
  | h :: l :: rest, loose =>
    rw [encodeKeeping, if_neg (loose h l rest rfl), kept]
    rfl

theorem encodeKeeping_cons (sign : keep '%' = true) (c : Char) (cs : List Char) :
    encodeKeeping keep (c :: cs) = c :: encodeKeeping keep cs ∨
      ∃ more, encodeKeeping keep (c :: cs) = '%' :: more := by
  by_cases same : c = '%'
  · subst same
    rcases loose_or_escape cs with loose | ⟨h, l, rest, a, b, rfl, high, low⟩
    · exact .inl (encodeKeeping_of_loose sign loose)
    · exact .inr ⟨_, encodeKeeping_escape high low⟩
  · rw [encodeKeeping_of_ne same]
    unfold percentChar
    split
    · exact .inl rfl
    · obtain ⟨b, more, first, -⟩ := exists_utf8_eq_cons c
      rw [first, List.flatMap_cons]
      exact .inr ⟨_, rfl⟩

theorem Loose.encodeKeeping (sign : keep '%' = true) (loose : Loose cs) :
    Loose (encodeKeeping keep cs) := by
  rintro h l rest written ⟨high, low⟩
  have digit {x : Char} (hex : (hexValue? x).isSome) : '%' ≠ x := by
    rintro rfl
    cases hex
  match cs with
  | [] => cases written
  | c :: others =>
    rcases encodeKeeping_cons sign c others with kept | ⟨more, kept⟩
    · obtain ⟨rfl, later⟩ := List.cons.inj (kept.symm.trans written)
      match others with
      | [] => cases later
      | d :: others =>
        rcases encodeKeeping_cons sign d others with kept | ⟨more, kept⟩
        · obtain ⟨rfl, -⟩ := List.cons.inj (kept.symm.trans later)
          exact loose _ _ others rfl ⟨high, low⟩
        · exact digit low (List.cons.inj (kept.symm.trans later)).1
    · exact digit high (List.cons.inj (kept.symm.trans written)).1

theorem encodeKeeping_eq_nil (sign : keep '%' = true) : encodeKeeping keep cs = [] ↔ cs = [] := by
  constructor
  · intro none_
    match cs with
    | [] => rfl
    | c :: rest =>
      rcases encodeKeeping_cons sign c rest with kept | ⟨more, kept⟩
      · cases kept.symm.trans none_
      · cases kept.symm.trans none_
  · rintro rfl
    rfl

theorem eq_of_encodeKeeping {ds : List Char} (sign : keep '%' = true) (unsigned : '%' ∉ ds)
    (h : encodeKeeping keep cs = ds) : cs = ds := by
  induction ds generalizing cs with
  | nil => exact (encodeKeeping_eq_nil sign).1 h
  | cons d ds ih =>
    match cs with
    | [] => cases h
    | c :: rest =>
      rcases encodeKeeping_cons sign c rest with kept | ⟨more, kept⟩
      · obtain ⟨rfl, later⟩ := List.cons.inj (kept.symm.trans h)
        rw [ih (fun mem => unsigned (List.mem_cons_of_mem _ mem)) later]
      · obtain ⟨rfl, -⟩ := List.cons.inj (kept.symm.trans h)
        exact absurd List.mem_cons_self unsigned

theorem Loose.append_slash (loose : Loose cs) (rest : List Char) : Loose (cs ++ '/' :: rest) := by
  rintro h l more written ⟨high, low⟩
  match cs with
  | [] =>
    cases written
    cases high
  | [c] =>
    cases written
    cases low
  | c :: d :: others =>
    cases written
    exact loose _ _ others rfl ⟨high, low⟩

theorem encodeKeeping_append_slash (sign : keep '%' = true) (slash : keep '/' = true)
    (cs rest : List Char) :
    encodeKeeping keep (cs ++ '/' :: rest) =
      encodeKeeping keep cs ++ '/' :: encodeKeeping keep rest := by
  induction cs using escape_induction with
  | nil =>
    rw [List.nil_append, encodeKeeping_of_ne (by decide), percentChar, if_pos slash]
    rfl
  | escape h l cs a b high low ih =>
    show encodeKeeping keep ('%' :: h :: l :: (cs ++ '/' :: rest)) = _
    rw [encodeKeeping_escape high low, encodeKeeping_escape high low, ih]
    rfl
  | sign cs loose ih =>
    rw [List.cons_append, encodeKeeping_of_loose sign (loose.append_slash rest),
      encodeKeeping_of_loose sign loose, ih]
    rfl
  | other c cs apart ih =>
    rw [List.cons_append, encodeKeeping_of_ne apart, encodeKeeping_of_ne apart, ih,
      List.append_assoc]

theorem octets_encodeKeeping (sign : keep '%' = true) (cs : List Char) :
    octets (encodeKeeping keep cs) = octets cs := by
  induction cs using escape_induction with
  | nil => rfl
  | escape h l rest a b high low ih =>
    rw [encodeKeeping_escape high low, octets_escape high low, octets_escape high low, ih]
  | sign cs loose ih =>
    rw [encodeKeeping_of_loose sign loose, octets_of_loose loose,
      octets_of_loose (loose.encodeKeeping sign), ih]
  | other c cs apart ih =>
    rw [encodeKeeping_of_ne apart, octets_percentChar fun _ => apart, octets_of_ne apart, ih]

theorem decodeChars_encodeKeeping (sign : keep '%' = true) (cs : List Char) :
    decodeChars (encodeKeeping keep cs) = decodeChars cs := by
  rw [decodeChars_eq, decodeChars_eq, octets_encodeKeeping sign]

end Keeping

/-! ### Text that is its own decoding -/

theorem octets_of_not_hasEscape {cs : List Char} (plain : ¬HasEscape cs) :
    octets cs = cs.flatMap utf8 := by
  induction cs using escape_induction with
  | nil => rfl
  | escape h l rest a b high low ih =>
    exact absurd (.here (by simp [high]) (by simp [low])) plain
  | sign cs loose ih =>
    rw [octets_of_loose loose, ih fun escape => plain escape.there]
    rfl
  | other c cs apart ih =>
    rw [octets_of_ne apart, ih fun escape => plain escape.there]
    rfl

theorem HasEscape.of_loose {cs : List Char} (escape : HasEscape ('%' :: cs))
    (loose : Loose cs) : HasEscape cs := by
  cases escape with
  | here high low => exact absurd ⟨high, low⟩ (loose _ _ _ rfl)
  | there escape => exact escape

theorem HasEscape.of_ne {c : Char} {cs : List Char} (escape : HasEscape (c :: cs))
    (apart : c ≠ '%') : HasEscape cs := by
  cases escape with
  | here high low => exact absurd rfl apart
  | there escape => exact escape

theorem length_decodeRuns_le (run : List Nat) (items : List (Nat ⊕ Char)) :
    (decodeRuns run items).length ≤ run.length + items.length := by
  have made (bs : List Nat) : (ofUtf8 bs).length ≤ bs.length := by
    have := length_utf8Chars_le 0 0 0 0 bs
    simpa [ofUtf8] using this
  induction items generalizing run with
  | nil => simpa [decodeRuns] using made run.reverse
  | cons item items ih =>
    cases item with
    | inl b =>
      have := ih (b :: run)
      rw [decodeRuns]
      simp only [List.length_cons] at this ⊢
      omega
    | inr c =>
      have := ih []
      have := made run.reverse
      rw [decodeRuns]
      simp only [List.length_append, List.length_cons, List.length_nil, List.length_reverse] at *
      omega

theorem length_percentBytes (cs : List Char) :
    (percentBytes cs).length ≤ cs.length ∧
      (HasEscape cs → (percentBytes cs).length < cs.length) := by
  induction cs using escape_induction with
  | nil => exact ⟨Nat.le_refl _, nofun⟩
  | escape h l rest a b high low ih =>
    rw [percentBytes_escape high low]
    simp only [List.length_cons]
    exact ⟨by omega, fun _ => by omega⟩
  | sign cs loose ih =>
    rw [percentBytes_of_loose loose]
    exact ⟨Nat.succ_le_succ ih.1, fun escape => Nat.succ_lt_succ (ih.2 (escape.of_loose loose))⟩
  | other c cs apart ih =>
    rw [percentBytes_of_ne apart]
    exact ⟨Nat.succ_le_succ ih.1, fun escape => Nat.succ_lt_succ (ih.2 (escape.of_ne apart))⟩

theorem length_decodeChars_le (cs : List Char) : (decodeChars cs).length ≤ cs.length := by
  have made := length_decodeRuns_le [] (percentBytes cs)
  have read := (length_percentBytes cs).1
  rw [decodeChars]
  simp only [List.length_nil] at made
  omega

theorem length_decodeChars_lt {cs : List Char} (escape : HasEscape cs) :
    (decodeChars cs).length < cs.length := by
  have made := length_decodeRuns_le [] (percentBytes cs)
  have read := (length_percentBytes cs).2 escape
  rw [decodeChars]
  simp only [List.length_nil] at made
  omega

theorem decodeChars_eq_self_iff {cs : List Char} : decodeChars cs = cs ↔ ¬HasEscape cs := by
  constructor
  · intro same escape
    have shorter := length_decodeChars_lt escape
    rw [same] at shorter
    omega
  · intro plain
    rw [decodeChars_eq, octets_of_not_hasEscape plain, ofUtf8_flatMap]

end ModelStore.Text
