import ModelStore.Text.Cut

/-! Cutting and joining against each other. Pieces that do not hold the separator are found again in
what they are joined to, and every character of a text is in one of its pieces or the separator. -/

namespace ModelStore.Text

variable {sep c : Char} {cs : List Char} {s : String}

theorem cutChars_append (sep : Char) (a b : List Char) :
    cutChars sep (a ++ sep :: b) = cutChars sep a ++ cutChars sep b := by
  induction a with
  | nil => simp [cutChars]
  | cons c a ih =>
    rw [List.cons_append, cutChars, cutChars, ih]
    by_cases same : c = sep
    · simp [same]
    · cases pieces : cutChars sep a with
      | nil => exact absurd pieces (cutChars_ne_nil sep a)
      | cons piece rest => simp [same]

theorem cutChars_joinChars {pieces : List (List Char)} (some_ : pieces ≠ [])
    (h : ∀ p ∈ pieces, sep ∉ p) : cutChars sep (joinChars sep pieces) = pieces := by
  induction pieces with
  | nil => exact absurd rfl some_
  | cons p rest ih =>
    obtain ⟨here, there⟩ := List.forall_mem_cons.1 h
    cases rest with
    | nil => exact cutChars_of_not_mem here
    | cons next rest =>
      rw [joinChars, cutChars_append, cutChars_of_not_mem here, ih (by simp) there]
      rfl

theorem mem_of_mem_cutChars {p : List Char} (piece : p ∈ cutChars sep cs) (mem : c ∈ p) :
    c ∈ cs := by
  induction cs generalizing p with
  | nil =>
    rw [cutChars, List.mem_singleton] at piece
    rw [piece] at mem
    exact mem
  | cons d cs ih =>
    rw [cutChars] at piece
    split at piece
    · rcases List.mem_cons.1 piece with rfl | piece
      · cases mem
      · exact List.mem_cons_of_mem _ (ih piece mem)
    · split at piece
      · rename_i none_
        exact absurd none_ (cutChars_ne_nil sep cs)
      · rename_i first rest pieces
        rcases List.mem_cons.1 piece with rfl | piece
        · rcases List.mem_cons.1 mem with rfl | mem
          · exact List.mem_cons_self
          · exact List.mem_cons_of_mem _ (ih (pieces ▸ List.mem_cons_self) mem)
        · exact List.mem_cons_of_mem _ (ih (pieces ▸ List.mem_cons_of_mem _ piece) mem)

theorem mem_joinChars {pieces : List (List Char)} (mem : c ∈ joinChars sep pieces) :
    c = sep ∨ ∃ p ∈ pieces, c ∈ p := by
  induction pieces with
  | nil => cases mem
  | cons p rest ih =>
    cases rest with
    | nil => exact .inr ⟨p, List.mem_cons_self, mem⟩
    | cons next rest =>
      rw [joinChars, List.mem_append, List.mem_cons] at mem
      rcases mem with mem | rfl | mem
      · exact .inr ⟨p, List.mem_cons_self, mem⟩
      · exact .inl rfl
      · rcases ih mem with same | ⟨q, other, mem⟩
        · exact .inl same
        · exact .inr ⟨q, List.mem_cons_of_mem _ other, mem⟩

theorem joinChars_append_singleton {p : List Char} {pieces : List (List Char)}
    (some_ : pieces ≠ []) :
    joinChars sep (pieces ++ [p]) = joinChars sep pieces ++ sep :: p := by
  induction pieces with
  | nil => exact absurd rfl some_
  | cons q rest ih =>
    cases rest with
    | nil => rfl
    | cons next rest =>
      rw [List.cons_append, List.cons_append, joinChars, joinChars, ← List.cons_append,
        ih (List.cons_ne_nil _ _), List.append_assoc]
      rfl

theorem two_le_length_cutChars (mem : sep ∈ cs) : 2 ≤ (cutChars sep cs).length := by
  induction cs with
  | nil => cases mem
  | cons c rest ih =>
    rw [cutChars]
    by_cases same : c = sep
    · have some_ := List.length_pos_iff.2 (cutChars_ne_nil sep rest)
      rw [if_pos same, List.length_cons]
      omega
    · have later := ih ((List.mem_cons.1 mem).resolve_left (Ne.symm same))
      rw [if_neg same]
      cases pieces : cutChars sep rest with
      | nil => exact absurd pieces (cutChars_ne_nil sep rest)
      | cons piece others => simpa [pieces] using later

theorem splitLast_eq_some {before after : List Char} :
    splitLast sep cs = (some before, after) ↔ sep ∉ after ∧ cs = before ++ sep :: after := by
  constructor
  · intro h
    by_cases mem : sep ∈ cs
    · obtain ⟨late, early, turned, last⟩ :=
        List.eq_append_cons_of_mem (List.mem_reverse.2 mem)
      have whole : cs = early.reverse ++ sep :: late.reverse := by
        rw [← List.reverse_reverse cs, turned]
        simp
      have last' : sep ∉ late.reverse := by simpa using last
      rw [whole, splitLast_append _ last'] at h
      cases h
      exact ⟨last', whole⟩
    · rw [splitLast_of_not_mem mem] at h
      cases h
  · rintro ⟨last, rfl⟩
    exact splitLast_append before last

theorem cut_ne_nil (sep : Char) (s : String) : cut sep s ≠ [] :=
  fun none_ => cutChars_ne_nil sep s.toList (List.map_eq_nil_iff.1 none_)

theorem cut_of_not_mem (h : sep ∉ s.toList) : cut sep s = [s] := by
  rw [cut, cutChars_of_not_mem h, List.map_singleton, String.ofList_toList]

theorem not_mem_of_mem_cut {piece : String} (mem : piece ∈ cut sep s) : sep ∉ piece.toList := by
  obtain ⟨cs, given, rfl⟩ := List.mem_map.1 mem
  rw [String.toList_ofList]
  exact not_mem_of_mem_cutChars given

theorem cut_join {pieces : List String} (some_ : pieces ≠ [])
    (uncut : ∀ p ∈ pieces, sep ∉ p.toList) : cut sep (join sep pieces) = pieces := by
  have uncut' : ∀ p ∈ pieces.map String.toList, sep ∉ p := by simpa using uncut
  rw [cut, join, String.toList_ofList,
    cutChars_joinChars (by simpa using some_) uncut', List.map_map]
  simp

end ModelStore.Text
