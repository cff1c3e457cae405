/-! Cutting text at a separating character. Cutting never loses an empty piece, so
joining the pieces gives the text back. -/

namespace ModelStore.Text

/-- The pieces between the separators, in order; a text without one is a single piece. -/
def cutChars (sep : Char) : List Char → List (List Char)
  | [] => [[]]
  | c :: cs =>
    if c = sep then [] :: cutChars sep cs
    else
      match cutChars sep cs with
      | [] => [[c]]
      | piece :: rest => (c :: piece) :: rest

def joinChars (sep : Char) : List (List Char) → List Char
  | [] => []
  | [piece] => piece
  | piece :: next :: rest => piece ++ sep :: joinChars sep (next :: rest)

def cut (sep : Char) (s : String) : List String :=
  (cutChars sep s.toList).map String.ofList

def join (sep : Char) (pieces : List String) : String :=
  String.ofList (joinChars sep (pieces.map String.toList))

def splitFirst (sep : Char) (cs : List Char) : List Char × Option (List Char) :=
  match cs.dropWhile (· ≠ sep) with
  | [] => (cs, none)
  | _ :: after => (cs.takeWhile (· ≠ sep), some after)

/-- The text before the last separator, if there is one, and the text after it. -/
def splitLast (sep : Char) (cs : List Char) : Option (List Char) × List Char :=
  match splitFirst sep cs.reverse with
  | (after, none) => (none, after.reverse)
  | (after, some before) => (some before.reverse, after.reverse)

/-- The rest of a text after a leading part, if the text begins with it. -/
def afterLeading? : List Char → List Char → Option (List Char)
  | [], cs => some cs
  | _ :: _, [] => none
  | p :: ps, c :: cs => if p = c then afterLeading? ps cs else none

def occursIn (part : List Char) : List Char → Bool
  | [] => part.isEmpty
  | c :: cs => (afterLeading? part (c :: cs)).isSome || occursIn part cs

theorem cutChars_ne_nil (sep : Char) (cs : List Char) : cutChars sep cs ≠ [] := by
  induction cs with
  | nil => simp [cutChars]
  | cons c cs ih =>
    by_cases h : c = sep
    · simp [cutChars, h]
    · cases hc : cutChars sep cs with
      | nil => exact absurd hc ih
      | cons piece rest => simp [cutChars, h, hc]

theorem joinChars_cutChars (sep : Char) (cs : List Char) :
    joinChars sep (cutChars sep cs) = cs := by
  induction cs with
  | nil => rfl
  | cons c cs ih =>
    cases hc : cutChars sep cs with
    | nil => exact absurd hc (cutChars_ne_nil sep cs)
    | cons piece rest =>
      rw [hc] at ih
      by_cases h : c = sep
      · simp [cutChars, h, hc, joinChars, ih]
      · cases rest with
        | nil => simpa [cutChars, h, hc, joinChars] using ih
        | cons next rest => simpa [cutChars, h, hc, joinChars] using ih

theorem not_mem_of_mem_cutChars {sep : Char} {cs piece : List Char}
    (mem : piece ∈ cutChars sep cs) : sep ∉ piece := by
  induction cs generalizing piece with
  | nil =>
    rw [List.mem_singleton.1 mem]
    exact List.not_mem_nil
  | cons c cs ih =>
    rw [cutChars] at mem
    split at mem
    · rcases List.mem_cons.1 mem with rfl | mem
      · exact List.not_mem_nil
      · exact ih mem
    · rename_i other
      split at mem
      · rename_i none_
        exact absurd none_ (cutChars_ne_nil sep cs)
      · rename_i first rest pieces
        rcases List.mem_cons.1 mem with rfl | mem
        · have later : sep ∉ first := ih (pieces ▸ List.mem_cons_self)
          exact fun mem => (List.mem_cons.1 mem).elim (fun same => other same.symm) later
        · exact ih (pieces ▸ List.mem_cons_of_mem _ mem)

theorem cutChars_of_not_mem {sep : Char} {cs : List Char} (h : sep ∉ cs) :
    cutChars sep cs = [cs] := by
  induction cs with
  | nil => rfl
  | cons c cs ih =>
    rw [List.mem_cons, not_or] at h
    rw [cutChars, if_neg (Ne.symm h.1), ih h.2]

theorem splitFirst_of_not_mem {sep : Char} {cs : List Char} (h : sep ∉ cs) :
    splitFirst sep cs = (cs, none) := by
  have keep : ∀ c ∈ cs, decide (c ≠ sep) = true := by
    intro c hc
    simpa using fun e : c = sep => h (e ▸ hc)
  have tail : cs.dropWhile (· ≠ sep) = [] := by
    rw [← List.append_nil cs, List.dropWhile_append_of_pos keep]
    rfl
  simp only [splitFirst, tail]

theorem splitFirst_append {sep : Char} {before : List Char} (after : List Char)
    (h : sep ∉ before) : splitFirst sep (before ++ sep :: after) = (before, some after) := by
  have keep : ∀ c ∈ before, decide (c ≠ sep) = true := by
    intro c hc
    simpa using fun e : c = sep => h (e ▸ hc)
  have tail : (before ++ sep :: after).dropWhile (· ≠ sep) = sep :: after := by
    rw [List.dropWhile_append_of_pos keep]
    simp
  have head : (before ++ sep :: after).takeWhile (· ≠ sep) = before := by
    rw [List.takeWhile_append_of_pos keep]
    simp
  simp only [splitFirst, tail, head]

theorem splitLast_append {sep : Char} (before : List Char) {after : List Char}
    (h : sep ∉ after) : splitLast sep (before ++ sep :: after) = (some before, after) := by
  have turned : (before ++ sep :: after).reverse = after.reverse ++ sep :: before.reverse := by
    simp
  rw [splitLast, turned, splitFirst_append _ (by simpa using h)]
  simp

theorem splitLast_of_not_mem {sep : Char} {cs : List Char} (h : sep ∉ cs) :
    splitLast sep cs = (none, cs) := by
  rw [splitLast, splitFirst_of_not_mem (by simpa using h)]
  simp

theorem afterLeading?_eq_some {lead cs rest : List Char} :
    afterLeading? lead cs = some rest ↔ cs = lead ++ rest := by
  induction lead generalizing cs with
  | nil => simp [afterLeading?, eq_comm]
  | cons p ps ih =>
    cases cs with
    | nil => simp [afterLeading?]
    | cons c cs =>
      by_cases h : p = c
      · simp [afterLeading?, h, ih]
      · simp [afterLeading?, h, Ne.symm h]

end ModelStore.Text
