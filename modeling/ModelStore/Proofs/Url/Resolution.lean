import ModelStore.Proofs.Text.Cut
import ModelStore.Url.Basic

/-! Paths with dot segments. Resolving them takes each dot segment out, and with two dots what
stands before it, so a path comes out shorter if it has one and is left as it is otherwise.
Characters that a path may hold are not encoded. -/

namespace ModelStore

namespace Text

variable {sep c : Char} {cs : List Char}

def weight : List (List Char) → Nat
  | [] => 0
  | p :: rest => p.length + 1 + weight rest

@[simp] theorem weight_cons (p : List Char) (rest : List (List Char)) :
    weight (p :: rest) = p.length + 1 + weight rest :=
  rfl

theorem weight_append (first rest : List (List Char)) :
    weight (first ++ rest) = weight first + weight rest := by
  induction first with
  | nil => simp [weight]
  | cons p first ih =>
    rw [List.cons_append, weight_cons, weight_cons, ih]
    omega

theorem weight_reverse (pieces : List (List Char)) : weight pieces.reverse = weight pieces := by
  induction pieces with
  | nil => rfl
  | cons p pieces ih =>
    rw [List.reverse_cons, weight_append, weight_cons, weight_cons, ih]
    exact Nat.add_comm _ _

theorem length_joinChars_le (sep : Char) (pieces : List (List Char)) :
    (joinChars sep pieces).length ≤ weight pieces - 1 := by
  induction pieces with
  | nil => simp [joinChars]
  | cons p rest ih =>
    cases rest with
    | nil => simp [joinChars, weight]
    | cons next rest =>
      rw [joinChars, List.length_append, List.length_cons, weight_cons]
      rw [weight_cons] at ih
      have := weight_cons next rest
      omega

theorem weight_cutChars (sep : Char) (cs : List Char) :
    weight (cutChars sep cs) = cs.length + 1 := by
  induction cs with
  | nil => rfl
  | cons c cs ih =>
    rw [cutChars]
    split
    · simp [ih]
      omega
    · split
      · rename_i none_
        exact absurd none_ (cutChars_ne_nil sep cs)
      · rename_i piece rest pieces
        rw [pieces, weight_cons] at ih
        simp
        omega

theorem encodeKeeping_of_kept {keep : Char → Bool} (kept : ∀ c ∈ cs, keep c = true) :
    encodeKeeping keep cs = cs := by
  fun_induction encodeKeeping keep cs with
  | case1 => rfl
  | case2 h l rest hex ih => rw [ih fun c mem => kept c (by simp [mem])]
  | case3 h l rest other ih =>
    rw [ih fun c mem => kept c (List.mem_cons_of_mem _ mem), percentChar,
      if_pos (kept _ List.mem_cons_self)]
    rfl
  | case4 c rest other ih =>
    rw [ih fun c mem => kept c (List.mem_cons_of_mem _ mem), percentChar,
      if_pos (kept _ List.mem_cons_self)]
    rfl

end Text

namespace Url

open Text

variable {cs : List Char} {out segments : List (List Char)}

/-- A segment that says where to go and not what is there. -/
def IsDots (segment : List Char) : Prop := segment = dot ∨ segment = dots

theorem foldl_resolveStep (plain : ∀ s ∈ segments, ¬IsDots s) :
    segments.foldl resolveStep out = segments.reverse ++ out := by
  induction segments generalizing out with
  | nil => rfl
  | cons s rest ih =>
    obtain ⟨here, there⟩ := List.forall_mem_cons.1 plain
    rw [IsDots, not_or] at here
    rw [List.foldl_cons, resolveStep, if_neg here.1, if_neg here.2, ih there]
    simp

theorem weight_resolveStep (out : List (List Char)) (s : List Char) :
    weight (resolveStep out s) ≤ weight out + s.length + 1 ∧
      (IsDots s → weight (resolveStep out s) < weight out + s.length + 1) := by
  have fewer : weight (out.drop 1) ≤ weight out := by
    cases out with
    | nil => exact Nat.le_refl _
    | cons p rest => simp
  unfold resolveStep IsDots
  split
  · exact ⟨by omega, fun _ => by omega⟩
  · split
    · split
      · exact ⟨by omega, fun _ => by omega⟩
      · exact ⟨by omega, fun _ => by omega⟩
    · rename_i one two
      refine ⟨by simp; omega, fun some_ => ?_⟩
      rcases some_ with same | same
      · exact absurd same one
      · exact absurd same two

theorem weight_foldl_resolveStep (segments out : List (List Char)) :
    weight (segments.foldl resolveStep out) ≤ weight out + weight segments ∧
      ((∃ s ∈ segments, IsDots s) →
        weight (segments.foldl resolveStep out) < weight out + weight segments) := by
  induction segments generalizing out with
  | nil => simp [weight]
  | cons s rest ih =>
    obtain ⟨bound, strict⟩ := ih (resolveStep out s)
    obtain ⟨one, less⟩ := weight_resolveStep out s
    rw [List.foldl_cons, weight_cons]
    refine ⟨by omega, ?_⟩
    rintro ⟨t, mem, dotted⟩
    rcases List.mem_cons.1 mem with rfl | mem
    · have := less dotted
      omega
    · have := strict ⟨t, mem, dotted⟩
      omega

theorem resolveDots_of_plain (plain : ∀ s ∈ cutChars '/' cs, ¬IsDots s) :
    resolveDots cs = cs := by
  rw [resolveDots, foldl_resolveStep plain, List.append_nil, List.reverse_reverse,
    joinChars_cutChars]

theorem length_resolveDots_lt (dotted : ∃ s ∈ cutChars '/' cs, IsDots s) :
    (resolveDots cs).length < cs.length := by
  have less := (weight_foldl_resolveStep (cutChars '/' cs) []).2 dotted
  have bound := length_joinChars_le '/' ((cutChars '/' cs).foldl resolveStep []).reverse
  have whole := weight_cutChars '/' cs
  rw [weight_reverse] at bound
  have empty : weight [] = 0 := rfl
  have present : 0 < cs.length := by
    obtain ⟨s, mem, same⟩ := dotted
    cases cs with
    | nil =>
      rw [cutChars, List.mem_singleton] at mem
      rcases same with rfl | rfl <;> cases mem
    | cons c rest => simp
  unfold resolveDots
  omega

theorem length_resolveDots_le (cs : List Char) : (resolveDots cs).length ≤ cs.length := by
  by_cases dotted : ∃ s ∈ cutChars '/' cs, IsDots s
  · exact Nat.le_of_lt (length_resolveDots_lt dotted)
  · have same := resolveDots_of_plain fun s mem dots => dotted ⟨s, mem, dots⟩
    exact Nat.le_of_eq (congrArg List.length same)

theorem mem_foldl_resolveStep {s : List Char} (mem : s ∈ segments.foldl resolveStep out) :
    s ∈ out ∨ s ∈ segments := by
  induction segments generalizing out with
  | nil => exact .inl mem
  | cons t rest ih =>
    rcases ih mem with mem | mem
    · have kept : s ∈ out ∨ s = t := by
        unfold resolveStep at mem
        split at mem
        · exact .inl mem
        · split at mem
          · split at mem
            · exact .inl mem
            · exact .inl (List.mem_of_mem_drop mem)
          · exact (List.mem_cons.1 mem).symm
      rcases kept with mem | rfl
      · exact .inl mem
      · exact .inr List.mem_cons_self
    · exact .inr (List.mem_cons_of_mem _ mem)

theorem mem_resolveDots {c : Char} (mem : c ∈ resolveDots cs) : c = '/' ∨ c ∈ cs := by
  rcases mem_joinChars mem with same | ⟨s, segment, mem⟩
  · exact .inl same
  · rcases mem_foldl_resolveStep (List.mem_reverse.1 segment) with none_ | segment
    · cases none_
    · exact .inr (mem_of_mem_cutChars segment mem)

theorem kept_resolveDots (kept : ∀ c ∈ cs, isPathChar c = true) :
    ∀ c ∈ resolveDots cs, isPathChar c = true := by
  intro c mem
  rcases mem_resolveDots mem with rfl | mem
  · decide
  · exact kept c mem

theorem resolveDots_iff : resolveDots cs = cs ↔ ¬∃ s ∈ cutChars '/' cs, IsDots s := by
  constructor
  · intro same dotted
    have shorter := length_resolveDots_lt dotted
    rw [same] at shorter
    omega
  · exact fun undotted => resolveDots_of_plain fun s mem dotted => undotted ⟨s, mem, dotted⟩

/-- However often they are resolved, dot segments do not come back. -/
theorem resolveDots_twice_iff :
    resolveDots (resolveDots cs) = cs ↔ ¬∃ s ∈ cutChars '/' cs, IsDots s := by
  constructor
  · intro same dotted
    have shorter := length_resolveDots_lt dotted
    have bound := length_resolveDots_le (resolveDots cs)
    rw [same] at bound
    omega
  · intro undotted
    have still : resolveDots cs = cs := resolveDots_iff.2 undotted
    rw [still, still]

theorem eq_encoded_of_checked {u v : Url} (h : u.checked = .ok v) : v = u.encoded := by
  unfold checked at h
  split at h
  · cases h
  · cases h
    rfl

theorem path_encoded {u : Url} (absolute : u.isRelative = false)
    (kept : ∀ c ∈ u.path, isPathChar c = true) : u.encoded.path = resolveDots u.path := by
  rw [encoded, absolute]
  exact encodeKeeping_of_kept (kept_resolveDots kept)

theorem path_withTarget {u v : Url} {target : List Char} (absolute : u.isRelative = false)
    (kept : ∀ c ∈ target, isPathChar c = true) (h : u.withTarget target = .ok v) :
    v.isRelative = false ∧ v.path = resolveDots target := by
  have whole : splitFirst '?' target = (target, none) :=
    splitFirst_of_not_mem fun mem => absurd (kept _ mem) (by decide)
  rw [withTarget, whole] at h
  simp only at h
  split at h
  · cases h
  · rw [withQuery] at h
    split at h
    · cases h
    · rw [eq_encoded_of_checked h]
      exact ⟨absolute, path_encoded absolute kept⟩

theorem path_withQuery {u v : Url} {query : Option (List Char)} (absolute : u.isRelative = false)
    (kept : ∀ c ∈ u.path, isPathChar c = true) (h : u.withQuery query = .ok v) :
    v.path = resolveDots u.path := by
  rw [withQuery] at h
  split at h
  · cases h
  · rw [eq_encoded_of_checked h]
    exact path_encoded absolute kept

theorem query_withQuery {u v : Url} {query : List Char}
    (kept : ∀ c ∈ query, isQueryChar c = true) (h : u.withQuery (some query) = .ok v) :
    v.query = some query := by
  rw [withQuery] at h
  split at h
  · cases h
  · rw [eq_encoded_of_checked h]
    exact congrArg some (encodeKeeping_of_kept kept)

end Url

end ModelStore
