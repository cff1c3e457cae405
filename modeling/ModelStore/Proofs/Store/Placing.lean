import ModelStore.Proofs.Store.Decoding

/-! Where a target goes below a base address. The segments of the target come after those of the
base; a dot segment among them takes something away, so the path goes on from a part of the base
with some of the target's segments. What they decode to is not changed on the way. -/

namespace ModelStore

namespace Text

variable {sep c : Char} {cs p : List Char}

theorem isEncoded_of_hexValue? (hex : (hexValue? c).isSome) : isEncoded c = true := by
  have small : c.toNat < 128 := by
    unfold hexValue? at hex
    simp only [Char.le_def, UInt32.le_iff_toNat_le] at hex
    have value : c.toNat = c.val.toNat := rfl
    simp only [Char.reduceVal, UInt32.reduceToNat] at hex
    split at hex
    · omega
    · split at hex
      · omega
      · split at hex
        · omega
        · cases hex
  have all : ∀ n < 128, (hexValue? (Char.ofNat n)).isSome → isEncoded (Char.ofNat n) = true := by
    decide
  have here := all c.toNat small
  rw [Char.ofNat_toNat] at here
  exact here hex

theorem mem_encodeKeeping {keep : Char → Bool} (mem : c ∈ encodeKeeping keep cs) :
    c ∈ cs ∧ keep c = true ∨ isEncoded c = true := by
  have first {d : Char} {rest : List Char} (mem : c ∈ percentChar keep d) :
      c ∈ d :: rest ∧ keep c = true ∨ isEncoded c = true :=
    (eq_or_isEncoded mem).imp_left (And.imp_left fun same : c = d => same ▸ List.mem_cons_self)
  fun_induction encodeKeeping keep cs with
  | case1 => cases mem
  | case2 h l rest hex ih =>
    simp only [List.mem_cons] at mem
    rcases mem with rfl | rfl | rfl | mem
    · exact .inr rfl
    · exact .inr (isEncoded_of_hexValue? hex.1)
    · exact .inr (isEncoded_of_hexValue? hex.2)
    · exact (ih mem).imp_left (And.imp_left fun within => by simp [within])
  | case3 h l rest other ih =>
    rcases List.mem_append.1 mem with mem | mem
    · exact first mem
    · exact (ih mem).imp_left (And.imp_left (List.mem_cons_of_mem _))
  | case4 d rest other ih =>
    rcases List.mem_append.1 mem with mem | mem
    · exact first mem
    · exact (ih mem).imp_left (And.imp_left (List.mem_cons_of_mem _))

theorem not_mem_encodeKeeping (cs : List Char) : '?' ∉ encodeKeeping Url.isPathChar cs := by
  intro mem
  rcases mem_encodeKeeping mem with ⟨-, kept⟩ | encoded
  · cases kept
  · cases encoded

theorem slash_not_mem_encodeKeeping (single : '/' ∉ cs) :
    '/' ∉ encodeKeeping Url.isPathChar cs := by
  intro mem
  rcases mem_encodeKeeping mem with ⟨within, -⟩ | encoded
  · exact single within
  · cases encoded

theorem encodeKeeping_joinChars (pieces : List (List Char)) :
    encodeKeeping Url.isPathChar (joinChars '/' pieces) =
      joinChars '/' (pieces.map (encodeKeeping Url.isPathChar)) := by
  induction pieces with
  | nil => rfl
  | cons p rest ih =>
    cases rest with
    | nil => rfl
    | cons next rest =>
      rw [joinChars, encodeKeeping_append_slash (by decide) (by decide), ih]
      rfl

theorem cutChars_encodeKeeping (cs : List Char) :
    cutChars '/' (encodeKeeping Url.isPathChar cs) =
      (cutChars '/' cs).map (encodeKeeping Url.isPathChar) := by
  have uncut : ∀ p ∈ (cutChars '/' cs).map (encodeKeeping Url.isPathChar), '/' ∉ p := by
    intro p mem
    obtain ⟨q, piece, rfl⟩ := List.mem_map.1 mem
    exact slash_not_mem_encodeKeeping (not_mem_of_mem_cutChars piece)
  have whole := congrArg (encodeKeeping Url.isPathChar) (joinChars_cutChars '/' cs)
  rw [encodeKeeping_joinChars] at whole
  rw [← whole]
  exact cutChars_joinChars (by simp [cutChars_ne_nil]) uncut

theorem length_lt_weight {pieces : List (List Char)} (mem : p ∈ pieces) :
    p.length < weight pieces := by
  induction pieces with
  | nil => cases mem
  | cons q rest ih =>
    rw [weight_cons]
    rcases List.mem_cons.1 mem with rfl | mem
    · omega
    · have := ih mem
      omega

theorem eq_or_length_lt_of_mem_cutChars (mem : p ∈ cutChars sep cs) :
    p = cs ∧ sep ∉ cs ∨ p.length < cs.length := by
  by_cases within : sep ∈ cs
  · right
    obtain ⟨front, back, rfl⟩ := List.append_of_mem within
    have whole := weight_cutChars sep (front ++ sep :: back)
    rw [cutChars_append] at mem whole
    rw [weight_append] at whole
    have some_ : ∀ part, 0 < weight (cutChars sep part) := fun part => by
      rw [weight_cutChars]
      omega
    have := some_ front
    have := some_ back
    rcases List.mem_append.1 mem with mem | mem
    · have := length_lt_weight mem
      omega
    · have := length_lt_weight mem
      omega
  · rw [cutChars_of_not_mem within, List.mem_singleton] at mem
    exact .inl ⟨mem, within⟩

theorem mem_cutChars_of_dropWhile (mem : p ∈ cutChars sep (cs.dropWhile (· = sep))) :
    p ∈ cutChars sep cs := by
  induction cs with
  | nil => exact mem
  | cons c cs ih =>
    by_cases same : c = sep
    · rw [List.dropWhile_cons_of_pos (by simpa using same)] at mem
      rw [cutChars, if_pos same]
      exact List.mem_cons_of_mem _ (ih mem)
    · rwa [List.dropWhile_cons_of_neg (by simpa using same)] at mem

end Text

namespace Path

open Text

theorem decoded_encodeKeeping (cs : List Char) :
    decoded (encodeKeeping Url.isPathChar cs) = decoded cs := by
  rw [decoded, cutChars_encodeKeeping, List.map_map]
  exact List.map_congr_left fun p _ => decodeChars_encodeKeeping (by decide) p

theorem decoded_of_segments {segments : List (List Char)} (some_ : segments ≠ [])
    (uncut : ∀ p ∈ segments, '/' ∉ p) :
    decoded (joinChars '/' segments) = segments.map decodeChars := by
  rw [decoded, cutChars_joinChars some_ uncut]

end Path

namespace Url

open Text

/-- The segments of a path below others, the last first. Without a server dot segments stay. -/
def below (relative : Bool) (out segments : List (List Char)) : List (List Char) :=
  if relative then segments.reverse ++ out else segments.foldl resolveStep out

theorem below_append (relative : Bool) (out a b : List (List Char)) :
    below relative out (a ++ b) = below relative (below relative out a) b := by
  cases relative
  · exact List.foldl_append
  · simp [below]

theorem below_singleton {relative : Bool} {out : List (List Char)} {p : List Char}
    (plain : ¬IsDots p) : below relative out [p] = p :: out := by
  cases relative
  · exact foldl_resolveStep (fun s mem => List.mem_singleton.1 mem ▸ plain)
  · rfl

theorem exists_foldl_resolveStep (out segments : List (List Char)) :
    ∃ news gone, segments.foldl resolveStep out = news ++ out.drop gone ∧
      ∀ p ∈ news, p ∈ segments := by
  induction segments generalizing out with
  | nil => exact ⟨[], 0, rfl, nofun⟩
  | cons s rest ih =>
    obtain ⟨news, gone, whole, added⟩ := ih (resolveStep out s)
    have later : ∀ p ∈ news, p ∈ s :: rest := fun p mem => List.mem_cons_of_mem s (added p mem)
    rw [List.foldl_cons, whole]
    unfold resolveStep
    split
    · exact ⟨news, gone, rfl, later⟩
    · split
      · split
        · exact ⟨news, gone, rfl, later⟩
        · exact ⟨news, 1 + gone, by rw [List.drop_drop], later⟩
      · cases gone with
        | zero =>
          refine ⟨news ++ [s], 0, by simp, fun p mem => ?_⟩
          rcases List.mem_append.1 mem with mem | mem
          · exact later p mem
          · exact List.mem_singleton.1 mem ▸ List.mem_cons_self
        | succ gone => exact ⟨news, gone, rfl, later⟩

theorem exists_below (relative : Bool) (out segments : List (List Char)) :
    ∃ news gone, below relative out segments = news ++ out.drop gone ∧
      ∀ p ∈ news, p ∈ segments := by
  cases relative
  · exact exists_foldl_resolveStep out segments
  · exact ⟨segments.reverse, 0, rfl, fun p => List.mem_reverse.1⟩

def placed (u : Url) (path : List Char) : List (List Char) :=
  below u.isRelative [] (cutChars '/' path)

theorem path_encoded_eq (u : Url) :
    u.encoded.path = encodeKeeping isPathChar (joinChars '/' (u.placed u.path).reverse) := by
  have whole : joinChars '/' (u.placed u.path).reverse =
      if u.isRelative then u.path else resolveDots u.path := by
    unfold placed below
    split
    · rw [List.append_nil, List.reverse_reverse, joinChars_cutChars]
    · rfl
  rw [whole]
  rfl

theorem not_mem_placed {u : Url} {path p : List Char} (mem : p ∈ u.placed path) : '/' ∉ p := by
  obtain ⟨news, gone, whole, added⟩ := exists_below u.isRelative [] (cutChars '/' path)
  rw [placed, whole, List.drop_nil, List.append_nil] at mem
  exact not_mem_of_mem_cutChars (added p mem)

/-- What may come after a path in a target: nothing, or a query. -/
def IsAsked (rest : List Char) : Prop := rest = [] ∨ ∃ query, rest = '?' :: query

theorem splitFirst_target {path rest : List Char} (unasked : '?' ∉ path) (asked : IsAsked rest) :
    (splitFirst '?' (path ++ rest)).1 = path := by
  rcases asked with rfl | ⟨query, rfl⟩
  · rw [List.append_nil, splitFirst_of_not_mem unasked]
  · rw [splitFirst_append query unasked]

theorem eq_of_withTarget {u v : Url} {target : List Char} (h : u.withTarget target = .ok v) :
    v = encoded { u with
      path := (splitFirst '?' target).1
      query := (splitFirst '?' target).2 } := by
  rw [withTarget] at h
  split at h
  rename_i path query cut
  rw [cut]
  split at h
  · cases h
  · rw [withQuery] at h
    split at h
    · cases h
    · exact eq_encoded_of_checked h

theorem path_withTarget_eq {u v : Url} {path rest : List Char} (unasked : '?' ∉ path)
    (asked : IsAsked rest) (h : u.withTarget (path ++ rest) = .ok v) :
    v.path = encodeKeeping isPathChar (joinChars '/' (u.placed path).reverse) := by
  rw [eq_of_withTarget h, splitFirst_target unasked asked, path_encoded_eq]
  rfl

theorem exists_of_ofText {s : String} {u : Url} (h : ofText s = .ok u) :
    ∃ v : Url, v.path = (Reference.ofChars s.toList).path ∧ u = v.encoded := by
  rw [ofText] at h
  split at h
  · cases h
  · split at h
    · cases h
    · obtain ⟨host, -, h⟩ := Except.bind_eq_ok.1 h
      obtain ⟨port, -, h⟩ := Except.bind_eq_ok.1 h
      exact ⟨_, rfl, eq_encoded_of_checked h⟩

theorem not_mem_path_of_encoded (v : Url) : '?' ∉ v.encoded.path := by
  rw [path_encoded_eq]
  exact not_mem_encodeKeeping _

theorem exists_target (u : Url) :
    ∃ rest, IsAsked rest ∧ u.target = (if u.path.isEmpty then ['/'] else u.path) ++ rest := by
  cases asked : u.query with
  | none => exact ⟨[], .inl rfl, by rw [target, asked]⟩
  | some query => exact ⟨'?' :: query, .inr ⟨query, rfl⟩, by rw [target, asked]⟩

/-- What a text asks for below a base address: segments of its path, as far as they say
something, and a query. -/
theorem exists_asked {s : String} {u : Url} (h : ofText s = .ok u) :
    ∃ part rest, u.target.dropWhile (· = '/') = part ++ rest ∧ '?' ∉ part ∧ IsAsked rest ∧
      ∀ p ∈ cutChars '/' part, p = [] ∨
        ∃ q ∈ cutChars '/' (Reference.ofChars s.toList).path, decodeChars p = decodeChars q := by
  obtain ⟨v, path, rfl⟩ := exists_of_ofText h
  obtain ⟨rest, asked, target⟩ := exists_target v.encoded
  generalize whole : (if v.encoded.path.isEmpty then ['/'] else v.encoded.path) = front at target
  have unasked : '?' ∉ front := by
    rw [← whole]
    split
    · decide
    · exact not_mem_path_of_encoded v
  have stays : rest.dropWhile (· = '/') = rest := by
    rcases asked with rfl | ⟨query, rfl⟩ <;> rfl
  have parted : v.encoded.target.dropWhile (· = '/') = front.dropWhile (· = '/') ++ rest := by
    rw [target, List.dropWhile_append, stays]
    split
    · rename_i none_
      rw [List.isEmpty_iff.1 none_]
      rfl
    · rfl
  refine ⟨_, rest, parted, fun mem => unasked ((List.dropWhile_sublist _).mem mem), asked, ?_⟩
  intro p mem
  have mem := mem_cutChars_of_dropWhile mem
  rw [← whole] at mem
  split at mem
  · left
    simpa [cutChars] using mem
  · rw [path_encoded_eq, cutChars_encodeKeeping] at mem
    obtain ⟨q, piece, rfl⟩ := List.mem_map.1 mem
    by_cases none_ : v.placed v.path = []
    · rw [none_] at piece
      left
      rw [List.mem_singleton.1 piece]
      rfl
    · rw [cutChars_joinChars (by simpa using none_)
        fun p mem => not_mem_placed (List.mem_reverse.1 mem)] at piece
      obtain ⟨news, gone, below, added⟩ := exists_below v.isRelative [] (cutChars '/' v.path)
      rw [placed, below, List.drop_nil, List.append_nil, List.mem_reverse] at piece
      exact .inr ⟨q, path ▸ added q piece, decodeChars_encodeKeeping (by decide) q⟩

end Url

end ModelStore
