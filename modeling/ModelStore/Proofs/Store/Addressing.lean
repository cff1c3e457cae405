import ModelStore.Proofs.Noted
import ModelStore.Proofs.Text.Percent
import ModelStore.Proofs.Url.Resolution
import ModelStore.Store.Site

/-! Where a request for a document goes. The id is one segment of the path, percent-encoded, and
that of a design document two. Encoding leaves dots as they are, so an id that is nothing but
one or two dots is taken for a dot segment, and the request goes elsewhere. -/

namespace ModelStore

namespace Text

def isEncoded (c : Char) : Bool := isUnreserved c || c == '%'

theorem isUnreserved_upperHex {n : Nat} (small : n < 16) : isUnreserved (upperHex n) = true := by
  have all : ∀ n < 16, isUnreserved (upperHex n) = true := by decide
  exact all n small

theorem eq_or_isEncoded {keep : Char → Bool} {c d : Char} (mem : c ∈ percentChar keep d) :
    c = d ∧ keep c = true ∨ isEncoded c = true := by
  unfold percentChar at mem
  split at mem
  · rename_i kept
    rw [List.mem_singleton] at mem
    exact .inl ⟨mem, mem ▸ kept⟩
  · right
    obtain ⟨b, byte, mem⟩ := List.mem_flatMap.1 mem
    have small := lt_of_mem_utf8 byte
    simp only [percentByte, List.mem_cons, List.not_mem_nil, or_false] at mem
    rcases mem with rfl | rfl | rfl
    · rfl
    · rw [isEncoded, isUnreserved_upperHex (by omega)]
      rfl
    · rw [isEncoded, isUnreserved_upperHex (by omega)]
      rfl

theorem kept_or_isEncoded {keep : Char → Bool} {cs : List Char} {c : Char}
    (mem : c ∈ encodeChars keep cs) : keep c = true ∨ isEncoded c = true := by
  obtain ⟨d, -, mem⟩ := List.mem_flatMap.1 mem
  exact (eq_or_isEncoded mem).imp_left And.right

theorem isEncoded_of_mem {cs : List Char} {c : Char} (mem : c ∈ encodeChars isUnreserved cs) :
    isEncoded c = true := by
  rcases kept_or_isEncoded mem with kept | encoded
  · rw [isEncoded, kept]
    rfl
  · exact encoded

theorem lt_of_isEncoded {c : Char} (encoded : isEncoded c = true) : c.toNat < 128 := by
  unfold isEncoded isUnreserved Char.isAlphanum Char.isAlpha Char.isUpper Char.isLower
    Char.isDigit at encoded
  simp only [Bool.or_eq_true, Bool.and_eq_true, decide_eq_true_eq, beq_iff_eq,
    UInt32.le_iff_toNat_le, ge_iff_le] at encoded
  have value : c.toNat = c.val.toNat := rfl
  rcases encoded with ((((letter | rfl) | rfl) | rfl) | rfl) | rfl
  · simp only [Char.reduceVal, UInt32.reduceToNat] at letter
    omega
  all_goals decide

theorem plain_of_isEncoded {c : Char} (encoded : isEncoded c = true) :
    Url.isPathChar c = true ∧ c ∉ [':', '/', '?', '#'] := by
  have all : ∀ n < 128, isEncoded (Char.ofNat n) = true →
      Url.isPathChar (Char.ofNat n) = true ∧ Char.ofNat n ∉ [':', '/', '?', '#'] := by decide
  have here := all c.toNat (lt_of_isEncoded encoded)
  rw [Char.ofNat_toNat] at here
  exact here encoded

theorem mem_percentChar {keep : Char → Bool} {c : Char} (strange : keep c ≠ true) :
    '%' ∈ percentChar keep c := by
  have bytes : utf8 c ≠ [] := by
    unfold utf8
    simp only
    split
    · simp
    · split
      · simp
      · split <;> simp
  obtain ⟨b, later, written⟩ := List.exists_cons_of_ne_nil bytes
  rw [percentChar, if_neg strange, written, List.flatMap_cons, percentByte]
  exact List.mem_cons_self

theorem encodeChars_of_kept {keep : Char → Bool} {cs : List Char}
    (kept : ∀ c ∈ cs, keep c = true) : encodeChars keep cs = cs := by
  induction cs with
  | nil => rfl
  | cons c rest ih =>
    obtain ⟨here, there⟩ := List.forall_mem_cons.1 kept
    rw [encodeChars, List.flatMap_cons, percentChar, if_pos here]
    exact congrArg (c :: ·) (ih there)

/-- Only dots are written as dots. -/
theorem encodeChars_eq_dots {cs dots : List Char} (all : ∀ c ∈ dots, c = '.') :
    encodeChars isUnreserved cs = dots ↔ cs = dots := by
  have unreserved : isUnreserved '.' = true := by decide
  constructor
  · intro written
    have dotted : ∀ c ∈ cs, c = '.' := by
      intro c mem
      have within : ∀ d ∈ percentChar isUnreserved c, d = '.' := fun d part =>
        all d (written ▸ List.mem_flatMap.2 ⟨c, mem, part⟩)
      by_cases kept : isUnreserved c = true
      · rw [percentChar, if_pos kept] at within
        exact within c List.mem_cons_self
      · exact absurd (within '%' (mem_percentChar kept)) (by decide)
    rw [← written]
    exact (encodeChars_of_kept fun c mem => by rw [dotted c mem, unreserved]).symm
  · rintro rfl
    exact encodeChars_of_kept fun c mem => by rw [all c mem, unreserved]

end Text

namespace UrlQuery

open Text

theorem isQueryChar_of_mem_encodePart {s : String} {c : Char} (mem : c ∈ encodePart s) :
    Url.isQueryChar c = true := by
  obtain ⟨d, written, rfl⟩ := List.mem_map.1 mem
  have encoded : d = ' ' ∨ isEncoded d = true := by
    rcases kept_or_isEncoded written with kept | encoded
    · rcases Bool.or_eq_true_iff.1 kept with kept | blank
      · right
        rw [isEncoded, kept]
        rfl
      · exact .inl (beq_iff_eq.1 blank)
    · exact .inr encoded
  rcases encoded with rfl | encoded
  · decide
  · unfold plusForBlank
    split
    · decide
    · exact (Bool.and_eq_true_iff.1 (plain_of_isEncoded encoded).1).1

theorem isQueryChar_of_mem_encode {fields : List (String × String)} {c : Char}
    (mem : c ∈ encode fields) : Url.isQueryChar c = true := by
  rcases mem_joinChars mem with rfl | ⟨p, field, mem⟩
  · decide
  · obtain ⟨f, -, rfl⟩ := List.mem_map.1 field
    rcases List.mem_append.1 mem with mem | mem
    · exact isQueryChar_of_mem_encodePart mem
    · rcases List.mem_cons.1 mem with rfl | mem
      · decide
      · exact isQueryChar_of_mem_encodePart mem

end UrlQuery

namespace Text

theorem splitFirst_fst (sep : Char) (cs : List Char) :
    (splitFirst sep cs).1 = cs.takeWhile (· ≠ sep) := by
  unfold splitFirst
  split
  · rename_i none_
    have whole := cs.takeWhile_append_dropWhile (p := (· ≠ sep))
    rw [none_, List.append_nil] at whole
    exact whole.symm
  · rfl

theorem encodeKeeping_rooted (cs : List Char) :
    encodeKeeping Url.isPathChar ('/' :: cs) = '/' :: encodeKeeping Url.isPathChar cs := by
  rw [encodeKeeping_of_ne (by decide), percentChar, if_pos (by decide)]
  rfl

end Text

open Text

theorem Reference.takeScheme_rooted (cs : List Char) :
    takeScheme ('/' :: cs) = ([], '/' :: cs) := by
  have first := splitFirst_fst ':' ('/' :: cs)
  unfold takeScheme
  split
  · rename_i scheme rest cut
    rw [cut] at first
    have rooted : scheme = '/' :: cs.takeWhile (· ≠ ':') := first
    rw [rooted]
    rfl
  · rfl

namespace Url

theorem ofReference_path (path : List Char) :
    ofReference ⟨[], [], path, none⟩ = checked ⟨[], [], [], none, path, none⟩ :=
  rfl

theorem ofText_rooted {s : String} {c : Char} {more : List Char} {u : Url}
    (written : s.toList = '/' :: c :: more) (single : c ≠ '/') (whole : '#' ∉ s.toList)
    (unasked : '?' ∉ s.toList) (h : ofText s = .ok u) :
    u.target = encodeKeeping isPathChar s.toList := by
  have alone : Authority.take s.toList = ([], s.toList) := by
    rw [written, Authority.take]
    rintro rest ⟨⟩
    exact single rfl
  have untyped : Reference.takeScheme s.toList = ([], s.toList) := by
    rw [written, Reference.takeScheme_rooted]
  have reference : Reference.ofChars s.toList = ⟨[], [], s.toList, none⟩ := by
    rw [Reference.ofChars, untyped]
    simp only [alone, splitFirst_of_not_mem whole, splitFirst_of_not_mem unasked]
  rw [ofText] at h
  split at h
  · cases h
  · split at h
    · cases h
    · rw [reference, ofReference_path, checked] at h
      split at h
      · cases h
      · cases h
        have present : (encodeKeeping isPathChar s.toList).isEmpty = false := by
          rw [written, encodeKeeping_rooted]
          rfl
        simp only [target, encoded, isRelative, hasAuthority, List.isEmpty_nil, Bool.not_true,
          Bool.false_or, Option.isSome_none, Bool.not_false, Bool.and_true, if_true,
          Option.map_none, List.append_nil, present, Bool.false_eq_true, if_false]

end Url

namespace Path

/-- The part of a document's id that its path ends with. -/
def name (id : String) : String := (designName? id).getD id

/-- The path of a document has a dot segment: its database or its own name is one. -/
def HasDots (db id : String) : Prop :=
  (db = "." ∨ db = "..") ∨ name id = "." ∨ name id = ".."

instance (db id : String) : Decidable (HasDots db id) :=
  inferInstanceAs (Decidable ((db = "." ∨ db = "..") ∨ name id = "." ∨ name id = ".."))

def segments (id : String) : List (List Char) :=
  (if (designName? id).isSome then [['_', 'd', 'e', 's', 'i', 'g', 'n']] else []) ++
    [encodeChars isUnreserved (name id).toList]

theorem document_toList (db id : String) :
    (document db id).toList = '/' :: joinChars '/'
      (encodeChars isUnreserved db.toList :: segments id) := by
  unfold document segments name
  cases design? : designName? id with
  | none => simp [base, encode, joinChars]
  | some n =>
    simp [base, design, encode, joinChars]
    rfl

theorem isEncoded_of_mem_segments {db id : String} {p : List Char} {c : Char}
    (segment : p ∈ encodeChars isUnreserved db.toList :: segments id) (mem : c ∈ p) :
    isEncoded c = true := by
  simp only [segments, List.mem_cons, List.mem_append, List.not_mem_nil, or_false] at segment
  rcases segment with rfl | segment | rfl
  · exact isEncoded_of_mem mem
  · split at segment
    · rw [List.mem_singleton] at segment
      have all : ['_', 'd', 'e', 's', 'i', 'g', 'n'].all isEncoded = true := by decide
      exact List.all_eq_true.1 all c (segment ▸ mem)
    · cases segment
  · exact isEncoded_of_mem mem

theorem isDots_toList {s : String} : Url.IsDots s.toList ↔ s = "." ∨ s = ".." := by
  have one : s.toList = Url.dot ↔ s = "." := by rw [← String.toList_inj]; rfl
  have two : s.toList = Url.dots ↔ s = ".." := by rw [← String.toList_inj]; rfl
  rw [Url.IsDots, one, two]

theorem isDots_encodeChars {s : String} :
    Url.IsDots (encodeChars isUnreserved s.toList) ↔ s = "." ∨ s = ".." := by
  rw [← isDots_toList, Url.IsDots, encodeChars_eq_dots (by simp [Url.dot]),
    encodeChars_eq_dots (by simp [Url.dots]), Url.IsDots]

theorem not_isDots_design : ¬Url.IsDots ['_', 'd', 'e', 's', 'i', 'g', 'n'] := by
  rintro (same | same) <;> cases same

theorem exists_isDots_segments {id : String} :
    (∃ p ∈ segments id, Url.IsDots p) ↔ name id = "." ∨ name id = ".." := by
  rw [← isDots_encodeChars]
  unfold segments
  split <;> simp [not_isDots_design]

theorem not_mem_of_mem_segments {db id : String} {p : List Char}
    (segment : p ∈ encodeChars isUnreserved db.toList :: segments id) : '/' ∉ p := by
  intro mem
  exact (plain_of_isEncoded (isEncoded_of_mem_segments segment mem)).2 (by decide)

theorem mem_document {db id : String} {c : Char} (mem : c ∈ (document db id).toList) :
    c = '/' ∨ isEncoded c = true := by
  rw [document_toList] at mem
  rcases List.mem_cons.1 mem with same | mem
  · exact .inl same
  · rcases mem_joinChars mem with same | ⟨p, segment, mem⟩
    · exact .inl same
    · exact .inr (isEncoded_of_mem_segments segment mem)

theorem encodeChars_ne_nil {s : String} (given : s ≠ "") :
    encodeChars isUnreserved s.toList ≠ [] := by
  rw [Ne, encodeChars_eq_dots (by simp), String.toList_eq_nil_iff]
  exact given

theorem exists_document {db : String} (id : String) (named : db ≠ "") :
    ∃ d more, (document db id).toList = '/' :: d :: more ∧ d ≠ '/' := by
  obtain ⟨d, more, first⟩ := List.exists_cons_of_ne_nil (encodeChars_ne_nil named)
  obtain ⟨p, rest, later⟩ : ∃ p rest, segments id = p :: rest :=
    List.exists_cons_of_ne_nil (by simp [segments])
  have other : d ≠ '/' := by
    rintro rfl
    have segment : encodeChars isUnreserved db.toList ∈
        encodeChars isUnreserved db.toList :: segments id := List.mem_cons_self
    exact not_mem_of_mem_segments segment (first ▸ List.mem_cons_self)
  refine ⟨d, more ++ '/' :: joinChars '/' (p :: rest), ?_, other⟩
  rw [document_toList, first, later, joinChars]
  rfl

theorem ofText_document {db id : String} (named : db ≠ "") {u : Url}
    (h : Url.ofText (document db id) = .ok u) :
    u.target = (document db id).toList := by
  have plain : ∀ c ∈ ['?', '#'], c ∉ (document db id).toList := by
    intro c sign mem
    rcases mem_document mem with rfl | encoded
    · exact absurd sign (by decide)
    · refine (plain_of_isEncoded encoded).2 ?_
      simp only [List.mem_cons, List.not_mem_nil, or_false] at sign ⊢
      rcases sign with same | same <;> simp [same]
  obtain ⟨d, more, written, other⟩ := exists_document id named
  rw [Url.ofText_rooted written other (plain '#' (by decide)) (plain '?' (by decide)) h]
  refine encodeKeeping_of_kept fun c mem => ?_
  rcases mem_document mem with rfl | encoded
  · decide
  · exact (plain_of_isEncoded encoded).1

end Path

namespace Call

def IsLook : Call → Prop
  | .get _ _ | .head _ _ => True
  | _ => False

/-- A call for one document goes to the path of that document. -/
def Undotted : Call → Prop
  | .get db id | .head db id | .delete db id _ => ¬Path.HasDots db id
  | _ => True

end Call

namespace Site

/-- A site whose base address has a server, a path without dot segments that ends in a slash, and
no query. -/
structure Plain (s : Site) : Prop where
  absolute : s.base.isRelative = false
  closed : ∃ front, s.base.path = front ++ ['/']
  kept : ∀ c ∈ s.base.path, Url.isPathChar c = true
  resolved : ∀ p ∈ cutChars '/' s.base.path, ¬Url.IsDots p
  unasked : s.base.query = none

/-- The path under which a site has a document. -/
def documentPath (s : Site) (db id : String) : List Char :=
  s.base.path ++ (Path.document db id).toList.drop 1

variable {s : Site} {db id : String}

theorem Plain.kept_documentPath (plain : s.Plain) :
    ∀ c ∈ s.documentPath db id, Url.isPathChar c = true := by
  intro c mem
  rcases List.mem_append.1 mem with mem | mem
  · exact plain.kept c mem
  · rcases Path.mem_document (List.mem_of_mem_drop mem) with rfl | encoded
    · decide
    · exact (plain_of_isEncoded encoded).1

/-- The only dot segments that the path of a document can have are the names of the database and
of the document. -/
theorem Plain.exists_isDots (plain : s.Plain) :
    (∃ p ∈ cutChars '/' (s.documentPath db id), Url.IsDots p) ↔
      Path.HasDots db id := by
  obtain ⟨front, closed⟩ := plain.closed
  have resolved := plain.resolved
  have pieces : cutChars '/' (s.documentPath db id) =
      cutChars '/' front ++ (encodeChars isUnreserved db.toList :: Path.segments id) := by
    rw [documentPath, closed, Path.document_toList, List.append_assoc]
    refine (cutChars_append '/' front _).trans (congrArg _ ?_)
    exact cutChars_joinChars (by simp) fun p => Path.not_mem_of_mem_segments
  have base : cutChars '/' (front ++ ['/']) = cutChars '/' front ++ [[]] := cutChars_append '/' _ _
  rw [closed, base] at resolved
  rw [pieces, Path.HasDots, ← Path.isDots_encodeChars, ← Path.exists_isDots_segments]
  constructor
  · rintro ⟨p, mem, dotted⟩
    rcases List.mem_append.1 mem with mem | mem
    · exact absurd dotted (resolved p (List.mem_append_left _ mem))
    · rcases List.mem_cons.1 mem with rfl | mem
      · exact .inl dotted
      · exact .inr ⟨p, mem, dotted⟩
  · rintro (dotted | ⟨p, mem, dotted⟩)
    · exact ⟨_, List.mem_append_right _ List.mem_cons_self, dotted⟩
    · exact ⟨p, List.mem_append_right _ (List.mem_cons_of_mem _ mem), dotted⟩

theorem Plain.placed_document (plain : s.Plain) (named : db ≠ "") {asked placed : Url}
    (read : Url.ofText (Path.document db id) = .ok asked)
    (target : s.base.withTarget (s.base.target ++ asked.target.dropWhile (· = '/')) =
      .ok placed) :
    placed.isRelative = false ∧ placed.path = Url.resolveDots (s.documentPath db id) := by
  obtain ⟨d, more, written, other⟩ := Path.exists_document id named
  obtain ⟨front, closed⟩ := plain.closed
  have below : asked.target.dropWhile (· = '/') = (Path.document db id).toList.drop 1 := by
    rw [Path.ofText_document named read, written]
    simp [other]
  have base : s.base.target = s.base.path := by
    rw [Url.target, plain.unasked, closed]
    simp
  rw [below, base] at target
  exact Url.path_withTarget plain.absolute plain.kept_documentPath target

/-- A request to read a document goes to the path of that document, unless the name of the
database or of the document is taken for a dot segment. -/
theorem Plain.address_get (plain : s.Plain) (named : db ≠ "") {q : Request}
    (sent : s.request (.get db id) = .ok q) :
    q.url.path = s.documentPath db id ↔ ¬Path.HasDots db id := by
  obtain ⟨url, address, sent⟩ := Except.bind_eq_ok.1 sent
  cases sent
  obtain ⟨asked, read, address⟩ := Except.bind_eq_ok.1 (Except.mapError_eq_ok.1 address)
  obtain ⟨placed, target, same⟩ := Except.bind_eq_ok.1 address
  cases same
  have first := (plain.placed_document named read target).2
  show url.path = _ ↔ _
  rw [first, Url.resolveDots_iff, plain.exists_isDots]

/-- A request to delete a document names its revision, and goes to the path of that document,
unless the name of the database or of the document is taken for a dot segment. -/
theorem Plain.address_delete (plain : s.Plain) (named : db ≠ "") {rev : Value} {q : Request}
    (sent : s.request (.delete db id rev) = .ok q) :
    q.url.query = some (UrlQuery.encode (Call.paramFields "rev" rev)) ∧
      (q.url.path = s.documentPath db id ↔ ¬Path.HasDots db id) := by
  obtain ⟨url, address, sent⟩ := Except.bind_eq_ok.1 sent
  cases sent
  obtain ⟨asked, read, address⟩ := Except.bind_eq_ok.1 (Except.mapError_eq_ok.1 address)
  obtain ⟨placed, target, query⟩ := Except.bind_eq_ok.1 address
  refine ⟨Url.query_withQuery (fun c => UrlQuery.isQueryChar_of_mem_encode) query, ?_⟩
  obtain ⟨absolute, first⟩ := plain.placed_document named read target
  have kept : ∀ c ∈ placed.path, Url.isPathChar c = true :=
    first ▸ Url.kept_resolveDots plain.kept_documentPath
  have second : url.path = Url.resolveDots (Url.resolveDots (s.documentPath db id)) := by
    rw [Url.path_withQuery absolute kept query, first]
  show url.path = _ ↔ _
  rw [second, Url.resolveDots_twice_iff, plain.exists_isDots]

end Site

end ModelStore
