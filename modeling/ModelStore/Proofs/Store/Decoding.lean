import ModelStore.Proofs.Store.Addressing

/-! What the path of a document says. A server cuts a path at its slashes and takes the
percent-encoding off each piece. Nothing that a name is encoded with is a slash, so the pieces are
the names that the path was made of, and no two documents have one path. -/

namespace ModelStore

namespace Path

open Text

/-- What a server reads in a path: its pieces between slashes, each with the percent-encoding
taken off. -/
def decoded (path : List Char) : List (List Char) := (cutChars '/' path).map decodeChars

def pieces (path : String) : List String := (decoded path.toList).map String.ofList

theorem pieces_inj {path path' : String} :
    pieces path = pieces path' ↔ decoded path.toList = decoded path'.toList :=
  List.map_inj_right fun _ _ => String.ofList_injective

theorem decoded_joinChars {segments : List (List Char)} (some_ : segments ≠ [])
    (h : ∀ p ∈ segments, '/' ∉ p) :
    decoded ('/' :: joinChars '/' segments) = [] :: segments.map decodeChars := by
  rw [decoded, cutChars, if_pos rfl, cutChars_joinChars some_ h]
  rfl

theorem decodeChars_name (name : List Char) :
    decodeChars (encodeChars isUnreserved name) = name :=
  decodeChars_encodeChars (by decide) name

theorem decoded_document (db id : String) :
    decoded (document db id).toList = [] :: db.toList :: (segments id).map decodeChars := by
  rw [document_toList, decoded_joinChars (by simp) fun p => not_mem_of_mem_segments,
    List.map_cons, decodeChars_name]

theorem designName?_eq_some {id name : String} :
    designName? id = some name ↔ id = designPrefix ++ name := by
  rw [designName?, Option.map_eq_some_iff]
  constructor
  · rintro ⟨rest, leads, rfl⟩
    rw [afterLeading?_eq_some] at leads
    rw [← String.toList_inj, leads]
    simp
  · rintro rfl
    exact ⟨name.toList, afterLeading?_eq_some.2 (by simp), String.ofList_toList⟩

theorem pieces_design (db name : String) :
    pieces (document db (designPrefix ++ name)) = ["", db, "_design", name] := by
  have design? : designName? (designPrefix ++ name) = some name := designName?_eq_some.2 rfl
  have leading : decodeChars "_design".toList = "_design".toList := by decide
  have below : (segments (designPrefix ++ name)).map decodeChars =
      ["_design".toList, name.toList] := by
    rw [segments, Path.name, design?]
    show [decodeChars "_design".toList, decodeChars (encodeChars isUnreserved name.toList)] = _
    rw [leading, decodeChars_name]
  rw [pieces, decoded_document, below]
  simp

theorem pieces_ordinary {db id : String} (plain : ∀ name, id ≠ designPrefix ++ name) :
    pieces (document db id) = ["", db, id] := by
  have design? : designName? id = none :=
    Option.eq_none_iff_forall_ne_some.2 fun name some_ =>
      plain name (designName?_eq_some.1 some_)
  have below : (segments id).map decodeChars = [id.toList] := by
    rw [segments, Path.name, design?]
    show [decodeChars (encodeChars isUnreserved id.toList)] = _
    rw [decodeChars_name]
  rw [pieces, decoded_document, below]
  simp

/-- The database and the id are read back off the path of a document. -/
theorem document_inj {db id db' id' : String} (same : document db id = document db' id') :
    db = db' ∧ id = id' := by
  have said : pieces (document db id) = pieces (document db' id') := congrArg pieces same
  by_cases design : ∃ name, id = designPrefix ++ name
  · obtain ⟨name, rfl⟩ := design
    by_cases design' : ∃ name', id' = designPrefix ++ name'
    · obtain ⟨name', rfl⟩ := design'
      rw [pieces_design, pieces_design] at said
      simp only [List.cons.injEq, and_true, true_and] at said
      exact ⟨said.1, congrArg (designPrefix ++ ·) said.2⟩
    · rw [pieces_design, pieces_ordinary (not_exists.1 design')] at said
      exact absurd (congrArg List.length said) (by simp)
  · by_cases design' : ∃ name', id' = designPrefix ++ name'
    · obtain ⟨name', rfl⟩ := design'
      rw [pieces_design, pieces_ordinary (not_exists.1 design)] at said
      exact absurd (congrArg List.length said) (by simp)
    · rw [pieces_ordinary (not_exists.1 design), pieces_ordinary (not_exists.1 design')] at said
      simpa using said

/-- The path of a document decodes to what it encodes: the pieces are the empty text, the database
and the id, which makes two pieces if it is that of a design document. Hence no two pairs of a
database and an id have one path. -/
theorem document_decodes (db id : String) :
    ((∃ name, id = designPrefix ++ name ∧
        pieces (document db id) = ["", db, "_design", name]) ∨
      (∀ name, id ≠ designPrefix ++ name) ∧ pieces (document db id) = ["", db, id]) ∧
    ∀ db' id', document db id = document db' id' ↔ db = db' ∧ id = id' := by
  refine ⟨?_, fun db' id' => ⟨document_inj, ?_⟩⟩
  · by_cases design : ∃ name, id = designPrefix ++ name
    · obtain ⟨name, rfl⟩ := design
      exact .inl ⟨name, rfl, pieces_design db name⟩
    · exact .inr ⟨not_exists.1 design, pieces_ordinary (not_exists.1 design)⟩
  · rintro ⟨rfl, rfl⟩
    rfl

example : pieces (document "shop" "a/b %2F") = ["", "shop", "a/b %2F"] := by decide +kernel

end Path

end ModelStore
