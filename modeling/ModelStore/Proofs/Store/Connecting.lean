import ModelStore.Client.Discovery
import ModelStore.Proofs.Store.Calling
import ModelStore.Proofs.Store.Placing
import ModelStore.Proofs.Store.Running
import Mathlib.Data.List.TakeWhile

/-! Connecting to a database. The name is checked as it is written, while every later call encodes
it as one segment. Both go to one place if nothing in the name ends a segment and nothing in it
is an encoded byte; otherwise what is checked is not what is used. -/

namespace ModelStore

open Text

namespace Path

/-- The name stands for itself in a URL: it is one segment, and no byte in it is encoded. -/
def IsLiteral (name : String) : Prop :=
  (∀ c ∈ ['/', '?', '#'], c ∉ name.toList) ∧ ¬HasEscape name.toList

end Path

def Call.database? : Call → Option String
  | find db _ | get db _ | head db _ | insert db _ | delete db _ _ | bulk db _ | listIndexes db
  | createIndex db _ | view db _ _ _ => some db
  | listDatabases | openDatabase _ => none

theorem Call.exists_path {c : Call} {db : String} (h : c.database? = some db) :
    ∃ rest, c.path = Path.base db ++ rest := by
  cases c <;> cases h
  case find query => exact ⟨"/_find", rfl⟩
  case get id => exact ⟨_, String.append_assoc⟩
  case head id => exact ⟨_, String.append_assoc⟩
  case insert doc => exact ⟨"", String.append_empty.symm⟩
  case delete id rev => exact ⟨_, String.append_assoc⟩
  case bulk docs => exact ⟨"/_bulk_docs", rfl⟩
  case listIndexes => exact ⟨"/_index", rfl⟩
  case createIndex body => exact ⟨"/_index", rfl⟩
  case view design name params =>
    refine ⟨"/" ++ (Path.design ((Path.designName? design).getD design) ++
      ("/_view/" ++ Text.encode name)), ?_⟩
    simp [Call.path, Path.view, String.append_assoc]

namespace Request

variable {q : Request} {out : List (List Char)} {e : List Char}

/-- What is read in the path of a request. One without segments is a slash. -/
theorem decoded_path
    (written : q.url.path = encodeKeeping Url.isPathChar (joinChars '/' out.reverse))
    (uncut : ∀ p ∈ out, '/' ∉ p) :
    Path.decoded q.path.toList = [[], []] ∨
      Path.decoded q.path.toList = (out.map decodeChars).reverse := by
  unfold Request.path
  split
  · exact .inl rfl
  · rename_i present
    have some_ : out ≠ [] := by
      rintro rfl
      exact present (written ▸ rfl)
    right
    rw [String.toList_ofList, written, Path.decoded_encodeKeeping,
      Path.decoded_of_segments (by simpa using some_) fun p mem => uncut p (List.mem_reverse.1 mem),
      List.map_reverse]

theorem decoded_path_cons
    (written : q.url.path = encodeKeeping Url.isPathChar (joinChars '/' (e :: out).reverse))
    (uncut : ∀ p ∈ e :: out, '/' ∉ p) (some_ : e ≠ []) :
    Path.decoded q.path.toList = ((e :: out).map decodeChars).reverse := by
  have joined : joinChars '/' (e :: out).reverse ≠ [] := by
    rw [List.reverse_cons]
    by_cases alone : out.reverse = []
    · rw [alone]
      exact some_
    · rw [joinChars_append_singleton alone]
      simp
  have present : q.url.path.isEmpty = false := by
    rw [List.isEmpty_eq_false_iff, written, Ne, encodeKeeping_eq_nil (by decide)]
    exact joined
  rw [Request.path, present, if_neg Bool.false_ne_true, String.toList_ofList, written,
    Path.decoded_encodeKeeping,
    Path.decoded_of_segments (by simp) fun p mem => uncut p (List.mem_reverse.1 mem),
    List.map_reverse]

end Request

namespace Reference

theorem path_ofChars_rooted (cs : List Char) :
    (ofChars ('/' :: cs)).path =
      ((Authority.take ('/' :: cs)).2.takeWhile (· ≠ '#')).takeWhile (· ≠ '?') := by
  rw [ofChars, takeScheme_rooted]
  exact (splitFirst_fst _ _).trans (congrArg _ (splitFirst_fst _ _))

theorem length_lt_of_mem_path {name p : List Char} (divided : ∃ c ∈ ['/', '?', '#'], c ∈ name)
    (mem : p ∈ cutChars '/' (ofChars ('/' :: name)).path) : p.length < name.length := by
  obtain ⟨sign, special, within⟩ := divided
  have present : 0 < name.length := List.length_pos_of_mem within
  rw [path_ofChars_rooted] at mem
  have shorter (cs : List Char) (c d : Char) :
      ((cs.takeWhile (· ≠ c)).takeWhile (· ≠ d)).length ≤ cs.length :=
    ((List.takeWhile_sublist _).trans (List.takeWhile_sublist _)).length_le
  by_cases server : ∃ rest, name = '/' :: rest
  · obtain ⟨rest, rfl⟩ := server
    have left : (Authority.take ('/' :: '/' :: rest)).2.length ≤ rest.length :=
      (List.dropWhile_sublist _).length_le
    have := shorter (Authority.take ('/' :: '/' :: rest)).2 '#' '?'
    rw [List.length_cons]
    rcases eq_or_length_lt_of_mem_cutChars mem with ⟨rfl, -⟩ | less
    · omega
    · omega
  · have alone : Authority.take ('/' :: name) = ([], '/' :: name) := by
      rw [Authority.take]
      rintro rest ⟨⟩
      exact server ⟨rest, rfl⟩
    rw [alone] at mem
    change p ∈ cutChars '/' ('/' :: (name.takeWhile (· ≠ '#')).takeWhile (· ≠ '?')) at mem
    rw [cutChars, if_pos rfl] at mem
    have bound := shorter name '#' '?'
    rcases List.mem_cons.1 mem with rfl | mem
    · exact present
    · rcases eq_or_length_lt_of_mem_cutChars mem with ⟨rfl, single⟩ | less
      · -- Were it all of the name, then nothing in the name would end a segment.
        refine Nat.lt_of_le_of_ne bound fun same => ?_
        have uncut : (name.takeWhile (· ≠ '#')).takeWhile (· ≠ '?') = name :=
          ((List.takeWhile_prefix _).trans (List.takeWhile_prefix _)).eq_of_length same
        have last : sign ∈ (name.takeWhile (· ≠ '#')).takeWhile (· ≠ '?') := uncut.symm ▸ within
        have unasked := List.mem_takeWhile_imp last
        have undivided := List.mem_takeWhile_imp ((List.takeWhile_sublist _).mem last)
        simp only [List.mem_cons, List.not_mem_nil, or_false] at special
        rcases special with rfl | rfl | rfl
        · exact single last
        · exact absurd unasked (by decide)
        · exact absurd undivided (by decide)
      · omega

end Reference

namespace Site

variable {s : Site} {c : Call} {q : Request}

theorem exists_of_request (h : s.request c = .ok q) (plain : c.query? = none) :
    ∃ asked, Url.ofText c.path = .ok asked ∧
      s.base.withTarget (s.base.target ++ asked.target.dropWhile (· = '/')) = .ok q.url := by
  obtain ⟨url, address, sent⟩ := Except.bind_eq_ok.1 h
  obtain ⟨encoded, -, sent⟩ := Except.bind_eq_ok.1 sent
  cases sent
  obtain ⟨asked, read, address⟩ := Except.bind_eq_ok.1 (Except.mapError_eq_ok.1 address)
  obtain ⟨placed, target, same⟩ := Except.bind_eq_ok.1 address
  rw [plain] at same
  cases same
  exact ⟨asked, read, target⟩

theorem path_of_query (h : s.request c = .ok q) (plain : c.query? = none)
    (asked : s.base.query.isSome) (unasked : '?' ∉ s.base.path) :
    q.url.path = encodeKeeping Url.isPathChar (joinChars '/' (s.base.placed
      (if s.base.path.isEmpty then ['/'] else s.base.path)).reverse) := by
  obtain ⟨query, some_⟩ := Option.isSome_iff_exists.1 asked
  obtain ⟨asked, -, target⟩ := exists_of_request h plain
  rw [Url.target, some_, List.append_assoc] at target
  refine Url.path_withTarget_eq ?_ (.inr ⟨_, rfl⟩) target
  split
  · decide
  · exact unasked

theorem path_of_part {front part rest : List Char} {asked : Url} (h : s.request c = .ok q)
    (plain : c.query? = none) (read : Url.ofText c.path = .ok asked)
    (base : s.base.target = front ++ ['/']) (unasked : '?' ∉ front)
    (below : asked.target.dropWhile (· = '/') = part ++ rest) (whole : '?' ∉ part)
    (query : Url.IsAsked rest) :
    q.url.path = encodeKeeping Url.isPathChar (joinChars '/'
      (Url.below s.base.isRelative (s.base.placed front) (cutChars '/' part)).reverse) := by
  obtain ⟨asked', read', target⟩ := exists_of_request h plain
  cases read.symm.trans read'
  rw [base, below, ← List.append_assoc, List.append_assoc front] at target
  have sum : '?' ∉ front ++ (['/'] ++ part) := by
    simp [unasked, whole]
  rw [Url.path_withTarget_eq sum query target, Url.placed, List.singleton_append,
    cutChars_append, Url.below_append]
  rfl

end Site

theorem Url.path_of_closing {u v : Url} {path : List Char} (unasked : '?' ∉ path)
    (h : u.withTarget (path ++ ['/']) = .ok v) :
    v.path = [] ∨ ∃ front, v.path = front ++ ['/'] := by
  have whole : '?' ∉ path ++ ['/'] := by simpa using unasked
  rw [← List.append_nil (path ++ ['/'])] at h
  have written := path_withTarget_eq whole (.inl rfl) h
  have last : u.placed (path ++ ['/']) = [] :: u.placed path := by
    rw [placed, cutChars_append, below_append]
    exact below_singleton (by rintro (same | same) <;> cases same)
  rw [last, List.reverse_cons] at written
  by_cases none_ : (u.placed path).reverse = []
  · rw [none_] at written
    exact .inl written
  · rw [joinChars_append_singleton none_, encodeKeeping_append_slash (by decide) (by decide)]
      at written
    exact .inr ⟨_, written⟩

theorem Url.target_of_unasked {u : Url} (unasked : u.query = none) :
    u.target = if u.path.isEmpty then ['/'] else u.path := by
  rw [target, unasked]
  exact List.append_nil _

theorem Site.exists_front {u base : Url} (h : Site.closed u = .ok base) (whole : '?' ∉ u.path)
    (unasked : base.query = none) : ∃ front, base.target = front ++ ['/'] := by
  rw [Site.closed] at h
  split at h
  · rename_i closed
    cases h
    exact List.getLast?_eq_some_iff.1 closed
  · have path : '?' ∉ if u.path.isEmpty then ['/'] else u.path := by
      split
      · decide
      · exact whole
    obtain ⟨rest, asked, target⟩ := u.exists_target
    rw [target] at h
    rcases asked with rfl | ⟨query, rfl⟩
    · rw [List.append_nil] at h
      rw [Url.target_of_unasked unasked]
      rcases Url.path_of_closing path h with empty | ⟨front, written⟩
      · exact ⟨[], by rw [empty]; rfl⟩
      · exact ⟨front, by simp [written]⟩
    · rw [Url.eq_of_withTarget h, List.append_assoc, List.cons_append,
        splitFirst_append _ path] at unasked
      cases unasked

theorem Settings.exists_front {s : Settings} {site : Site} (reached : s.site = .ok site) :
    '?' ∉ site.base.path ∧ (site.base.query = none →
      ∃ front, site.base.target = front ++ ['/'] ∧ '?' ∉ front) := by
  obtain ⟨server, -, made⟩ := Except.bind_eq_ok.1 reached
  obtain ⟨base, read, same⟩ := Except.bind_eq_ok.1 (Except.mapError_eq_ok.1 made)
  cases same
  obtain ⟨u, read, closed⟩ := Except.bind_eq_ok.1 read
  obtain ⟨v, -, rfl⟩ := Url.exists_of_ofText read
  have plain : '?' ∉ base.path := by
    have first := closed
    rw [Site.closed] at first
    split at first
    · cases first
      exact Url.not_mem_path_of_encoded v
    · rw [Url.eq_of_withTarget first]
      exact Url.not_mem_path_of_encoded _
  refine ⟨plain, fun unasked => ?_⟩
  obtain ⟨front, target⟩ := Site.exists_front closed (Url.not_mem_path_of_encoded v) unasked
  refine ⟨front, target, fun mem => ?_⟩
  have within : '?' ∈ base.target := target ▸ List.mem_append_left _ mem
  rw [Url.target_of_unasked unasked] at within
  split at within
  · exact absurd within (by decide)
  · exact plain within

section Comparison

variable {site : Site} {front name : List Char} {c : Call} {q r : Request}

theorem Url.asked_of_single {s : String} {u : Url} (written : s.toList = '/' :: name)
    (some_ : name ≠ []) (single : ∀ c ∈ ['/', '?', '#'], c ∉ name) (h : ofText s = .ok u) :
    u.target.dropWhile (· = '/') = encodeKeeping isPathChar name := by
  obtain ⟨d, more, rfl⟩ := List.exists_cons_of_ne_nil some_
  have other : d ≠ '/' := fun same => single '/' (by decide) (same ▸ List.mem_cons_self)
  have plain (sign : Char) (special : sign ∈ ['?', '#']) : sign ∉ s.toList := by
    rw [written, List.mem_cons, not_or]
    refine ⟨fun same => ?_, single sign (List.mem_cons_of_mem _ special)⟩
    rw [same] at special
    exact absurd special (by decide)
  have first : encodeKeeping isPathChar (d :: more) = d :: encodeKeeping isPathChar more ∨
      ∃ rest, encodeKeeping isPathChar (d :: more) = '%' :: rest :=
    encodeKeeping_cons (by decide) d more
  rw [ofText_rooted written other (plain '#' (by decide)) (plain '?' (by decide)) h, written,
    encodeKeeping_rooted, List.dropWhile_cons_of_pos (by decide)]
  rcases first with kept | ⟨rest, kept⟩
  · rw [kept, List.dropWhile_cons_of_neg (by simpa using other)]
  · rw [kept, List.dropWhile_cons_of_neg (by decide)]

theorem Site.path_of_single (base : site.base.target = front ++ ['/']) (unasked : '?' ∉ front)
    (h : site.request c = .ok q) (plain : c.query? = none) (written : c.path.toList = '/' :: name)
    (some_ : name ≠ []) (single : ∀ c ∈ ['/', '?', '#'], c ∉ name) :
    q.url.path = encodeKeeping Url.isPathChar (joinChars '/'
      (Url.below site.base.isRelative (site.base.placed front)
        [encodeKeeping Url.isPathChar name]).reverse) := by
  obtain ⟨asked, read, -⟩ := exists_of_request h plain
  have below := Url.asked_of_single written some_ single read
  rw [path_of_part h plain read base unasked (below.trans (List.append_nil _).symm)
    (not_mem_encodeKeeping name) (.inl rfl),
    cutChars_of_not_mem (slash_not_mem_encodeKeeping (single '/' (by decide)))]

theorem Url.not_mem_below {relative : Bool} {out segments : List (List Char)} {p : List Char}
    (before : ∀ p ∈ out, '/' ∉ p) (added : ∀ p ∈ segments, '/' ∉ p)
    (mem : p ∈ below relative out segments) : '/' ∉ p := by
  obtain ⟨news, gone, whole, new⟩ := exists_below relative out segments
  rw [whole] at mem
  rcases List.mem_append.1 mem with mem | mem
  · exact added p (new p mem)
  · exact before p (List.mem_of_mem_drop mem)

theorem Request.decoded_path_ne {relative : Bool} {out segments : List (List Char)} {e : List Char}
    (before : ∀ p ∈ out, '/' ∉ p) (added : ∀ p ∈ segments, '/' ∉ p) (single : '/' ∉ e)
    (asked : r.url.path = encodeKeeping Url.isPathChar
      (joinChars '/' (Url.below relative out segments).reverse))
    (used : q.url.path = encodeKeeping Url.isPathChar (joinChars '/' (e :: out).reverse))
    (some_ : decodeChars e ≠ [])
    (short : ∀ p ∈ segments, (decodeChars p).length < (decodeChars e).length) :
    Path.decoded r.path.toList ≠ Path.decoded q.path.toList := by
  intro same
  have present : e ≠ [] := by
    rintro rfl
    exact some_ rfl
  rw [decoded_path_cons used (List.forall_mem_cons.2 ⟨single, before⟩) present] at same
  rcases decoded_path asked fun p => Url.not_mem_below before added with slash | read
  · -- A path without segments is read as two empty pieces.
    have turned := congrArg List.reverse (slash.symm.trans same)
    rw [List.reverse_reverse] at turned
    exact some_ (List.cons.inj turned).1.symm
  · have turned := List.reverse_inj.1 (read.symm.trans same)
    obtain ⟨news, gone, whole, new⟩ := Url.exists_below relative out segments
    rw [whole] at turned
    cases news with
    | nil =>
      have length := congrArg List.length turned
      simp only [List.nil_append, List.length_map, List.length_drop, List.length_cons] at length
      omega
    | cons p news =>
      have last : decodeChars p = decodeChars e := (List.cons.inj turned).1
      have less := short p (new p List.mem_cons_self)
      rw [last] at less
      omega

theorem Url.isDots_of_encodeKeeping {cs : List Char}
    (dotted : IsDots (encodeKeeping isPathChar cs)) : IsDots cs :=
  dotted.imp (eq_of_encodeKeeping (by decide) (by decide))
    (eq_of_encodeKeeping (by decide) (by decide))

theorem Site.path_insert {db : String} {doc : Fields}
    (base : site.base.target = front ++ ['/']) (unasked : '?' ∉ front) (given : db ≠ "")
    (h : site.request (.insert db doc) = .ok q) :
    q.url.path = encodeKeeping Url.isPathChar (joinChars '/'
      (Url.below site.base.isRelative (site.base.placed front)
        [encodeChars isUnreserved db.toList]).reverse) := by
  have written : (Call.insert db doc).path.toList =
      '/' :: encodeChars isUnreserved db.toList := by
    simp [Call.path, Path.base, encode]
  have single : ∀ c ∈ ['/', '?', '#'], c ∉ encodeChars isUnreserved db.toList :=
    fun c special mem =>
      (plain_of_isEncoded (isEncoded_of_mem mem)).2 (List.mem_cons_of_mem ':' special)
  have same : encodeKeeping Url.isPathChar (encodeChars isUnreserved db.toList) =
      encodeChars isUnreserved db.toList :=
    encodeKeeping_of_kept fun c mem => (plain_of_isEncoded (isEncoded_of_mem mem)).1
  rw [path_of_single base unasked h rfl written (Path.encodeChars_ne_nil given) single, same]

variable {db : String} {doc : Fields}

theorem not_mem_encodeChars (cs : List Char) : '/' ∉ encodeChars isUnreserved cs := fun mem =>
  (plain_of_isEncoded (isEncoded_of_mem mem)).2 (by decide)

theorem Call.path_openDatabase : (openDatabase db).path.toList = '/' :: db.toList := by
  simp [path]

theorem Path.isLiteral_of_dots (dotted : Url.IsDots db.toList) : IsLiteral db := by
  rcases dotted with written | written
  · exact ⟨by simp [written, Url.dot], decodeChars_eq_self_iff.1 (by rw [written]; rfl)⟩
  · exact ⟨by simp [written, Url.dots], decodeChars_eq_self_iff.1 (by rw [written]; rfl)⟩

theorem Site.decoded_of_dots (base : site.base.target = front ++ ['/']) (unasked : '?' ∉ front)
    (given : db ≠ "") (dotted : Url.IsDots db.toList)
    (checked : site.request (.openDatabase db) = .ok r)
    (used : site.request (.insert db doc) = .ok q) :
    Path.decoded r.path.toList = Path.decoded q.path.toList := by
  have some_ : db.toList ≠ [] := by rwa [Ne, String.toList_eq_nil_iff]
  have used := path_insert base unasked given used
  have asked := path_of_single base unasked checked rfl Call.path_openDatabase some_
    (Path.isLiteral_of_dots dotted).1
  have kept : encodeKeeping Url.isPathChar db.toList = encodeChars isUnreserved db.toList := by
    rcases dotted with written | written <;> rw [written] <;> rfl
  rw [Request.path, Request.path, asked, used, kept]

theorem Site.decoded_of_divided (base : site.base.target = front ++ ['/']) (unasked : '?' ∉ front)
    (divided : ∃ c ∈ ['/', '?', '#'], c ∈ db.toList)
    (checked : site.request (.openDatabase db) = .ok r)
    (used : site.request (.insert db doc) = .ok q) :
    Path.decoded r.path.toList ≠ Path.decoded q.path.toList := by
  have some_ : db.toList ≠ [] := by
    obtain ⟨c, -, mem⟩ := divided
    exact List.ne_nil_of_mem mem
  have plain : ¬Url.IsDots (encodeChars isUnreserved db.toList) := by
    rw [Path.isDots_encodeChars, ← Path.isDots_toList]
    intro dotted
    obtain ⟨c, special, mem⟩ := divided
    exact (Path.isLiteral_of_dots dotted).1 c special mem
  have used := path_insert base unasked (by rwa [Ne, ← String.toList_eq_nil_iff]) used
  rw [Url.below_singleton plain] at used
  obtain ⟨asked, read, -⟩ := exists_of_request checked rfl
  obtain ⟨part, rest, below, whole, query, added⟩ := Url.exists_asked read
  have asked := path_of_part checked rfl read base unasked below whole query
  rw [Call.path_openDatabase] at added
  refine Request.decoded_path_ne (fun p => Url.not_mem_placed)
    (fun p => not_mem_of_mem_cutChars) (not_mem_encodeChars _) asked used ?_ ?_
  · rwa [Path.decodeChars_name]
  · intro p mem
    rw [Path.decodeChars_name]
    rcases added p mem with rfl | ⟨s, piece, same⟩
    · exact List.length_pos_iff.2 some_
    · have less := Reference.length_lt_of_mem_path divided piece
      have bound := length_decodeChars_le s
      rw [same]
      omega

theorem Site.decoded_of_single (base : site.base.target = front ++ ['/']) (unasked : '?' ∉ front)
    (given : db ≠ "") (dotless : ¬Url.IsDots db.toList)
    (single : ∀ c ∈ ['/', '?', '#'], c ∉ db.toList)
    (checked : site.request (.openDatabase db) = .ok r)
    (used : site.request (.insert db doc) = .ok q) :
    Path.decoded r.path.toList = Path.decoded q.path.toList ↔ ¬HasEscape db.toList := by
  have some_ : db.toList ≠ [] := by rwa [Ne, String.toList_eq_nil_iff]
  have before : ∀ p ∈ site.base.placed front, '/' ∉ p := fun p => Url.not_mem_placed
  have asked := path_of_single base unasked checked rfl Call.path_openDatabase some_ single
  have used := path_insert base unasked given used
  rw [Url.below_singleton fun dots => dotless (Url.isDots_of_encodeKeeping dots)] at asked
  rw [Url.below_singleton fun dots =>
    dotless (Path.isDots_toList.2 (Path.isDots_encodeChars.1 dots))] at used
  have kept : '/' ∉ encodeKeeping Url.isPathChar db.toList :=
    slash_not_mem_encodeKeeping (single '/' (by decide))
  have present : encodeKeeping Url.isPathChar db.toList ≠ [] := by
    rwa [Ne, encodeKeeping_eq_nil (by decide)]
  have present' := Path.encodeChars_ne_nil given
  rw [Request.decoded_path_cons asked (List.forall_mem_cons.2 ⟨kept, before⟩) present,
    Request.decoded_path_cons used
      (List.forall_mem_cons.2 ⟨not_mem_encodeChars _, before⟩) present', List.reverse_inj,
    List.map_cons, List.map_cons, List.cons.injEq, and_iff_left rfl,
    decodeChars_encodeKeeping (by decide), Path.decodeChars_name, decodeChars_eq_self_iff]

/-- Below a base address without a query, the name of a database is checked where it is used
exactly if it stands for itself. -/
theorem Site.decoded_iff (base : site.base.target = front ++ ['/']) (unasked : '?' ∉ front)
    (given : db ≠ "") (checked : site.request (.openDatabase db) = .ok r)
    (used : site.request (.insert db doc) = .ok q) :
    Path.decoded r.path.toList = Path.decoded q.path.toList ↔ Path.IsLiteral db := by
  by_cases dotted : Url.IsDots db.toList
  · exact iff_of_true (decoded_of_dots base unasked given dotted checked used)
      (Path.isLiteral_of_dots dotted)
  · by_cases divided : ∃ c ∈ ['/', '?', '#'], c ∈ db.toList
    · have apart := decoded_of_divided base unasked divided checked used
      obtain ⟨c, special, mem⟩ := divided
      exact iff_of_false apart fun literal => literal.1 c special mem
    · have single : ∀ c ∈ ['/', '?', '#'], c ∉ db.toList := fun c special mem =>
        divided ⟨c, special, mem⟩
      rw [decoded_of_single base unasked given dotted single checked used]
      exact ⟨fun plain => ⟨single, plain⟩, And.right⟩

end Comparison

namespace Client

variable {c : Client} {site : Site} {db : String} {replies : List Reply} {r q : Request}

theorem connect_eq (reached : c.settings.site = .ok site)
    (named : c.settings.databaseName = .ok db) :
    ∃ go, connect c = .ask (.openDatabase db) go ∧ ∀ x, (go x).Over := by
  obtain ⟨server, address, -⟩ := Except.bind_eq_ok.1 reached
  refine ⟨fun x => .done (.ok ⟨Server.connected server db (.openDatabase db) x, c⟩), ?_,
    fun x => ⟨_, rfl⟩⟩
  show (Action.ofExcept c.settings.databaseName >>= fun db => connectTo (some db)) c = _
  rw [named]
  show (Action.ofExcept c.settings.serverUrl >>= fun server => do
    let _ ← Action.ofExcept c.settings.site
    Action.perform (Server.connect server db)) c = _
  rw [address, reached]
  rfl

/-- What connecting checks is what is used afterwards, as a server reads it, exactly if the name
of the database stands for itself; a query of the base address takes both away. All that is asked
of the database afterwards is below the path of the second request. -/
theorem connect_checks {doc : Fields} (reached : c.settings.site = .ok site)
    (named : c.settings.databaseName = .ok db)
    (checked : r ∈ ((connect c).run c.settings.site replies).requests)
    (used : site.request (.insert db doc) = .ok q) :
    (Path.pieces r.path = Path.pieces q.path ↔
      site.base.query.isSome ∨ Path.IsLiteral db) ∧
    q.call.path = Path.base db ∧
    ∀ call : Call, call.database? = some db → ∃ rest, call.path = Path.base db ++ rest := by
  obtain ⟨go, asks, ends⟩ := connect_eq reached named
  rw [asks, Program.requests_run_ask ends, reached] at checked
  have checked : site.request (.openDatabase db) = .ok r :=
    Except.toOption_eq_some.1 (Option.mem_toList.1 checked)
  have base : q.call.path = Path.base db := by
    obtain ⟨url, -, sent⟩ := Except.bind_eq_ok.1 used
    obtain ⟨encoded, form, sent⟩ := Except.bind_eq_ok.1 sent
    obtain ⟨fields, -, rfl⟩ := Except.map_eq_ok.1 form
    cases sent
    rfl
  refine ⟨?_, base, fun call asked => Call.exists_path asked⟩
  obtain ⟨whole, closed⟩ := Settings.exists_front reached
  rw [Path.pieces_inj]
  cases query : site.base.query with
  | some asked =>
    have some_ : site.base.query.isSome := by rw [query]; rfl
    have same : r.path = q.path := by
      rw [Request.path, Request.path, Site.path_of_query checked rfl some_ whole,
        Site.path_of_query used rfl some_ whole]
    exact iff_of_true (congrArg (fun path => Path.decoded path.toList) same) (.inl rfl)
  | none =>
    obtain ⟨front, target, unasked⟩ := closed query
    rw [Site.decoded_iff target unasked (databaseName_ne_empty named) checked used]
    exact (or_iff_right nofun).symm

theorem connect_checks_shop :
    ∃ c site r q, ofValue (.object [("url", .str "http://db:5984/shop")]) [] = .ok c ∧
      c.settings.site = .ok site ∧ r ∈ ((connect c).run c.settings.site []).requests ∧
      site.request (.insert "shop" []) = .ok q ∧ Path.pieces r.path = Path.pieces q.path := by
  obtain ⟨c, site, r, q, made, reached, named, checked, used⟩ : ∃ c site r q,
      ofValue (.object [("url", .str "http://db:5984/shop")]) [] = .ok c ∧
        c.settings.site = .ok site ∧ c.settings.databaseName = .ok "shop" ∧
        r ∈ ((connect c).run c.settings.site []).requests ∧
        site.request (.insert "shop" []) = .ok q :=
    ⟨_, _, _, _, rfl, rfl, rfl, List.mem_cons_self, rfl⟩
  have literal : Path.IsLiteral "shop" := ⟨by simp, decodeChars_eq_self_iff.1 rfl⟩
  have same := (connect_checks reached named checked used).1.2 (.inr literal)
  exact ⟨c, site, r, q, made, reached, checked, used, same⟩

/-- The name of a database may have a slash. Then a document of another database is checked. -/
theorem connect_checks_document :
    ∃ c site r q, ofValue (.object [("url", .str "http://db:5984"),
        ("database", .str "org/customers")]) [] = .ok c ∧
      c.settings.site = .ok site ∧ c.settings.databaseName = .ok "org/customers" ∧
      r ∈ ((connect c).run c.settings.site []).requests ∧
      site.request (.insert "org/customers" []) = .ok q ∧
      Path.pieces r.path = ["", "org", "customers"] ∧ Path.pieces q.path = ["", "org/customers"] :=
  ⟨_, _, _, _, rfl, rfl, rfl, List.mem_cons_self, rfl, by decide +kernel, by decide +kernel⟩

end Client

end ModelStore
