import ModelStore.Proofs.Json.Encoding
import ModelStore.Proofs.Store.Yielding
import ModelStore.Store.Query

/-! Paged reads against any store that pages faithfully. Such a store answers from the position
of the bookmark, or of the offset where there is none, with at least one document if any
are left and no more than asked for, and with a bookmark for the position after them. Where
a scan stands is told by how many documents it has found. -/

namespace ModelStore

namespace Scan

def position (place : String → Nat) (query : Fields) : Nat :=
  match Entries.get? query "bookmark" with
  | some (.str bookmark) => place bookmark
  | _ =>
    match Entries.get? query "skip" with
    | some (.int n) => n.toNat
    | _ => 0

def most (query : Fields) : Nat :=
  match Entries.get? query "limit" with
  | some (.int n) => n.toNat
  | _ => 0

end Scan

/-- An answer with so many documents from a position on, at most as many as asked for but at
least one if any are left, and with a bookmark. Each bookmark stands for a place among the
documents, so bookmarks of different places differ. -/
structure Faithful (docs : List Value) (place : String → Nat) (pos most count : Nat)
    (a : Answer) : Prop where
  accepted : a.isError = false
  stays : a.redirection? = none
  within : count ≤ docs.length - pos
  asked : count ≤ most
  some_ : pos < docs.length → 0 < most → 0 < count
  body : ∃ fields bookmark, a.body = .ok (.object fields) ∧
    Entries.get? fields "docs" = some (.array ((docs.drop pos).take count)) ∧
    Entries.get? fields "bookmark" = some (.str bookmark) ∧ bookmark ≠ "" ∧
    place bookmark = pos + count

/-- Whether a reply to a query is a faithful page of the documents that match. -/
def Pages (docs : List Value) (place : String → Nat) (r : Request) (reply : Reply) : Prop :=
  ∀ db query, r.call = .find db query → ∃ a count, reply = .answered a ∧
    Faithful docs place (Scan.position place query) (Scan.most query) count a

def tally (n : Nat) : String := String.ofList (List.replicate (n + 1) 'x')

def untally (bookmark : String) : Nat := bookmark.toList.length - 1

/-- A store that hands out at most so many documents at a time. -/
def pager (docs : List Value) (cap : Nat) (r : Request) : Reply :=
  match r.call with
  | .find _ query =>
    let pos := Scan.position untally query
    let count := min (min cap (Scan.most query)) (docs.length - pos)
    .answered ⟨200, none, none, .ok (.object
      [("docs", .array ((docs.drop pos).take count)), ("bookmark", .str (tally (pos + count)))])⟩
  | _ => .failed Program.noReply

theorem pager_pages (docs : List Value) {cap : Nat} (positive : 0 < cap) (r : Request) :
    Pages docs untally r (pager docs cap r) := by
  intro db query find
  have tallied : ∀ n, untally (tally n) = n := fun n => by simp [untally, tally]
  have named : ∀ n, tally n ≠ "" := by
    intro n empty
    have chars := congrArg String.toList empty
    simp [tally] at chars
  rw [pager, find]
  exact ⟨_, _, rfl, rfl, rfl, by omega, by omega, by omega, _, _, rfl, rfl, rfl, named _, tallied _⟩

def window (docs : List Value) (offset : Nat) : Option Nat → List Value
  | some n => (docs.drop offset).take n
  | none => docs.drop offset

namespace Scan

/-- Queries that differ in their paging only. -/
def Alike (a b : Fields) : Prop :=
  ∀ key, key ∉ ["limit", "skip", "bookmark"] → Entries.get? a key = Entries.get? b key

namespace Alike

variable {a b c : Fields}

theorem refl (a : Fields) : Alike a a := fun _ _ => rfl

theorem trans (h : Alike a b) (h' : Alike b c) : Alike a c :=
  fun key other => (h key other).trans (h' key other)

theorem encode (h : Alike a b) {a' b' : Fields} (form : Json.encodeFields a = .ok a')
    (form' : Json.encodeFields b = .ok b') : Alike a' b' := by
  intro key other
  cases here : Entries.get? a key with
  | none =>
    rw [Json.get?_encodeFields_none form here,
      Json.get?_encodeFields_none form' ((h key other).symm.trans here)]
  | some v =>
    obtain ⟨w, coded, there⟩ := Json.get?_encodeFields_some form here
    obtain ⟨w', coded', there'⟩ :=
      Json.get?_encodeFields_some form' ((h key other).symm.trans here)
    cases coded.symm.trans coded'
    rw [there, there']

end Alike

theorem alike_set {a : Fields} {key : String} (v : Value)
    (paging : key ∈ ["limit", "skip", "bookmark"]) : Alike (Entries.set a key v) a := by
  intro k other
  exact Entries.get?_set_ne _ _ fun same => other (same ▸ paging)

theorem alike_erase {a : Fields} {key : String}
    (paging : key ∈ ["limit", "skip", "bookmark"]) : Alike (Entries.erase a key) a := by
  intro k other
  exact Entries.get?_erase_ne _ fun same => other (same ▸ paging)

theorem alike_body (s : Scan) : Alike s.body s.request := alike_set _ (by decide)

theorem alike_turn (s : Scan) (p : Page) : Alike (s.turn p).request s.request :=
  ((alike_erase (by decide)).trans (alike_set _ (by decide))).trans s.alike_body

theorem alike_start (db : String) (query : Fields) (pageSize : Nat) (limit : Option Limit)
    (offset : Value) : Alike (start db query pageSize limit offset).request query := by
  have unmarked : Alike (Entries.erase query "bookmark") query := alike_erase (by decide)
  unfold start
  simp only
  split
  · exact (alike_set _ (by decide)).trans unmarked
  · exact unmarked

/-- A scan that has read the documents after an offset without a gap. -/
structure Stands (docs : List Value) (place : String → Nat) (db : String) (pageSize : Nat)
    (limit : Option Nat) (offset : Nat) (s : Scan) : Prop where
  database : s.database = db
  size : s.pageSize = pageSize
  bound : s.limit = limit.map fun n : Nat => .whole n
  encodable : ∃ coded, Json.encodeFields s.request = .ok coded ∧
    position place coded = offset + s.found.length
  found : s.found = (docs.drop offset).take s.found.length
  fits : ∀ n, limit = some n → s.found.length ≤ n
  last : s.bookmark = .null ∨ ∃ b, s.bookmark = .str b ∧ place b = offset + s.found.length

variable {docs : List Value} {place : String → Nat} {db : String} {pageSize offset : Nat}
  {limit : Option Nat} {s : Scan}

def wanted (pageSize : Nat) (limit : Option Nat) (found : Nat) : Nat :=
  match limit with
  | some n => min pageSize (n - found)
  | none => pageSize

theorem isMet_of_bound (bound : s.limit = limit.map fun n : Nat => .whole n) :
    s.isMet = limit.any fun n => n ≤ s.found.length := by
  rw [isMet, bound]
  cases limit with
  | none => rfl
  | some n =>
    simp only [Option.map_some, Option.any_some, Limit.less, Limit.isMet]
    congr 1
    simp only [eq_iff_iff]
    omega

theorem isMet_eq (h : Stands docs place db pageSize limit offset s) :
    s.isMet = limit.any fun n => n ≤ s.found.length :=
  isMet_of_bound h.bound

theorem pageLimit_of_bound (bound : s.limit = limit.map fun n : Nat => .whole n)
    (fits : ∀ n, limit = some n → s.found.length ≤ n) :
    s.pageLimit = .int (wanted s.pageSize limit s.found.length) := by
  rw [pageLimit, bound]
  cases limit with
  | none => rfl
  | some n =>
    have fits : s.found.length ≤ n := fits n rfl
    have left : (n : Int) - s.found.length = (n - s.found.length : Nat) := by omega
    simp only [Option.map_some, Limit.less, Limit.below, Limit.toValue, wanted, left]
    by_cases small : n - s.found.length < s.pageSize
    · have whole : min s.pageSize (n - s.found.length) = n - s.found.length := by omega
      simp [small, whole]
    · have whole : min s.pageSize (n - s.found.length) = s.pageSize := by omega
      simp [small, whole]

theorem pageLimit_eq (h : Stands docs place db pageSize limit offset s) :
    s.pageLimit = .int (wanted pageSize limit s.found.length) :=
  h.size ▸ pageLimit_of_bound h.bound h.fits

theorem wanted_pos (positive : 0 < pageSize)
    (h : (limit.any fun n => n ≤ s.found.length) = false) :
    0 < wanted pageSize limit s.found.length := by
  cases limit with
  | none => exact positive
  | some n =>
    have more : s.found.length < n := by simpa using h
    rw [wanted]
    omega

theorem next_eq (h : Stands docs place db pageSize limit offset s) :
    s.next = if limit.any fun n => n ≤ s.found.length then .ended (.ok s.found)
      else .ask (Call.find db s.body) := by
  rw [next, isMet_eq h, h.database]

theorem encode_body (h : Stands docs place db pageSize limit offset s) :
    ∃ coded, Json.encodeFields s.body = .ok coded ∧
      position place coded = offset + s.found.length ∧
      most coded = wanted pageSize limit s.found.length := by
  obtain ⟨coded, form, here⟩ := h.encodable
  have number : Json.encode s.pageLimit =
      .ok (.int (wanted pageSize limit s.found.length)) := by
    rw [pageLimit_eq h]
    rfl
  refine ⟨_, Json.encodeFields_set form number, ?_, ?_⟩
  · rw [position, Entries.get?_set_ne _ _ (by decide), Entries.get?_set_ne _ _ (by decide)]
    exact here
  · rw [most, Entries.get?_set_self]
    simp

theorem found_append (h : Stands docs place db pageSize limit offset s) (count : Nat) :
    s.found ++ (docs.drop (offset + s.found.length)).take count =
      (docs.drop offset).take (s.found.length + count) := by
  rw [List.take_add, ← List.drop_drop, ← h.found]

theorem receive_eq (h : Stands docs place db pageSize limit offset s) (c : Call)
    (path : String) {a : Answer} {most count : Nat}
    (faithful : Faithful docs place (offset + s.found.length) most count a) :
    ∃ bookmark, bookmark ≠ "" ∧ place bookmark = offset + s.found.length + count ∧
      s.receive c (.answered path a) =
        if count = 0 then .inl (.ok s.found)
        else .inr (s.turn ⟨(docs.drop (offset + s.found.length)).take count, .str bookmark⟩) := by
  obtain ⟨fields, bookmark, body, page, mark, named, next⟩ := faithful.body
  refine ⟨bookmark, named, next, ?_⟩
  have value : Exchange.value c (.answered path a) = .ok (.object fields) := by
    simp [Exchange.value, Exchange.accepted, faithful.accepted, body, bind, Except.bind]
  have got : s.page (.object fields) =
      .ok ⟨(docs.drop (offset + s.found.length)).take count, .str bookmark⟩ := by
    simp only [Scan.page, page, mark, Value.ofOption]
  have taken : ((docs.drop (offset + s.found.length)).take count).length = count := by
    have within := faithful.within
    simp only [List.length_take, List.length_drop]
    omega
  have settled : (Exchange.value c (.answered path a)).bind s.page =
      .ok ⟨(docs.drop (offset + s.found.length)).take count, .str bookmark⟩ := by
    rw [value]
    exact got
  rw [receive, settled]
  by_cases empty : count = 0
  · subst empty
    simp [isLast]
  · have some_ : ((docs.drop (offset + s.found.length)).take count).isEmpty = false := by
      rw [List.isEmpty_eq_false_iff, ← List.length_pos_iff, taken]
      omega
    have fresh : (Value.str bookmark).same s.bookmark = false := by
      rcases h.last with none_ | ⟨b, same, before⟩
      · rw [none_]
        rfl
      · rw [same, Value.same_str, beq_eq_false_iff_ne]
        rintro rfl
        omega
    simp [isLast, some_, fresh, named, Value.truthy, empty]

theorem stands_turn (h : Stands docs place db pageSize limit offset s) {bookmark : String}
    {count : Nat} (within : count ≤ docs.length - (offset + s.found.length))
    (asked : count ≤ wanted pageSize limit s.found.length)
    (next : place bookmark = offset + s.found.length + count) :
    Stands docs place db pageSize limit offset
      (s.turn ⟨(docs.drop (offset + s.found.length)).take count, .str bookmark⟩) := by
  obtain ⟨coded, form, -, -⟩ := encode_body h
  have size : (s.turn ⟨(docs.drop (offset + s.found.length)).take count,
      .str bookmark⟩).found.length = s.found.length + count := by
    simp only [turn, List.length_append, List.length_take, List.length_drop]
    omega
  have marked :
      position place (Entries.erase (Entries.set coded "bookmark" (.str bookmark)) "skip") =
        place bookmark := by
    rw [position, Entries.get?_erase_ne _ (by decide), Entries.get?_set_self]
  refine ⟨h.database, h.size, h.bound, ?_, ?_, ?_, ?_⟩
  · refine ⟨_, Json.encodeFields_erase (Json.encodeFields_set form rfl), ?_⟩
    rw [marked, size, next]
    omega
  · rw [size]
    exact found_append h count
  · rintro n rfl
    have fits : s.found.length ≤ n := h.fits n rfl
    rw [wanted] at asked
    rw [size]
    omega
  · refine .inr ⟨bookmark, rfl, ?_⟩
    rw [size, next]
    omega

theorem found_eq_window (h : Stands docs place db pageSize limit offset s)
    (done : (limit.any fun n => n ≤ s.found.length) = true ∨
      docs.length ≤ offset + s.found.length) :
    s.found = window docs offset limit := by
  have found := h.found
  cases limit with
  | none =>
    have past : docs.length ≤ offset + s.found.length := by simpa using done
    have short : (docs.drop offset).length ≤ s.found.length := by
      rw [List.length_drop]
      omega
    rw [window, found, List.take_of_length_le short]
  | some n =>
    have fits : s.found.length ≤ n := h.fits n rfl
    rw [window]
    rcases done with met | ended
    · have met : n ≤ s.found.length := by simpa using met
      have exact_ : s.found.length = n := by omega
      rw [← exact_]
      exact found
    · have short : (docs.drop offset).length ≤ s.found.length := by
        rw [List.length_drop]
        omega
      rw [found, List.take_of_length_le short, List.take_of_length_le (by omega)]

theorem eq_window_of_ended (h : Stands docs place db pageSize limit offset s)
    {found : List Value} (ended : s.next = .ended (.ok found)) :
    found = window docs offset limit := by
  rw [next_eq h] at ended
  split at ended
  · rename_i met
    cases ended
    exact found_eq_window h (.inl met)
  · cases ended

theorem more_of_ask (h : Stands docs place db pageSize limit offset s) {c : Call}
    (asks : s.next = .ask c) :
    (limit.any fun n => n ≤ s.found.length) = false ∧ c = .find db s.body := by
  rw [next_eq h] at asks
  split at asks
  · cases asks
  · rename_i unmet
    cases asks
    exact ⟨by simpa using unmet, rfl⟩

variable {site : Site} {url : Url}

theorem request_eq (reached : site.address (.find db []) = .ok url) {query coded : Fields}
    (form : Json.encodeFields query = .ok coded) :
    (Except.ok site : Except Fault Site).bind (·.request (.find db query)) =
      .ok ⟨.find db coded, url⟩ := by
  have encoded : (Call.find db query).encode = .ok (.find db coded) := by
    simp [Call.encode, Call.encodeFields, form, Except.map]
  have address : site.address (.find db query) = .ok url := reached
  simp [Except.bind, Site.request, address, encoded, bind]

/-- A faithful page ends a scan at the window, or takes it further on. -/
theorem receive_cases (positive : 0 < pageSize)
    (h : Stands docs place db pageSize limit offset s)
    (more : (limit.any fun n => n ≤ s.found.length) = false) (c : Call) (path : String)
    {a : Answer} {count : Nat} (faithful : Faithful docs place (offset + s.found.length)
      (wanted pageSize limit s.found.length) count a) :
    s.receive c (.answered path a) = .inl (.ok (window docs offset limit)) ∨
      ∃ p, s.receive c (.answered path a) = .inr (s.turn p) ∧
        Stands docs place db pageSize limit offset (s.turn p) ∧
        docs.length - (offset + (s.turn p).found.length) <
          docs.length - (offset + s.found.length) := by
  obtain ⟨bookmark, -, next, received⟩ := receive_eq h c path faithful
  have within := faithful.within
  by_cases empty : count = 0
  · have past : docs.length ≤ offset + s.found.length := by
      have wanting := wanted_pos positive more
      have some_ := faithful.some_
      omega
    rw [if_pos empty, found_eq_window h (.inr past)] at received
    exact .inl received
  · rw [if_neg empty] at received
    refine .inr ⟨_, received, stands_turn h within faithful.asked next, ?_⟩
    simp only [turn, List.length_append, List.length_take, List.length_drop]
    omega

/-- From any place a scan goes on to the end of the window, page by page, if the queries that
only differ in their paging from a given one are answered faithfully. -/
theorem yields_alike {answers : Request → Reply → Prop} (base : Fields)
    (pages : ∀ query reply, Alike query base → answers ⟨.find db query, url⟩ reply →
      Pages docs place ⟨.find db query, url⟩ reply)
    (positive : 0 < pageSize) (reached : site.address (.find db []) = .ok url)
    (typed : url.isTyped = true) (left : Nat) (s : Scan)
    (h : Stands docs place db pageSize limit offset s)
    (alike : ∀ coded, Json.encodeFields s.request = .ok coded → Alike coded base)
    (rest : docs.length - (offset + s.found.length) = left) :
    (Program.scan s .done).Yields (.ok site) answers (· = .ok (window docs offset limit)) := by
  induction left using Nat.strongRecOn generalizing s with
  | ind left ih =>
    have step := next_eq h
    cases met : limit.any fun n => n ≤ s.found.length with
    | true =>
      rw [met, if_pos rfl] at step
      have ends : (Program.scan s .done).settle (.ok site) = ([], .finished (.ok s.found)) := by
        simp [Program.settle, step]
      exact .finished ends (congrArg Except.ok (found_eq_window h (.inl met)))
    | false =>
      rw [met, if_neg Bool.false_ne_true] at step
      obtain ⟨request, given, -⟩ := h.encodable
      obtain ⟨coded, form, from_, upTo⟩ := encode_body h
      have asked : Alike coded base :=
        ((alike_body s).encode form given).trans (alike request given)
      have sends : (Program.scan s .done).settle (.ok site) = ([], .sending ⟨.find db coded, url⟩
          fun reply => Program.afterPage s (.find db s.body) .done
            (Request.exchange ⟨.find db coded, url⟩ reply)) := by
        simp [Program.settle, step, request_eq reached form]
      refine .sending sends fun reply keeps => ?_
      obtain ⟨a, count, rfl, faithful⟩ := pages coded reply asked keeps db coded rfl
      rw [from_, upTo] at faithful
      have arrived : Request.exchange ⟨.find db coded, url⟩ (.answered a) =
          .answered (Request.shownPath ⟨.find db coded, url⟩) a := by
        simp [Request.exchange, typed, faithful.stays]
      rw [arrived, Program.afterPage]
      rcases receive_cases positive h met (.find db s.body)
        (Request.shownPath ⟨.find db coded, url⟩) faithful with ended | ⟨p, goes, stands, fewer⟩
      · rw [ended]
        exact .finished rfl rfl
      · rw [goes]
        refine ih _ (rest ▸ fewer) _ stands (fun next form' => ?_) rfl
        exact ((alike_turn s p).encode form' given).trans (alike request given)

theorem yields_window (positive : 0 < pageSize) (reached : site.address (.find db []) = .ok url)
    (typed : url.isTyped = true) (left : Nat) (s : Scan)
    (h : Stands docs place db pageSize limit offset s)
    (rest : docs.length - (offset + s.found.length) = left) :
    (Program.scan s .done).Yields (.ok site) (Pages docs place)
      (· = .ok (window docs offset limit)) := by
  obtain ⟨base, given, -⟩ := h.encodable
  refine yields_alike base (fun _ _ _ keeps => keeps) positive reached typed left s h
    (fun coded form => ?_) rest
  cases given.symm.trans form
  exact .refl _

theorem stands_start (docs : List Value) (place : String → Nat) (limit : Option Nat)
    (offset : Option Nat) {body coded : Fields} (form : Json.encodeFields body = .ok coded)
    (unskipped : Entries.get? body "skip" = none) :
    Stands docs place db pageSize limit (offset.getD 0)
      (Scan.start db body pageSize (limit.map fun n : Nat => .whole n)
        (Value.ofOption (offset.map fun n : Nat => .int n))) := by
  have erased : Json.encodeFields (Entries.erase body "bookmark") =
      .ok (Entries.erase coded "bookmark") := Json.encodeFields_erase form
  have unmarked : Entries.get? (Entries.erase coded "bookmark") "bookmark" = none :=
    Entries.get?_erase_self _ _
  refine ⟨rfl, rfl, rfl, ?_, rfl, fun n _ => Nat.zero_le n, .inl rfl⟩
  by_cases skips : (Value.ofOption (offset.map fun n : Nat => .int n)).truthy
  · cases offset with
    | none => cases skips
    | some n =>
      refine ⟨Entries.set (Entries.erase coded "bookmark") "skip" (.int n), ?_, ?_⟩
      · rw [Scan.start, if_pos skips]
        exact Json.encodeFields_set erased rfl
      · rw [position, Entries.get?_set_ne _ _ (by decide), unmarked, Entries.get?_set_self]
        rfl
  · refine ⟨Entries.erase coded "bookmark", ?_, ?_⟩
    · rw [Scan.start, if_neg skips]
      exact erased
    · have absent : Entries.get? coded "skip" = none := Json.get?_encodeFields_none form unskipped
      have origin : offset.getD 0 = 0 := by
        cases offset with
        | none => rfl
        | some n => simpa [Value.ofOption, Value.truthy] using skips
      rw [position, unmarked, Entries.get?_erase_ne _ (by decide), absent, origin]
      rfl

end Scan

namespace Query

def Window.ofNat (pageSize : Nat) (limit offset : Option Nat) : Window :=
  ⟨pageSize, Value.ofOption (limit.map fun n : Nat => .int n),
    Value.ofOption (offset.map fun n : Nat => .int n)⟩

/-- On every store that pages faithfully a query finds the documents between its offset and
its limit, each once and in order, and it comes to an end. -/
theorem fetch_window (db : String) {pageSize : Nat} (positive : 0 < pageSize)
    (limit offset : Option Nat) {body coded : Fields}
    (form : Json.encodeFields body = .ok coded) (unskipped : Entries.get? body "skip" = none)
    {site : Site} {url : Url} (reached : site.address (.find db []) = .ok url)
    (typed : url.isTyped = true) (docs : List Value) (place : String → Nat) :
    (fetch db (.ofNat pageSize limit offset) false body).Yields (.ok site) (Pages docs place)
      (· = .ok (window docs (offset.getD 0) limit)) := by
  have bound : (Window.ofNat pageSize limit offset).limit? =
      .ok (limit.map fun n : Nat => .whole n) := by
    cases limit <;> rfl
  have scanned : fetch db (.ofNat pageSize limit offset) false body =
      .scan (Scan.start db body pageSize (limit.map fun n : Nat => .whole n)
        (Value.ofOption (offset.map fun n : Nat => .int n))) .done := by
    rw [fetch, bound]
    show Program.scan _ _ = _
    congr 1
    funext r
    cases r <;> rfl
  rw [scanned]
  exact Scan.yields_window positive reached typed _ _
    (Scan.stands_start docs place limit offset form unskipped) rfl

theorem fetch_window_shop :
    let docs : List Value := [.int 0, .int 1, .int 2, .int 3, .int 4]
    let query := fetch "shop" (.ofNat 2 (some 3) (some 1)) false (ofSelector []).body
    let serve := fun (_ : Unit) r => (pager docs 1 r, ())
    ∃ site url n, Site.ofText "http://db:5984" none = .ok site ∧
      site.address (.find "shop" []) = .ok url ∧
      (query.run (.ok site) (query.replies (.ok site) serve n ())).result =
        .ok [.int 1, .int 2, .int 3] := by
  intro docs query serve
  obtain ⟨site, url, named, reached, typed⟩ : ∃ site url,
      Site.ofText "http://db:5984" none = .ok site ∧
        site.address (.find "shop" []) = .ok url ∧ url.isTyped = true := ⟨_, _, rfl, rfl, rfl⟩
  have form : Json.encodeFields (ofSelector []).body = .ok [("selector", .object [])] := rfl
  have positive : 0 < 2 := by decide
  have ends := fetch_window "shop" positive (some 3) (some 1) form rfl reached typed docs untally
  have keeps : ∀ s r, Pages docs untally r (serve s r).1 :=
    fun _ r => pager_pages docs (by decide) r
  obtain ⟨n, result, -⟩ := ends.run keeps ()
  exact ⟨site, url, n, named, reached, result⟩

end Query

end ModelStore
