import ModelStore.Proofs.Store.Paging
import ModelStore.Proofs.Store.Projecting

/-! What a scan asks of a store that may answer anything. Every request is told by the pages that
came before it: it repeats the query, goes on from the last bookmark and asks for no more than is
left of the limit. A scan goes on only after a page with documents, so the limit bounds its
requests whatever the bookmarks are. -/

namespace ModelStore

theorem Program.requests_run_bind_over {α β : Type} {p : Program α} {f : α → Program β}
    (site : Except Fault Site) (ends : ∀ a, (f a).Over) (replies : List Reply) :
    ((p >>= f).run site replies).requests = (p.run site replies).requests := by
  obtain ⟨later, whole⟩ := requests_run_bind site p f replies
  rw [whole]
  cases (p.run site replies).result with
  | error _ => exact List.append_nil _
  | ok a => exact (congrArg (_ ++ ·) ((ends a).requests_run later)).trans (List.append_nil _)

namespace Scan

structure Terms where
  database : String
  query : Fields
  pageSize : Nat
  limit : Option Nat
  offset : Value

def received (pages : List Page) : Nat := (pages.flatMap Page.docs).length

@[simp] theorem received_nil : received [] = 0 := rfl

theorem received_append (pages : List Page) (p : Page) :
    received (pages ++ [p]) = received pages + p.docs.length := by
  simp [received]

def Brings (q : Request) (reply : Reply) (p : Page) : Prop :=
  ∃ path a fields, q.exchange reply = .answered path a ∧ a.isError = false ∧
    a.body = .ok (.object fields) ∧ Entries.get? fields "docs" = some (.array p.docs) ∧
    p.bookmark = Value.ofOption (Entries.get? fields "bookmark")

/-- Whether a scan goes on after a page that has come after others. -/
structure GoesOn (pages : List Page) (p : Page) : Prop where
  filled : p.docs ≠ []
  marked : p.bookmark.truthy = true
  moved : ∀ last, pages.getLast? = some last → p.bookmark.same last.bookmark = false

namespace Terms

/-- Where the first request begins: at the offset, or where the query itself begins. -/
def skip? (t : Terms) : Option Value :=
  if t.offset.truthy then some t.offset else Entries.get? t.query "skip"

/-- The request for the page after some pages, by the fields of its body. -/
structure Asks (t : Terms) (pages : List Page) (body : Fields) : Prop where
  repeats : ∀ key, key ∉ ["limit", "skip", "bookmark"] →
    Json.Sends (Entries.get? t.query key) (Entries.get? body key)
  skips : pages = [] → Json.Sends t.skip? (Entries.get? body "skip")
  unskipped : pages ≠ [] → Entries.get? body "skip" = none
  bookmark : Json.Sends (pages.getLast?.map Page.bookmark) (Entries.get? body "bookmark")
  limit : Entries.get? body "limit" = some (.int (wanted t.pageSize t.limit (received pages)))
  positive : 1 ≤ wanted t.pageSize t.limit (received pages)

/-- The requests of a scan that has read some pages, and the replies to them. Each but the last
brought a page after which the scan goes on. -/
inductive Traced (t : Terms) : List Page → List Request → List Reply → Prop where
  | silent {pages : List Page} {replies : List Reply} : Traced t pages [] replies
  | last {pages : List Page} {q : Request} {body : Fields} {replies : List Reply}
      (call : q.call = .find t.database body) (asks : t.Asks pages body) :
      Traced t pages [q] replies
  | page {pages : List Page} {q : Request} {body : Fields} {reply : Reply} {p : Page}
      {qs : List Request} {replies : List Reply} (call : q.call = .find t.database body)
      (asks : t.Asks pages body) (brings : Brings q reply p) (on : GoesOn pages p)
      (rest : Traced t (pages ++ [p]) qs replies) : Traced t pages (q :: qs) (reply :: replies)

variable {t : Terms} {pages : List Page}

theorem Asks.received_lt {body : Fields} {n : Nat} (asks : t.Asks pages body)
    (bound : t.limit = some n) : received pages < n := by
  have positive := asks.positive
  rw [bound, wanted] at positive
  omega

theorem Traced.length_le {qs : List Request} {replies : List Reply} {n : Nat}
    (traced : t.Traced pages qs replies) (bound : t.limit = some n) (some_ : qs ≠ []) :
    received pages + qs.length ≤ n := by
  induction traced with
  | silent => exact absurd rfl some_
  | last call asks =>
    have room := asks.received_lt bound
    rw [List.length_singleton]
    omega
  | @page pages q body reply p qs replies call asks brings on rest ih =>
    have room := asks.received_lt bound
    have one : 0 < p.docs.length := List.length_pos_iff.2 on.filled
    rw [received_append] at ih
    rw [List.length_cons]
    by_cases none_ : qs = []
    · subst none_
      rw [List.length_nil]
      omega
    · have later := ih none_
      omega

/-- A scan that has read some pages. -/
structure Holds (t : Terms) (pages : List Page) (s : Scan) : Prop where
  database : s.database = t.database
  size : s.pageSize = t.pageSize
  bound : s.limit = t.limit.map fun n : Nat => .whole n
  found : s.found.length = received pages
  alike : Alike s.request t.query
  skips : pages = [] → Entries.get? s.request "skip" = t.skip?
  unskipped : pages ≠ [] → Entries.get? s.request "skip" = none
  marked : Entries.get? s.request "bookmark" = pages.getLast?.map Page.bookmark
  last : s.bookmark = Value.ofOption (pages.getLast?.map Page.bookmark)

variable {s : Scan}

def scan (t : Terms) : Scan :=
  start t.database t.query t.pageSize (t.limit.map fun n : Nat => .whole n) t.offset

theorem holds_scan (t : Terms) : t.Holds [] t.scan where
  database := rfl
  size := rfl
  bound := rfl
  found := rfl
  alike := alike_start _ _ _ _ _
  skips _ := by
    show Entries.get? (if t.offset.truthy then _ else _) "skip" = _
    unfold skip?
    split
    · exact Entries.get?_set_self _ _ _
    · exact Entries.get?_erase_ne _ (by decide)
  unskipped some_ := absurd rfl some_
  marked := by
    show Entries.get? (if t.offset.truthy then _ else _) "bookmark" = none
    split
    · rw [Entries.get?_set_ne _ _ (by decide), Entries.get?_erase_self]
    · exact Entries.get?_erase_self _ _
  last := rfl

theorem Holds.pageLimit_eq (holds : t.Holds pages s) (positive : 0 < t.pageSize)
    (unmet : s.isMet = false) :
    s.pageLimit = .int (wanted t.pageSize t.limit (received pages)) ∧
      1 ≤ wanted t.pageSize t.limit (received pages) := by
  rw [isMet_of_bound holds.bound] at unmet
  have fits : ∀ n, t.limit = some n → s.found.length ≤ n := by
    rintro n bound
    rw [bound, Option.any_some, decide_eq_false_iff_not] at unmet
    omega
  rw [← holds.size, ← holds.found]
  exact ⟨pageLimit_of_bound holds.bound fits, wanted_pos (holds.size ▸ positive) unmet⟩

theorem Holds.asks (holds : t.Holds pages s) (positive : 0 < t.pageSize)
    {site : Except Fault Site} {c : Call} {q : Request} (next : s.next = .ask c)
    (sent : site.bind (·.request c) = .ok q) :
    ∃ body, q.call = .find t.database body ∧ t.Asks pages body := by
  have unmet : s.isMet = false := by
    unfold Scan.next at next
    split at next
    · cases next
    · rename_i unmet
      exact Bool.eq_false_iff.2 unmet
  obtain ⟨limit, least⟩ := holds.pageLimit_eq positive unmet
  obtain ⟨site, -, sent⟩ := Except.bind_eq_ok.1 sent
  have form := Site.request_ok sent
  rw [next_ask next] at form
  obtain ⟨body, encoded, call⟩ := Except.map_eq_ok.1 form
  have sends := Json.sends_of_encodeFields (Except.mapError_eq_ok.1 encoded)
  refine ⟨body, holds.database ▸ call.symm, ?_⟩
  have same : ∀ key, "limit" ≠ key → Entries.get? s.body key = Entries.get? s.request key :=
    fun key other => Entries.get?_set_ne _ _ other
  constructor
  · intro key other
    have unlimited : "limit" ≠ key := by
      rintro rfl
      exact other List.mem_cons_self
    rw [← holds.alike key other, ← same key unlimited]
    exact sends key
  · intro none_
    rw [← holds.skips none_, ← same "skip" (by decide)]
    exact sends "skip"
  · intro some_
    have skip := sends "skip"
    rw [same "skip" (by decide), holds.unskipped some_] at skip
    exact Json.Sends.eq_none skip
  · rw [← holds.marked, ← same "bookmark" (by decide)]
    exact sends "bookmark"
  · have left := sends "limit"
    rw [Scan.body, Entries.get?_set_self, limit] at left
    exact Json.Sends.eq_int left
  · exact least

theorem Holds.turn (holds : t.Holds pages s) {p : Page} (more : s.isLast p = false) :
    GoesOn pages p ∧ t.Holds (pages ++ [p]) (s.turn p) := by
  simp only [isLast, Bool.or_eq_false_iff, Bool.not_eq_false'] at more
  obtain ⟨⟨filled, marked⟩, moved⟩ := more
  have on : GoesOn pages p := by
    refine ⟨by simpa using filled, marked, fun last newest => ?_⟩
    rwa [holds.last, newest] at moved
  have newest : (pages ++ [p]).getLast?.map Page.bookmark = some p.bookmark := by simp
  refine ⟨on, holds.database, holds.size, holds.bound, ?_, (alike_turn s p).trans holds.alike,
    fun none_ => ?_, fun _ => Entries.get?_erase_self _ _, ?_, ?_⟩
  · rw [received_append, ← holds.found]
    exact List.length_append
  · simp at none_
  · rw [newest]
    exact (Entries.get?_erase_ne _ (by decide)).trans (Entries.get?_set_self _ _ _)
  · rw [newest]
    rfl

end Terms

theorem exists_page_of_receive {s next : Scan} {q : Request} {reply : Reply} {c : Call}
    (received : s.receive c (q.exchange reply) = .inr next) :
    ∃ p, Brings q reply p ∧ s.isLast p = false ∧ next = s.turn p := by
  unfold receive at received
  split at received
  · cases received
  · rename_i p read
    split at received
    · cases received
    · rename_i more
      cases received
      obtain ⟨v, value, page⟩ := Except.bind_eq_ok.1 read
      obtain ⟨path, a, answered, sound, body⟩ := Exchange.value_eq_ok value
      obtain ⟨fields, docs, rfl, found, rfl⟩ := page_eq_ok_iff.1 page
      exact ⟨_, ⟨path, a, fields, answered, sound, body, found, rfl⟩,
        Bool.eq_false_iff.2 more, rfl⟩

namespace Terms

variable {t : Terms} {pages : List Page} {s : Scan}

/-- The requests of a scan, whatever it is answered. -/
theorem Holds.traced (holds : t.Holds pages s) (positive : 0 < t.pageSize)
    (site : Except Fault Site) (replies : List Reply) :
    t.Traced pages ((Program.scan s .done).run site replies).requests replies := by
  induction replies generalizing pages s with
  | nil =>
    rw [Program.run, Program.unanswered]
    cases next : s.next with
    | ended r => exact .silent
    | ask c =>
      simp only
      cases sent : site.bind (·.request c) with
      | error f => exact .silent
      | ok q =>
        obtain ⟨body, call, asks⟩ := holds.asks positive next sent
        exact .last call asks
  | cons reply rest ih =>
    rcases Program.settle_scan site s .done with
      ⟨r, -, settled⟩ | ⟨_, f, -, -, settled⟩ | ⟨c, q, next, sent, settled⟩
    · rw [Program.run, settled]
      exact .silent
    · rw [Program.run, settled]
      exact .silent
    · obtain ⟨body, call, asks⟩ := holds.asks positive next sent
      rw [Program.run_sending settled, Program.afterPage]
      cases received : s.receive c (q.exchange reply) with
      | inl found =>
        have ended : (Program.done found).Over := ⟨found, rfl⟩
        show t.Traced pages (q :: _) _
        rw [ended.requests_run]
        exact .last call asks
      | inr turned =>
        obtain ⟨p, brings, more, rfl⟩ := exists_page_of_receive received
        obtain ⟨on, holds'⟩ := holds.turn more
        exact .page call asks brings on (ih holds')

/-- A scan with a limit comes to an end, also where the bookmarks go round. -/
theorem Holds.yields {n : Nat} (holds : t.Holds pages s) (positive : 0 < t.pageSize)
    (bound : t.limit = some n) (site : Except Fault Site) :
    (Program.scan s .done).Yields site (fun _ _ => True) fun _ => True := by
  -- Each page on the way takes something off what is left of the limit.
  induction left : n - received pages using Nat.strongRecOn generalizing pages s with
  | ind left ih =>
    subst left
    rcases Program.settle_scan site s .done with
      ⟨r, -, settled⟩ | ⟨_, f, -, -, settled⟩ | ⟨c, q, next, sent, settled⟩
    · exact .finished settled trivial
    · exact .finished settled trivial
    · obtain ⟨body, -, asks⟩ := holds.asks positive next sent
      refine .sending settled fun reply _ => ?_
      unfold Program.afterPage
      cases received : s.receive c (q.exchange reply) with
      | inl found => exact .finished rfl trivial
      | inr turned =>
        obtain ⟨p, -, more, rfl⟩ := exists_page_of_receive received
        obtain ⟨on, holds'⟩ := holds.turn more
        have some_ : 0 < p.docs.length := List.length_pos_iff.2 on.filled
        have room := asks.received_lt bound
        refine ih _ ?_ holds' rfl
        rw [received_append]
        omega

end Terms

end Scan

namespace Query

open Scan (Terms)

def Window.ofTerms (t : Terms) : Window :=
  ⟨t.pageSize, Value.ofOption (t.limit.map fun n : Nat => .int n), t.offset⟩

theorem fetch_eq (t : Terms) (numericId : Bool) :
    fetch t.database (.ofTerms t) numericId t.query =
      (Program.find t.scan >>= fun docs =>
        let sort := Value.ofOption (Entries.get? t.query "sort")
        if numericId && sort.truthy then Program.ofExcept (IdOrder.resort docs sort)
        else pure docs) := by
  have bound : (Window.ofTerms t).limit? = .ok (t.limit.map fun n : Nat => .whole n) := by
    unfold Window.ofTerms
    cases t.limit <;> rfl
  rw [fetch, bound]
  rfl

theorem requests_fetch (t : Terms) (numericId : Bool) (site : Except Fault Site)
    (replies : List Reply) :
    ((fetch t.database (.ofTerms t) numericId t.query).run site replies).requests =
      ((Program.find t.scan).run site replies).requests := by
  rw [fetch_eq]
  refine Program.requests_run_bind_over site (fun docs => ?_) replies
  simp only
  split <;> exact ⟨_, rfl⟩

/-- The requests for the documents of a query are well formed whatever the store answers. A limit
bounds them, and then the query comes to an end. -/
theorem fetch_traced (t : Terms) (positive : 0 < t.pageSize) (numericId : Bool)
    (site : Except Fault Site) (replies : List Reply) :
    let query := fetch t.database (.ofTerms t) numericId t.query
    t.Traced [] (query.run site replies).requests replies ∧
      ∀ n, t.limit = some n → (query.run site replies).requests.length ≤ n ∧
        query.Yields site (fun _ _ => True) fun _ => True := by
  intro query
  have traced := (Scan.Terms.holds_scan t).traced positive site replies
  rw [requests_fetch]
  refine ⟨traced, fun n bound => ⟨?_, ?_⟩⟩
  · by_cases none_ : ((Program.find t.scan).run site replies).requests = []
    · rw [none_]
      exact Nat.zero_le n
    · have bounded := traced.length_le bound none_
      rwa [Scan.received_nil, Nat.zero_add] at bounded
  · have found := (Scan.Terms.holds_scan t).yields positive bound site
    show (fetch t.database (.ofTerms t) numericId t.query).Yields _ _ _
    rw [fetch_eq]
    refine found.andThen fun r _ => ?_
    cases r with
    | error f => exact .finished rfl trivial
    | ok docs =>
      simp only
      split
      · exact .finished rfl trivial
      · exact .finished rfl trivial

/-- A store whose bookmarks go round, and that has a document on each page. -/
theorem fetch_traced_cycle :
    let cups : Value := .object [("kind", .str "cup")]
    let t : Terms := ⟨"shop", [("selector", cups), ("bookmark", .str "old")], 2, some 3, .int 5⟩
    let page (bookmark : String) : Reply := .answered ⟨200, none, none, .ok (.object
      [("docs", .array [.object []]), ("bookmark", .str bookmark)])⟩
    let replies := [page "a", page "b", page "a", page "b"]
    let site := (Site.ofText "http://db:5984" none).mapError .url
    let query := fetch t.database (.ofTerms t) false t.query
    t.Traced [] (query.run site replies).requests replies ∧
      (query.run site replies).requests.map Request.call = [
        .find "shop" [("selector", cups), ("skip", .int 5), ("limit", .int 2)],
        .find "shop" [("selector", cups), ("limit", .int 2), ("bookmark", .str "a")],
        .find "shop" [("selector", cups), ("limit", .int 1), ("bookmark", .str "b")]] ∧
      query.Yields site (fun _ _ => True) fun _ => True := by
  intro cups t page replies site query
  obtain ⟨traced, bounded⟩ := fetch_traced t (by decide) false site replies
  refine ⟨traced, ?_, (bounded 3 rfl).2⟩
  subst query site replies page t cups
  rfl

end Query

end ModelStore
