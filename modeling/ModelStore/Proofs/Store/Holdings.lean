import ModelStore.Proofs.Selector.Matching
import ModelStore.Proofs.Store.Paging
import ModelStore.Proofs.Store.Serving
import ModelStore.Proofs.Store.Sessions

/-! A database that no one else writes to. Its documents are kept in an order, queries are answered
with pages of those that their selector asks for, and a document is deleted under its id and its
revision. Any request may fail, and what comes of one that is carried out may be lost. -/

namespace ModelStore

/-- A document as a store has it: under its own id, which is no design document's, and at a
revision. -/
structure Stored where
  id : String
  rev : String
  fields : Fields
  named : Entries.get? fields "_id" = some (.str id)
  dated : Entries.get? fields "_rev" = some (.str rev)
  data : Path.designName? id = none

/-- How a store looks documents up: what its operators match, where a bookmark stands, and what of
a document a query has shown that asks for some fields. -/
structure Engine where
  search : Selector.Search
  place : String → Nat
  shown : Option Value → Fields → Fields
  whole : ∀ doc, shown none doc = doc

namespace Engine

variable {e : Engine} {db : String} {docs : List Stored}

def matching (e : Engine) (selector : Fields) (docs : List Stored) : List Stored :=
  docs.filter fun d => Selector.meets e.search selector d.fields

def results (e : Engine) (query selector : Fields) (docs : List Stored) : List Value :=
  (e.matching selector docs).map fun d => .object (e.shown (Entries.get? query "fields") d.fields)

/-- Whether a reply to a query is a faithful page of the documents that its selector asks for. -/
def Pages (e : Engine) (docs : List Stored) (query : Fields) (reply : Reply) : Prop :=
  ∀ selector, Entries.get? query "selector" = some (.object selector) →
    ∃ a count, reply = .answered a ∧
      Faithful (e.results query selector docs) e.place (Scan.position e.place query)
        (Scan.most query) count a

/-- What becomes of the documents of a database when a request is served. A request may fail, and
one that deletes a document may do so although the answer does not arrive. A deletion whose path
has dot segments is that of no document and can only fail here. -/
inductive Serves (e : Engine) (db : String) (docs : List Stored) (q : Request) (reply : Reply) :
    List Stored → Prop where
  | failed (fails : ∀ path a, q.exchange reply = .answered path a → a.isError = true) :
      Serves e db docs q reply docs
  | listed {query : Fields} (call : q.call = .find db query) (pages : e.Pages docs query reply) :
      Serves e db docs q reply docs
  | deleted {d : Stored} (mem : d ∈ docs) (undotted : ¬Path.HasDots db d.id)
      (call : q.call = .delete db d.id (.str d.rev)) :
      Serves e db docs q reply (docs.filter (·.id ≠ d.id))
  | other (unread : ∀ query, q.call ≠ .find db query) (unwritten : ∀ doc, q.call ≠ .insert db doc)
      (unposted : ∀ vs, q.call ≠ .bulk db vs)
      (absent : ∀ d ∈ docs, ∀ rev, q.call ≠ .delete db d.id rev) : Serves e db docs q reply docs

theorem results_alike {a b selector : Fields} (alike : Scan.Alike a b) (docs : List Stored) :
    e.results a selector docs = e.results b selector docs := by
  have same : Entries.get? a "fields" = Entries.get? b "fields" := alike "fields" (by decide)
  rw [results, results, same]

theorem results_whole {query selector : Fields} (whole : Entries.get? query "fields" = none)
    (docs : List Stored) :
    e.results query selector docs = (e.matching selector docs).map fun d => .object d.fields := by
  unfold results
  rw [whole]
  simp only [e.whole]

theorem Pages.alike {query base selector : Fields} {reply : Reply} {url : Url}
    (pages : e.Pages docs query reply) (alike : Scan.Alike query base)
    (asks : Entries.get? base "selector" = some (.object selector)) :
    ModelStore.Pages (e.results base selector docs) e.place ⟨.find db query, url⟩ reply := by
  rintro _ _ ⟨⟩
  rw [← results_alike alike]
  exact pages selector ((alike "selector" (by decide)).trans asks)

variable {base selector : Fields} {pageSize offset : Nat} {limit : Option Nat} {site : Site}
  {t : List Stored} {qs : List Request}

theorem Serves.page {s : Scan} {c : Call} {q : Request} {reply : Reply} {coded : Fields}
    (serves : e.Serves db docs q reply t) (call : q.call = .find db coded)
    (alike : Scan.Alike coded base)
    (asks : Entries.get? base "selector" = some (.object selector)) :
    t = docs ∧ ((∃ f, s.receive c (q.exchange reply) = .inl (.error f)) ∨
      ∃ path a count, q.exchange reply = .answered path a ∧
        Faithful (e.results base selector docs) e.place (Scan.position e.place coded)
          (Scan.most coded) count a) := by
  have faulty : ∀ {f}, (q.exchange reply).value c = .error f →
      s.receive c (q.exchange reply) = .inl (.error f) := by
    intro f value
    rw [Scan.receive, value]
    rfl
  cases serves with
  | failed fails =>
    refine ⟨rfl, .inl ?_⟩
    cases value : (q.exchange reply).value c with
    | error f => exact ⟨f, faulty value⟩
    | ok v =>
      obtain ⟨path, a, answered, sound, -⟩ := Exchange.value_eq_ok value
      rw [fails path a answered] at sound
      cases sound
  | listed call' pages =>
    cases call.symm.trans call'
    have faithfully : ModelStore.Pages (e.results base selector docs) e.place
        ⟨.find db coded, q.url⟩ reply := pages.alike alike asks
    obtain ⟨a, count, rfl, faithful⟩ := faithfully db coded rfl
    refine ⟨rfl, ?_⟩
    cases typed : q.url.isTyped with
    | false => exact .inl ⟨_, faulty (by simp [Request.exchange, typed]; rfl)⟩
    | true =>
      refine .inr ⟨q.shownPath, a, count, ?_, faithful⟩
      simp [Request.exchange, typed, faithful.stays]
  | deleted mem undotted call' => cases call.symm.trans call'
  | other unread unwritten unposted absent => exact absurd call (unread coded)

/-- A scan leaves the documents as they are, and if it ends without a fault it has found those of
its window. -/
theorem served_scan (base : Fields) (positive : 0 < pageSize)
    (asks : Entries.get? base "selector" = some (.object selector)) {s : Scan}
    (h : Scan.Stands (e.results base selector docs) e.place db pageSize limit offset s)
    (alike : ∀ coded, Json.encodeFields s.request = .ok coded → Scan.Alike coded base)
    {r : Except Fault (List Value)}
    (served : (Program.scan s .done).Served (.ok site) (e.Serves db) docs qs t r) :
    t = docs ∧ ∀ found, r = .ok found →
      found = window (e.results base selector docs) offset limit := by
  induction qs generalizing s with
  | nil =>
    rcases served.of_scan with ⟨x, next, rest⟩ | ⟨c, f, next, sent, rest⟩ |
      ⟨c, q, reply, u, later, next, sent, wrong, rest⟩
    · obtain ⟨-, rfl, rfl⟩ := Program.Served.of_done rest
      exact ⟨rfl, fun found result => Scan.eq_window_of_ended h (result ▸ next)⟩
    · obtain ⟨-, rfl, rfl⟩ := Program.Served.of_done rest
      exact ⟨rfl, nofun⟩
    · cases wrong
  | cons q qs ih =>
    rcases served.of_scan with ⟨x, next, rest⟩ | ⟨c, f, next, sent, rest⟩ |
      ⟨c, q, reply, u, later, next, sent, same, serves, rest⟩
    · obtain ⟨wrong, -⟩ := Program.Served.of_done rest
      cases wrong
    · obtain ⟨wrong, -⟩ := Program.Served.of_done rest
      cases wrong
    · cases same
      obtain ⟨more, rfl⟩ := Scan.more_of_ask h next
      obtain ⟨request, given, -⟩ := h.encodable
      obtain ⟨coded, form, from_, upTo⟩ := Scan.encode_body h
      have call : q.call = .find db coded := by
        have sent_ := Site.request_ok sent
        rw [Call.encode, Call.encodeFields, form] at sent_
        exact (Except.ok.inj sent_).symm
      have asked : Scan.Alike coded base :=
        ((Scan.alike_body s).encode form given).trans (alike request given)
      obtain ⟨rfl, come⟩ := serves.page call asked asks (s := s) (c := .find db s.body)
      rcases come with ⟨f, last⟩ | ⟨path, a, count, answered, faithful⟩
      · rw [Program.afterPage, last] at rest
        obtain ⟨-, rfl, rfl⟩ := Program.Served.of_done rest
        exact ⟨rfl, nofun⟩
      · rw [from_, upTo] at faithful
        rw [Program.afterPage, answered] at rest
        rcases Scan.receive_cases positive h more (.find db s.body) path faithful with
          last | ⟨p, goes, stands, -⟩
        · rw [last] at rest
          obtain ⟨-, rfl, rfl⟩ := Program.Served.of_done rest
          refine ⟨rfl, fun found result => ?_⟩
          cases result
          rfl
        · rw [goes] at rest
          refine ih stands (fun next form' => ?_) rest
          exact ((Scan.alike_turn s p).encode form' given).trans (alike request given)

/-- A store that answers queries with no more than so many documents at a time. -/
def clerk (e : Engine) (docs : List Stored) (cap : Nat) (q : Request) : Reply :=
  match q.call with
  | .find _ query =>
    match Entries.get? query "selector" with
    | some (.object selector) => pager (e.results query selector docs) cap q
    | _ => .failed Program.noReply
  | _ => .failed Program.noReply

theorem clerk_pages (tallies : e.place = untally) (docs : List Stored) {cap : Nat}
    (positive : 0 < cap) {q : Request} {query : Fields} (call : q.call = .find db query) :
    e.Pages docs query (e.clerk docs cap q) := by
  intro selector asks
  simp only [clerk, call, asks, tallies]
  exact pager_pages _ positive q db query call

end Engine

end ModelStore
