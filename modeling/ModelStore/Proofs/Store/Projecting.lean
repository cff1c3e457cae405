import Mathlib.Data.List.Forall2
import ModelStore.Client.Instances
import ModelStore.Proofs.Mapper.Projection
import ModelStore.Proofs.Store.Sessions
import ModelStore.Proofs.Store.Yielding
import ModelStore.Store.Read

/-! Reads under a projection. The store that answers them shows, of the documents of each page, the
fields that the query asks for. Then the read goes the same way as that of whole documents, page
by page, and what it finds corresponds to what that finds, document by document. -/

namespace ModelStore

open Entries (Restricts)

theorem Entries.erase_set_ne {α : Type u} (entries : Entries α) {key other : String} (v : α)
    (apart : key ≠ other) : erase (set entries key v) other = set (erase entries other) key v := by
  induction entries with
  | nil => simp [erase, set, apart]
  | cons e rest ih =>
    obtain ⟨k, w⟩ := e
    simp only [erase, ne_eq, decide_not] at ih ⊢
    by_cases same : k = key
    · subst same
      simp [set, apart]
    · by_cases gone : k = other
      · subst gone
        simp [set, same, ih]
      · simp [set, same, gone, ih]

theorem Entries.erase_erase {α : Type u} (entries : Entries α) (key other : String) :
    erase (erase entries key) other = erase (erase entries other) key := by
  simp only [erase, List.filter_filter, Bool.and_comm]

theorem Entries.erase_of_get?_none {α : Type u} {entries : Entries α} {key : String}
    (absent : get? entries key = none) : erase entries key = entries := by
  refine List.filter_eq_self.2 fun e mem => ?_
  have other : e.1 ≠ key := by
    rintro rfl
    exact get?_eq_none.1 absent (List.mem_map.2 ⟨e, mem, rfl⟩)
  simpa using other

namespace Json

theorem exists_encodeFields {fields coded : Fields} {key : String}
    (form : encodeFields (Entries.erase fields key) = .ok coded)
    (encodes : ∀ v, (key, v) ∈ fields → ∃ w, encode v = .ok w) :
    ∃ whole, encodeFields fields = .ok whole := by
  induction fields generalizing coded with
  | nil => exact ⟨[], rfl⟩
  | cons e rest ih =>
    obtain ⟨name, v⟩ := e
    have others : ∀ v, (key, v) ∈ rest → ∃ w, encode v = .ok w :=
      fun v mem => encodes v (List.mem_cons_of_mem _ mem)
    by_cases same : name = key
    · subst same
      have tail : Entries.erase ((name, v) :: rest) name = Entries.erase rest name := by
        simp [Entries.erase]
      rw [tail] at form
      obtain ⟨w, first⟩ := encodes v List.mem_cons_self
      obtain ⟨ws, last⟩ := ih form others
      exact ⟨_, encodeFields_cons.2 ⟨w, ws, first, last, rfl⟩⟩
    · have head : Entries.erase ((name, v) :: rest) key = (name, v) :: Entries.erase rest key := by
        simp [Entries.erase, same]
      rw [head] at form
      obtain ⟨w, _, first, tail, rfl⟩ := encodeFields_cons.1 form
      obtain ⟨ws, last⟩ := ih tail others
      exact ⟨_, encodeFields_cons.2 ⟨w, ws, first, last, rfl⟩⟩

theorem encode_texts (names : List String) :
    encode (.array (names.map .str)) = .ok (.array (names.map .str)) := by
  have items : encodeItems (names.map Value.str) = .ok (names.map .str) := by
    induction names with
    | nil => rfl
    | cons name rest ih => exact encodeItems_cons.2 ⟨_, _, rfl, ih, rfl⟩
  exact Except.map_eq_ok.2 ⟨_, items, rfl⟩

end Json

/-- A document and what is shown of it if only some fields are asked for. -/
def Shown : Option (List String) → Value → Value → Prop
  | none, whole, part => part = whole
  | some asked, whole, part => ∃ doc shown, whole = .object doc ∧ part = .object shown ∧
      Restricts (· ∈ asked) doc shown

/-- What a store replies that shows only some fields of documents, and what it would reply to a
query for whole ones. -/
inductive Shows (asked : List String) : Reply → Reply → Prop where
  | page {a : Answer} {fields part : Fields} {docs shown : List Value}
      (body : a.body = .ok (.object fields))
      (page : Entries.get? fields "docs" = some (.array docs))
      (shows_ : Entries.get? part "docs" = some (.array shown))
      (bookmark : Entries.get? part "bookmark" = Entries.get? fields "bookmark")
      (each : List.Forall₂ (Shown (some asked)) docs shown) :
      Shows asked (.answered a) (.answered { a with body := .ok (.object part) })
  | other {reply : Reply} (unpaged : ∀ a fields docs, reply = .answered a →
      a.body = .ok (.object fields) → Entries.get? fields "docs" ≠ some (.array docs)) :
      Shows asked reply reply

/-- A store that answers queries for some fields as it answers those for whole documents, and shows
of each document the fields that are asked for and that it has. -/
def Projecting (answers : Request → Reply → Prop) (q : Request) (reply : Reply) : Prop :=
  match q.call with
  | .find db query =>
    match Entries.get? query "fields" with
    | none => answers q reply
    | some fields => ∃ whole, answers ⟨.find db (Entries.erase query "fields"), q.url⟩ whole ∧
        ∀ asked : List String, fields = .array (asked.map .str) →
          (∀ name ∈ asked, Selector.isDotted name = false) → Shows asked whole reply
  | _ => answers q reply

namespace Shown

variable {asked? : Option (List String)} {whole part : Value}

def HasId (asked? : Option (List String)) : Prop := ∀ asked, asked? = some asked → "_id" ∈ asked

theorem docNumber_eq (shown : Shown asked? whole part) (hasId : HasId asked?) :
    IdOrder.docNumber part = IdOrder.docNumber whole := by
  cases asked? with
  | none => rw [show part = whole from shown]
  | some asked =>
    obtain ⟨doc, fields, rfl, rfl, restricts⟩ := shown
    have same := (restricts "_id").1 (hasId asked rfl)
    simp only [IdOrder.docNumber, Value.fieldsFor, bind, Except.bind, same]

end Shown

theorem forall₂_mergeSort {α β : Type} {R : α → β → Prop} {le : α → α → Bool} {le' : β → β → Bool}
    {l : List α} {l' : List β} (each : List.Forall₂ R l l')
    (alike : ∀ a a' b b', R a a' → R b b' → le a b = le' a' b') :
    List.Forall₂ R (l.mergeSort le) (l'.mergeSort le') := by
  obtain ⟨lengths, pairs⟩ := List.forall₂_iff_zip.1 each
  have first : (l.zip l').map Prod.fst = l := List.map_fst_zip (Nat.le_of_eq lengths)
  have second : (l.zip l').map Prod.snd = l' := List.map_snd_zip (Nat.le_of_eq lengths.symm)
  let both (x y : α × β) : Bool := le x.1 y.1
  have left : ((l.zip l').mergeSort both).map Prod.fst = l.mergeSort le := by
    rw [List.map_mergeSort (s := le) fun _ _ _ _ => rfl, first]
  have right : ((l.zip l').mergeSort both).map Prod.snd = l'.mergeSort le' := by
    rw [List.map_mergeSort (s := le') fun x hx y hy => alike _ _ _ _ (pairs hx) (pairs hy), second]
  rw [← left, ← right, List.forall₂_map_left_iff, List.forall₂_map_right_iff, List.forall₂_same]
  exact fun x mem => pairs ((List.mergeSort_perm _ _).mem_iff.1 mem)

theorem exists_mapM {α β γ δ : Type} {R : α → β → Prop} {S : γ → δ → Prop}
    {f : α → Except Fault γ} {g : β → Except Fault δ} {l : List α} {l' : List β} {out : List γ}
    (each : List.Forall₂ R l l')
    (step : ∀ a b c, R a b → f a = .ok c → ∃ d, g b = .ok d ∧ S c d) (made : l.mapM f = .ok out) :
    ∃ out', l'.mapM g = .ok out' ∧ List.Forall₂ S out out' := by
  induction each generalizing out with
  | nil =>
    cases made
    exact ⟨[], rfl, .nil⟩
  | cons related _ ih =>
    rw [List.mapM_cons] at made
    obtain ⟨c, first, made⟩ := Except.bind_eq_ok.1 made
    obtain ⟨cs, others, made⟩ := Except.bind_eq_ok.1 made
    cases made
    obtain ⟨d, first', alike⟩ := step _ _ _ related first
    obtain ⟨ds, others', tail⟩ := ih others
    refine ⟨d :: ds, ?_, .cons alike tail⟩
    rw [List.mapM_cons]
    exact Except.bind_eq_ok.2 ⟨d, first', Except.bind_eq_ok.2 ⟨ds, others', rfl⟩⟩

namespace IdOrder

variable {asked? : Option (List String)} {docs docs' out : List Value}

theorem shown_sortBy (hasId : Shown.HasId asked?) (each : List.Forall₂ (Shown asked?) docs docs')
    {d : Direction} (sorted : sortBy d docs = .ok out) :
    ∃ out', sortBy d docs' = .ok out' ∧ List.Forall₂ (Shown asked?) out out' := by
  obtain ⟨numbered, made, rfl⟩ := Except.map_eq_ok.1 sorted
  let Alike (a b : Numbered) : Prop := b.number = a.number ∧ Shown asked? a.doc b.doc
  obtain ⟨numbered', made', alike⟩ := exists_mapM (S := Alike) each (fun a b c shown made => by
    obtain ⟨n, number, rfl⟩ := Except.map_eq_ok.1 made
    have number' : docNumber b = .ok n := by rw [shown.docNumber_eq hasId, number]
    exact ⟨⟨n, b⟩, Except.map_eq_ok.2 ⟨n, number', rfl⟩, rfl, shown⟩) made
  refine ⟨_, Except.map_eq_ok.2 ⟨numbered', made', rfl⟩, ?_⟩
  rw [List.forall₂_map_left_iff, List.forall₂_map_right_iff]
  refine (forall₂_mergeSort alike fun a a' b b' first second => ?_).imp fun _ _ same => same.2
  cases d with
  | asc => rw [mayPrecede, mayPrecede, first.1, second.1]
  | desc => rw [mayPrecede, mayPrecede, first.1, second.1]

theorem shown_sortEntry (hasId : Shown.HasId asked?)
    (each : List.Forall₂ (Shown asked?) docs docs') {entry : Value}
    (sorted : sortEntry docs entry = .ok out) :
    ∃ out', sortEntry docs' entry = .ok out' ∧ List.Forall₂ (Shown asked?) out out' := by
  obtain ⟨d, directed, sorted⟩ := Except.bind_eq_ok.1 sorted
  cases d with
  | none =>
    cases sorted
    exact ⟨docs', Except.bind_eq_ok.2 ⟨none, directed, rfl⟩, each⟩
  | some d =>
    obtain ⟨out', sorted', each'⟩ := shown_sortBy hasId each sorted
    exact ⟨out', Except.bind_eq_ok.2 ⟨some d, directed, sorted'⟩, each'⟩

theorem shown_sortEntries (hasId : Shown.HasId asked?)
    (each : List.Forall₂ (Shown asked?) docs docs') {entries : List Value}
    (sorted : sortEntries docs entries = .ok out) :
    ∃ out', sortEntries docs' entries = .ok out' ∧ List.Forall₂ (Shown asked?) out out' := by
  induction entries generalizing docs docs' with
  | nil =>
    cases sorted
    exact ⟨docs', rfl, each⟩
  | cons entry rest ih =>
    rw [sortEntries, List.foldlM_cons] at sorted
    obtain ⟨next, first, sorted⟩ := Except.bind_eq_ok.1 sorted
    obtain ⟨next', first', each⟩ := shown_sortEntry hasId each first
    obtain ⟨out', others, each⟩ := ih each sorted
    exact ⟨out', List.foldlM_cons.trans (Except.bind_eq_ok.2 ⟨next', first', others⟩), each⟩

theorem shown_resort (hasId : Shown.HasId asked?) (each : List.Forall₂ (Shown asked?) docs docs')
    {sort : Value} (sorted : resort docs sort = .ok out) :
    ∃ out', resort docs' sort = .ok out' ∧ List.Forall₂ (Shown asked?) out out' := by
  obtain ⟨entries, members, sorted⟩ := Except.bind_eq_ok.1 sorted
  obtain ⟨out', sorted', each⟩ := shown_sortEntries hasId each sorted
  exact ⟨out', Except.bind_eq_ok.2 ⟨entries, members, sorted'⟩, each⟩

end IdOrder

theorem Site.request_eq_ok_iff {site : Site} {c : Call} {q : Request} :
    site.request c = .ok q ↔ site.address c = .ok q.url ∧ c.encode = .ok q.call := by
  unfold Site.request
  cases site.address c with
  | error f => exact ⟨nofun, nofun⟩
  | ok url =>
    cases c.encode with
    | error f => exact ⟨nofun, nofun⟩
    | ok coded =>
      obtain ⟨call, url'⟩ := q
      constructor
      · intro same
        cases same
        exact ⟨rfl, rfl⟩
      · rintro ⟨first, second⟩
        cases first
        cases second
        rfl

theorem Request.of_exchange {q : Request} {reply : Reply} {path : String} {a : Answer}
    (arrives : q.exchange reply = .answered path a) :
    reply = .answered a ∧ q.url.isTyped = true ∧
      (a.redirection?.bind q.misdirection?) = none := by
  cases reply with
  | failed f => cases arrives
  | unreadable f => cases arrives
  | answered b =>
    simp only [exchange] at arrives
    split at arrives
    · rename_i typed
      cases directed : b.redirection?.bind q.misdirection? with
      | none =>
        rw [directed] at arrives
        cases arrives
        exact ⟨rfl, typed, directed⟩
      | some x =>
        rw [directed] at arrives
        obtain ⟨place, -, misled⟩ := Option.bind_eq_some_iff.1 directed
        cases arrives
        unfold misdirection? at misled
        split at misled
        · cases misled
        · split at misled
          · cases misled
          · obtain ⟨f, -, wrong⟩ := Option.map_eq_some_iff.1 misled
            cases wrong
    · cases arrives

namespace Scan

variable {asked? : Option (List String)} {k k' : Scan}

theorem page_eq_ok_iff {v : Value} {p : Page} : k.page v = .ok p ↔
    ∃ fields docs, v = .object fields ∧ Entries.get? fields "docs" = some (.array docs) ∧
      p = ⟨docs, Value.ofOption (Entries.get? fields "bookmark")⟩ := by
  constructor
  · intro h
    unfold page at h
    split at h
    · split at h
      · rename_i fields _ docs found
        cases h
        exact ⟨fields, docs, rfl, found, rfl⟩
      · cases h
    · cases h
  · rintro ⟨fields, docs, rfl, found, rfl⟩
    simp only [page, found]

/-- Scans that go the same way, the one for whole documents and the other for some of their
fields. -/
structure Along (asked? : Option (List String)) (k k' : Scan) : Prop where
  database : k'.database = k.database
  size : k'.pageSize = k.pageSize
  limit : k'.limit = k.limit
  bookmark : k'.bookmark = k.bookmark
  request : Entries.erase k'.request "fields" = k.request
  asks : Entries.get? k'.request "fields" = asked?.map fun asked => .array (asked.map .str)
  only : ∀ v, ("fields", v) ∈ k'.request → ∃ asked : List String, v = .array (asked.map .str)
  found : List.Forall₂ (Shown asked?) k.found k'.found

theorem Along.next_ended (along : Along asked? k k') {r : Except Fault (List Value)}
    (ended : k.next = .ended r) : r = .ok k.found ∧ k'.next = .ended (.ok k'.found) := by
  have met : k'.isMet = k.isMet := by
    rw [isMet, isMet, along.limit, along.found.length_eq]
  unfold next at ended ⊢
  rw [met]
  split at ended
  · rename_i done_
    cases ended
    rw [if_pos done_]
    exact ⟨rfl, rfl⟩
  · cases ended

theorem Along.next_ask (along : Along asked? k k') {c : Call} (asks : k.next = .ask c) :
    c = .find k.database k.body ∧ k'.next = .ask (.find k.database k'.body) := by
  have met : k'.isMet = k.isMet := by
    rw [isMet, isMet, along.limit, along.found.length_eq]
  unfold next at asks ⊢
  rw [met]
  split at asks
  · cases asks
  · rename_i unmet
    cases asks
    rw [if_neg unmet, along.database]
    exact ⟨rfl, rfl⟩

theorem Along.erase_body (along : Along asked? k k') :
    Entries.erase k'.body "fields" = k.body := by
  have limit : k'.pageLimit = k.pageLimit := by
    rw [pageLimit, pageLimit, along.limit, along.size, along.found.length_eq]
  rw [body, body, Entries.erase_set_ne _ _ (by decide), along.request, limit]

theorem Along.turn (along : Along asked? k k') {p p' : Page} (bookmark : p'.bookmark = p.bookmark)
    (docs : List.Forall₂ (Shown asked?) p.docs p'.docs) : Along asked? (k.turn p) (k'.turn p') where
  database := along.database
  size := along.size
  limit := along.limit
  bookmark := bookmark
  request := by
    show Entries.erase (Entries.erase (Entries.set k'.body "bookmark" p'.bookmark) "skip")
        "fields" =
      Entries.erase (Entries.set k.body "bookmark" p.bookmark) "skip"
    rw [Entries.erase_erase, Entries.erase_set_ne _ _ (by decide), along.erase_body, bookmark]
  asks := by
    show Entries.get? (Entries.erase (Entries.set (Entries.set k'.request "limit" k'.pageLimit)
      "bookmark" p'.bookmark) "skip") "fields" = _
    rw [Entries.get?_erase_ne _ (by decide), Entries.get?_set_ne _ _ (by decide),
      Entries.get?_set_ne _ _ (by decide), along.asks]
  only := by
    intro v mem
    rcases Entries.mem_set (List.mem_filter.1 mem).1 with wrong | mem
    · exact absurd (Prod.mk.inj wrong).1 (by decide)
    · rcases Entries.mem_set mem with wrong | mem
      · exact absurd (Prod.mk.inj wrong).1 (by decide)
      · exact along.only v mem
  found := List.rel_append along.found docs

theorem Along.request_ok (along : Along asked? k k') {site : Site} {q : Request}
    (sent : site.request (.find k.database k.body) = .ok q) :
    ∃ coded coded', q.call = .find k.database coded ∧
      site.request (.find k.database k'.body) = .ok ⟨.find k.database coded', q.url⟩ ∧
      Entries.erase coded' "fields" = coded ∧
      Entries.get? coded' "fields" = asked?.map fun asked => .array (asked.map .str) := by
  obtain ⟨address, encoded⟩ := Site.request_eq_ok_iff.1 sent
  obtain ⟨coded, form, call⟩ := Except.map_eq_ok.1 encoded
  replace form := Except.mapError_eq_ok.1 form
  have encodes : ∀ v, ("fields", v) ∈ k'.body → Json.encode v = .ok v := by
    intro v mem
    rcases Entries.mem_set mem with wrong | mem
    · exact absurd (Prod.mk.inj wrong).1 (by decide)
    · obtain ⟨asked, rfl⟩ := along.only v mem
      exact Json.encode_texts asked
  rw [← along.erase_body] at form
  obtain ⟨coded', whole⟩ := Json.exists_encodeFields form fun v mem => ⟨v, encodes v mem⟩
  have erased : Entries.erase coded' "fields" = coded :=
    Except.ok.inj ((Json.encodeFields_erase whole).symm.trans form)
  have encoded' : (Call.find k.database k'.body).encode = .ok (.find k.database coded') :=
    Except.map_eq_ok.2 ⟨coded', Except.mapError_eq_ok.2 whole, rfl⟩
  refine ⟨coded, coded', call.symm, Site.request_eq_ok_iff.2 ⟨address, encoded'⟩, erased, ?_⟩
  have asks : Entries.get? k'.body "fields" =
      asked?.map fun asked => .array (asked.map .str) := by
    rw [body, Entries.get?_set_ne _ _ (by decide), along.asks]
  rw [← asks]
  cases here : Entries.get? k'.body "fields" with
  | none => exact Json.get?_encodeFields_none whole here
  | some v =>
    obtain ⟨w, coded_, there⟩ := Json.get?_encodeFields_some whole here
    rw [encodes v (Entries.mem_of_get? here)] at coded_
    cases coded_
    exact there

theorem Along.page_of_shows (along : Along asked? k k') (c c' : Call) {q q' : Request}
    (place : q'.url = q.url) {whole reply : Reply} {p : Page}
    (shows_ : ∀ asked, asked? = some asked → Shows asked whole reply)
    (same : asked? = none → reply = whole)
    (paged : ((q.exchange whole).value c).bind k.page = .ok p) :
    ∃ p' : Page, ((q'.exchange reply).value c').bind k'.page = .ok p' ∧
      p'.bookmark = p.bookmark ∧ List.Forall₂ (Shown asked?) p.docs p'.docs := by
  obtain ⟨call, url⟩ := q
  obtain ⟨call', url'⟩ := q'
  cases place
  obtain ⟨v, value, paged⟩ := Except.bind_eq_ok.1 paged
  obtain ⟨path, a, answered, sound, body⟩ := Exchange.value_eq_ok value
  obtain ⟨fields, docs, rfl, here, rfl⟩ := page_eq_ok_iff.1 paged
  obtain ⟨rfl, typed, straight⟩ := Request.of_exchange answered
  have arrives : ∀ b : Answer, b.redirection? = a.redirection? →
      ∃ path, (⟨call', url⟩ : Request).exchange (.answered b) = .answered path b := by
    intro b moved
    refine ⟨Request.shownPath ⟨call', url⟩, ?_⟩
    rw [Request.exchange, if_pos typed, moved]
    exact congrArg (Option.getD · _) straight
  cases asked? with
  | none =>
    obtain ⟨path', arrived⟩ := arrives a rfl
    refine ⟨_, ?_, rfl, List.forall₂_same.2 fun d _ => rfl⟩
    rw [same rfl, arrived]
    exact Except.bind_eq_ok.2 ⟨_, Exchange.value_of_body sound body,
      page_eq_ok_iff.2 ⟨fields, docs, rfl, here, rfl⟩⟩
  | some asked =>
    cases shows_ asked rfl with
    | page body' here' shown mark each =>
      cases body.symm.trans body'
      cases here.symm.trans here'
      obtain ⟨path', arrived⟩ := arrives { a with body := .ok (.object _) } rfl
      rename_i part shown_
      refine ⟨⟨shown_, Value.ofOption (Entries.get? part "bookmark")⟩, ?_,
        congrArg Value.ofOption mark, each⟩
      have sound' : ({ a with body := .ok (.object part) } : Answer).isError = false := sound
      rw [arrived]
      exact Except.bind_eq_ok.2 ⟨_, Exchange.value_of_body sound' rfl,
        page_eq_ok_iff.2 ⟨_, _, rfl, shown, rfl⟩⟩
    | other unpaged => exact absurd here (unpaged a fields docs rfl body)

/-- A reply that shows some fields of documents comes with one that shows them whole. -/
theorem exists_whole {answers : Request → Reply → Prop} {db : String} {coded : Fields} {url : Url}
    {reply : Reply} (asks : Entries.get? coded "fields" = asked?.map fun a => .array (a.map .str))
    (undotted : ∀ asked, asked? = some asked → ∀ name ∈ asked, Selector.isDotted name = false)
    (told : Projecting answers ⟨.find db coded, url⟩ reply) :
    ∃ whole, answers ⟨.find db (Entries.erase coded "fields"), url⟩ whole ∧
      (∀ asked, asked? = some asked → Shows asked whole reply) ∧
      (asked? = none → reply = whole) := by
  cases asked? with
  | none =>
    simp only [Projecting, asks, Option.map_none] at told
    rw [Entries.erase_of_get?_none asks]
    exact ⟨reply, told, nofun, fun _ => rfl⟩
  | some asked =>
    simp only [Projecting, asks, Option.map_some] at told
    obtain ⟨whole, there, shows_⟩ := told
    refine ⟨whole, there, ?_, nofun⟩
    rintro _ ⟨⟩
    exact shows_ asked rfl (undotted asked rfl)

theorem Along.isLast_eq (along : Along asked? k k') {p p' : Page}
    (bookmark : p'.bookmark = p.bookmark) (docs : List.Forall₂ (Shown asked?) p.docs p'.docs) :
    k'.isLast p' = k.isLast p := by
  have empty : p'.docs.isEmpty = p.docs.isEmpty := by
    rw [Bool.eq_iff_iff, List.isEmpty_iff_length_eq_zero, List.isEmpty_iff_length_eq_zero,
      docs.length_eq]
  rw [isLast, isLast, bookmark, along.bookmark, empty]

/-- The scan for some fields of documents goes the way of that for whole documents, and what it
finds corresponds to what that would find. -/
theorem Along.yields {site : Except Fault Site} {answers : Request → Reply → Prop}
    {wanted : Except Fault (List Value) → Prop} (faultless : ∀ e, ¬wanted (.error e))
    (undotted : ∀ asked, asked? = some asked → ∀ name ∈ asked, Selector.isDotted name = false)
    (along : Along asked? k k') (yields : (Program.scan k .done).Yields site answers wanted) :
    (Program.scan k' .done).Yields site (Projecting answers) fun r =>
      ∃ docs docs', r = .ok docs' ∧ wanted (.ok docs) ∧ List.Forall₂ (Shown asked?) docs docs' := by
  generalize same : Program.scan k .done = p at yields
  induction yields generalizing k k' with
  | @finished p ws r ends good =>
    subst same
    rcases Program.settle_scan site k .done with
      ⟨x, next, settled⟩ | ⟨_, f, -, -, settled⟩ | ⟨_, _, -, -, settled⟩
    · obtain ⟨rfl, next'⟩ := along.next_ended next
      cases settled.symm.trans ends
      have ends' : (Program.scan k' .done).settle site = ([], .finished (.ok k'.found)) := by
        simp only [Program.settle, next']
      exact .finished ends' ⟨k.found, k'.found, rfl, good, along.found⟩
    · cases settled.symm.trans ends
      exact absurd good (faultless f)
    · cases settled.symm.trans ends
  | @sending p ws q go sends more ih =>
    subst same
    rcases Program.settle_scan site k .done with
      ⟨x, -, settled⟩ | ⟨_, f, -, -, settled⟩ | ⟨c, q', next, sent, settled⟩
    · cases settled.symm.trans sends
    · cases settled.symm.trans sends
    · cases settled.symm.trans sends
      obtain ⟨rfl, next'⟩ := along.next_ask next
      obtain ⟨place, rfl, made⟩ := Except.bind_eq_ok.1 sent
      obtain ⟨coded, coded', call, made', rfl, asks⟩ := along.request_ok made
      have settled' : (Program.scan k' .done).settle (.ok place) =
          ([], .sending ⟨.find k.database coded', q.url⟩ fun reply =>
            Program.afterPage k' (.find k.database k'.body) .done
              (Request.exchange ⟨.find k.database coded', q.url⟩ reply)) := by
        simp only [Program.settle, next', Except.bind, made']
      refine .sending settled' fun reply told => ?_
      obtain ⟨whole, there, shows_, same⟩ := exists_whole asks undotted told
      rw [← call] at there
      have goes : (Program.afterPage k (.find k.database k.body) .done
          (q.exchange whole)).Yields (.ok place) answers wanted := more whole there
      cases paged : ((q.exchange whole).value (.find k.database k.body)).bind k.page with
      | error f =>
        rw [Program.afterPage, receive, paged] at goes
        exact absurd (goes.of_finished rfl) (faultless f)
      | ok p =>
        obtain ⟨p', paged', bookmark, docs⟩ := along.page_of_shows _ (.find k.database k'.body)
          (rfl : (⟨.find k.database coded', q.url⟩ : Request).url = q.url) shows_ same paged
        have received : k.receive (.find k.database k.body) (q.exchange whole) =
            if k.isLast p then .inl (.ok (k.found ++ p.docs)) else .inr (k.turn p) := by
          rw [receive, paged]
        rw [Program.afterPage, receive, paged']
        simp only [along.isLast_eq bookmark docs]
        cases done_ : k.isLast p with
        | true =>
          rw [Program.afterPage, received, if_pos done_] at goes
          have good := goes.of_finished rfl
          exact .finished rfl ⟨_, _, rfl, good, List.rel_append along.found docs⟩
        | false =>
          refine ih whole there (along.turn bookmark docs) ?_
          show _ = Program.afterPage k _ _ _
          rw [Program.afterPage, received, if_neg (by rw [done_]; exact Bool.false_ne_true)]

end Scan

end ModelStore
