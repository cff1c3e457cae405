import ModelStore.Proofs.Selector.Identification
import ModelStore.Proofs.Store.Addressing
import ModelStore.Proofs.Store.Answering
import ModelStore.Proofs.Store.Isolation
import ModelStore.Proofs.Store.Removal

/-! What an id reaches. A model without a selector of its own looks a document up under the text
of the id. Else the id goes into a filter, and if it is compared there, only the document can be
found whose own id is that text. An id that names operators is no id there: it picks out whatever
they pick out. -/

namespace ModelStore

open Selector (Search meets)

namespace Call

/-- A call that reads or deletes no document by its id but one. -/
def Aims (p : Place) : Call → Prop
  | get db id => (⟨db, id⟩ : Place) = p
  | delete db id _ => (⟨db, id⟩ : Place) = p
  | _ => True

theorem eq_of_encode {c coded : Call} (form : c.encode = .ok coded) (bare : coded.body? = none) :
    c = coded := by
  cases c with
  | find db query => obtain ⟨_, -, rfl⟩ := Except.map_eq_ok.1 form; cases bare
  | insert db doc => obtain ⟨_, -, rfl⟩ := Except.map_eq_ok.1 form; cases bare
  | bulk db docs => obtain ⟨_, -, rfl⟩ := Except.map_eq_ok.1 form; cases bare
  | createIndex db body => obtain ⟨_, -, rfl⟩ := Except.map_eq_ok.1 form; cases bare
  | _ => cases form; rfl

end Call

namespace Documents

variable {search : Search} {s t : Documents} {a : Answer} {c : Call}

/-- What a selector finds for an id that is compared is the document of that id. -/
theorem Finds.shows {h : Handle} {id d : Value} {selector : Fields} (sound : s.Sound)
    (compares : h.Compares id)
    (built : (Selector.build h (.object [(h.idName, id)])).outcome = .ok selector)
    (found : s.Finds search h.database (Query.ofSelector selector).body d) :
    s.Shows ⟨h.database, id.text⟩ d := by
  obtain ⟨text, coded, doc, shown, form, rfl, met⟩ := found.of_selector_only
  have there := shown
  obtain ⟨fields, same, -, here⟩ := there
  cases same
  have own : text = id.text :=
    Selector.id_of_build compares built form met (sound.named _ _ here)
  exact own ▸ shown

end Documents

variable {h : Handle} {id : Value} {search : Search} {site : Site} {s t : Documents}
  {qs : List Request}

namespace Remove

theorem makes_one_of_compares (compares : h.Compares id) (pageSize : Nat) :
    (one pageSize h id).Makes search Documents.Sound (Call.Aims ⟨h.database, id.text⟩) := by
  have resolved : (Query.resolve pageSize h (.object [(h.idName, id)]) none).Sends search
      Documents.Sound (Call.Aims ⟨h.database, id.text⟩) fun r => ∀ docs, r = .ok docs →
        ∀ d ∈ docs, ∃ s : Documents, s.Sound ∧ s.Shows ⟨h.database, id.text⟩ d := by
    refine (Query.sends_search _ _ _).mono fun r found docs same d mem => ?_
    obtain ⟨selector, s, built, sound, met⟩ := found docs same d mem
    exact ⟨s, sound, met.shows sound compares built⟩
  refine makes_one resolved fun d known name rev required => ?_
  obtain ⟨s, sound, fields, rfl, table, here⟩ := known
  simp only [Value.required, sound.named _ _ here] at required
  cases required
  exact rfl

end Remove

namespace Read

theorem query_ofSelector {filter limit offset : Value} {q : Query}
    (made : (query h ⟨filter, .null, .null, limit, offset⟩ .null).outcome = .ok q) :
    ∃ selector, (Selector.build h filter).outcome = .ok selector ∧
      q = Query.ofSelector selector := by
  obtain ⟨selector, built, rest⟩ := Noted.bind_eq_ok.1 made
  cases rest
  exact ⟨selector, built, rfl⟩

theorem sends_bySelector (sound : s.Sound) (compares : h.Compares id) (settings : Settings) :
    (bySelector settings h id).Sends search (· = s) Call.IsFind fun r => ∀ fields,
      r = .ok (some fields) → ∃ d, s.Shows ⟨h.database, id.text⟩ d ∧
        (Mapper.ofHandle h).fromDoc .null d = .ok fields := by
  have found : (documents settings h (criteriaOfId h id) .null).Sends search (· = s) Call.IsFind
      fun r => ∀ docs, r = .ok docs → ∀ d ∈ docs, s.Shows ⟨h.database, id.text⟩ d := by
    refine (sends_documents _ _ _).mono fun r found docs same d mem => ?_
    obtain ⟨q, _, made, rfl, met⟩ := found docs same d mem
    obtain ⟨selector, built, rfl⟩ := query_ofSelector made
    exact met.shows sound compares built
  have mapped : (all settings h (criteriaOfId h id) .null).Sends search (· = s) Call.IsFind fun r =>
      ∀ data, r = .ok data → ∀ fields ∈ data, ∃ d, s.Shows ⟨h.database, id.text⟩ d ∧
        (Mapper.ofHandle h).fromDoc .null d = .ok fields := by
    refine found.bind (fun docs each => ?_) fun e _ => nofun
    intro data made fields mem
    obtain ⟨d, member, read⟩ := Except.mem_of_mapM (f := (Mapper.ofHandle h).fromDoc .null) made mem
    exact ⟨d, each docs rfl d member, read⟩
  refine mapped.bind (fun data each => ?_) fun e _ => nofun
  intro fields same
  cases data with
  | nil => cases same
  | cons first rest =>
    cases same
    exact each _ rfl _ List.mem_cons_self

theorem of_byKey {fields : Fields}
    (served : (byKey h id).Served (.ok site) (Documents.Replies search) s qs t
      (.ok (some fields))) :
    (∀ q ∈ qs, q.call.Aims ⟨h.database, id.text⟩) ∧ ∃ d, s.Shows ⟨h.database, id.text⟩ d ∧
      (Mapper.ofHandle h).fromDoc .null d = .ok fields := by
  obtain ⟨asked, later, u, x, rfl, got, rest⟩ := served.of_andThen
  obtain ⟨calls, rfl, shown⟩ := got.of_get
  cases x with
  | error f =>
    simp only at rest
    split at rest
    · obtain ⟨-, -, wrong⟩ := rest.of_done
      cases wrong
    · obtain ⟨-, -, wrong⟩ := rest.of_done
      cases wrong
  | ok d =>
    obtain ⟨rfl, -, same⟩ := rest.of_done
    refine ⟨fun q mem => ?_, d, shown d rfl, ?_⟩
    · rw [List.append_nil] at mem
      rw [calls q mem]
      exact rfl
    · obtain ⟨stored, -, owned⟩ := Except.bind_eq_ok.1 same.symm
      simp only at owned
      split at owned
      · obtain ⟨data, mapped, same⟩ := Except.map_eq_ok.1 owned
        cases same
        exact mapped
      · cases owned

end Read

/-- Where a request goes that reads or deletes a document: to the path of that document, unless
the name of the database or of the document is taken for a dot segment. -/
def Request.Reaches (site : Site) (q : Request) (p : Place) : Prop :=
  q.url.path = site.documentPath p.database p.id ↔ ¬Path.HasDots p.database p.id

theorem Request.reaches_of_get {q : Request} {p : Place} (plain : site.Plain)
    (placed : p.database ≠ "") (sent : ∃ c, site.request c = .ok q)
    (call : q.call = .get p.database p.id) : q.Reaches site p := by
  obtain ⟨c, sent⟩ := sent
  cases Call.eq_of_encode (Site.request_ok sent) (by rw [call]; rfl)
  exact plain.address_get placed (call ▸ sent)

theorem Request.reaches_of_delete {q : Request} {p : Place} {rev : Value} (plain : site.Plain)
    (placed : p.database ≠ "") (sent : ∃ c, site.request c = .ok q)
    (call : q.call = .delete p.database p.id rev) : q.Reaches site p := by
  obtain ⟨c, sent⟩ := sent
  cases Call.eq_of_encode (Site.request_ok sent) (by rw [call]; rfl)
  exact (plain.address_delete placed (call ▸ sent)).2

/-- An id addresses no document but its own. However a store of sound documents serves the calls,
a call to destroy an id deletes nothing but the document whose id is the text of the given one,
and a call to find it returns nothing but what that document is mapped to, as long as the id is
compared where it stands in a filter. For a model without a selector of its own that holds of a
call to find any id, as the id is looked up and stands in no filter. -/
theorem Handle.id_addresses_own (h : Handle) (placed : h.database ≠ "") (id : Value)
    (plain : site.Plain) (sound : s.Sound) (search : Search) :
    (h.Compares id → ∀ pageSize qs t r,
      (Remove.one pageSize h id).Served (.ok site) (Documents.Replies search) s qs t r →
        ∀ q ∈ qs, ∀ db name rev, q.call = .delete db name rev →
          (⟨db, name⟩ : Place) = ⟨h.database, id.text⟩ ∧ q.Reaches site ⟨db, name⟩) ∧
    ((h.modelSelector.isSome → h.Compares id) → ∀ settings qs t fields,
      (Read.byId settings h id).Served (.ok site) (Documents.Replies search) s qs t
          (.ok (some fields)) →
        (∃ d, s.Shows ⟨h.database, id.text⟩ d ∧ (Mapper.ofHandle h).fromDoc .null d = .ok fields) ∧
        ∀ q ∈ qs, ∀ db name, q.call = .get db name →
          (⟨db, name⟩ : Place) = ⟨h.database, id.text⟩ ∧ q.Reaches site ⟨db, name⟩) := by
  constructor
  · intro compares pageSize qs t r served q mem db name rev call
    have aims := ((Remove.makes_one_of_compares compares pageSize).served sound (fun _ _ => trivial)
      (fun _ _ _ _ sound _ performs => performs.sound sound) served).2.2 q mem
    rw [call] at aims
    refine ⟨aims, ?_⟩
    cases aims
    exact Request.reaches_of_delete plain placed (served.exists_request q mem) call
  · intro compares settings qs t fields served
    have found : (∃ d, s.Shows ⟨h.database, id.text⟩ d ∧
        (Mapper.ofHandle h).fromDoc .null d = .ok fields) ∧
        ∀ q ∈ qs, q.call.Aims ⟨h.database, id.text⟩ := by
      have ran := served
      unfold Read.byId at ran
      split at ran
      · rename_i own
        obtain ⟨known, -, finds⟩ :=
          (Read.sends_bySelector sound (compares own) settings).searched ran
        refine ⟨known fields rfl, fun q mem => ?_⟩
        have find := finds q mem
        cases call : q.call with
        | find db query => trivial
        | _ => rw [call] at find; cases find
      · exact (Read.of_byKey ran).symm
    refine ⟨found.1, fun q mem db name call => ?_⟩
    have aims := found.2 q mem
    rw [call] at aims
    refine ⟨aims, ?_⟩
    cases aims
    exact Request.reaches_of_get plain placed (served.exists_request q mem) call

section Market

open Mutation
open Shop (customers)

theorem market_deletes (id operand : Value)
    (sends : ∃ q go q' go' path path', (Remove.one 10 customers id).settle (.ok Shop.site) =
        ([], .sending q go) ∧
      (go (.answered (.listing [.object customer]))).settle (.ok Shop.site) =
        ([], .sending q' go') ∧
      (go' (.answered .confirming)).settle (.ok Shop.site) = ([], .finished (.ok 1)) ∧
      q.call = .find "shop" [("selector", .object [("kind", .str "Customer"), ("_id", operand)]),
        ("limit", .int 10)] ∧
      q'.call = .delete "shop" "5" (.str "1-a") ∧
      q.exchange (.answered (.listing [.object customer])) =
        .answered path (.listing [.object customer]) ∧
      q'.exchange (.answered .confirming) = .answered path' .confirming)
    (met : meets (fun _ _ => false) [("kind", .str "Customer"), ("_id", operand)] customer = true) :
    ∃ qs q, (Remove.one 10 customers id).Served (.ok Shop.site)
        (Documents.Replies fun _ _ => false) market qs (market.drop ⟨"shop", "5"⟩) (.ok 1) ∧
      q ∈ qs ∧ q.call = .delete "shop" "5" (.str "1-a") := by
  obtain ⟨q, go, q', go', path, path', sends, sends', ends, call, call', arrives, arrives'⟩ := sends
  have found : market.Performs (fun _ _ => false) q.call (.listing [.object customer]) market := by
    rw [call]
    exact market_lists rfl met
  have deleted : market.Performs (fun _ _ => false) q'.call .confirming
      (market.drop ⟨"shop", "5"⟩) := by
    rw [call']
    exact market_drops
  exact ⟨[q, q'], q', .told sends (.of_answered found arrives)
      (.told sends' (.of_answered deleted arrives') (.ended ends)),
    List.mem_cons_of_mem _ List.mem_cons_self, call'⟩

/-- A customer is destroyed by a number, whose text is the id of the customer. -/
theorem Handle.id_addresses_own_market :
    ∃ qs q, (Remove.one 10 customers (.int 5)).Served (.ok Shop.site)
        (Documents.Replies fun _ _ => false) market qs (market.drop ⟨"shop", "5"⟩) (.ok 1) ∧
      q ∈ qs ∧ q.call = .delete "shop" "5" (.str "1-a") ∧
      q.Reaches Shop.site ⟨"shop", "5"⟩ := by
  obtain ⟨qs, q, served, mem, call⟩ := market_deletes (.int 5) (.str "5")
    ⟨_, _, _, _, _, _, rfl, rfl, rfl, rfl, rfl, rfl, rfl⟩ rfl
  have own := Handle.id_addresses_own customers (by decide) (.int 5) Shop.site_plain market_sound
    fun _ _ => false
  exact ⟨qs, q, served, mem, call, (own.1 rfl _ _ _ _ served q mem _ _ _ call).2⟩

/-- An id that names an operator has a customer destroyed whose own id is another. -/
theorem Handle.id_destroys_other :
    let id : Value := .object [("neq", .str "x")]
    market.Sound ∧ id.text ≠ "5" ∧
      ∃ qs q, (Remove.one 10 customers id).Served (.ok Shop.site)
          (Documents.Replies fun _ _ => false) market qs (market.drop ⟨"shop", "5"⟩) (.ok 1) ∧
        q ∈ qs ∧ q.call = .delete "shop" "5" (.str "1-a") :=
  ⟨market_sound, by decide, market_deletes _ (.object [("$ne", .str "x")])
    ⟨_, _, _, _, _, _, rfl, rfl, rfl, rfl, rfl, rfl, rfl⟩ rfl⟩

end Market

end ModelStore
