import ModelStore.Client.Migrations
import ModelStore.Proofs.Store.Calling
import ModelStore.Proofs.Store.Holdings
import ModelStore.Proofs.Store.Removal

/-! Calls about all documents of a model: they are counted, and a migration deletes them. Both
read them by a query, and under a limit of the settings a query reads no more documents than
that. So the count is cut there, and what is past the limit stays. -/

namespace ModelStore

def upTo {α : Type} (limit : Option Nat) (l : List α) : List α := limit.elim l l.take

def past {α : Type} (limit : Option Nat) (l : List α) : List α := limit.elim [] l.drop

theorem window_zero (docs : List Value) (limit : Option Nat) :
    window docs 0 limit = upTo limit docs := by
  cases limit <;> rfl

theorem upTo_map {α β : Type} (limit : Option Nat) (f : α → β) (l : List α) :
    upTo limit (l.map f) = (upTo limit l).map f := by
  cases limit with
  | none => rfl
  | some n => exact List.map_take.symm

theorem length_upTo {α : Type} (limit : Option Nat) (l : List α) :
    (upTo limit l).length = limit.elim l.length (min · l.length) := by
  cases limit with
  | none => rfl
  | some n => exact List.length_take

theorem upTo_sublist {α : Type} (limit : Option Nat) (l : List α) : (upTo limit l).Sublist l := by
  cases limit with
  | none => exact .refl l
  | some n => exact List.take_sublist n l

theorem upTo_append_past {α : Type} (limit : Option Nat) (l : List α) :
    upTo limit l ++ past limit l = l := by
  cases limit with
  | none => exact List.append_nil l
  | some n => exact List.take_append_drop n l

theorem past_eq_nil_iff {α : Type} {limit : Option Nat} {l : List α} :
    past limit l = [] ↔ ∀ n, limit = some n → l.length ≤ n := by
  cases limit with
  | none => simp [past]
  | some n => simp [past]

theorem Query.fetch_eq_scan (db : String) (pageSize : Nat) (limit offset : Option Nat)
    (numericId : Bool) {body : Fields} (unsorted : Entries.get? body "sort" = none) :
    fetch db (.ofNat pageSize limit offset) numericId body =
      .scan (Scan.start db body pageSize (limit.map fun n : Nat => .whole n)
        (Value.ofOption (offset.map fun n : Nat => .int n))) .done := by
  have bound : (Window.ofNat pageSize limit offset).limit? =
      .ok (limit.map fun n : Nat => .whole n) := by
    cases limit <;> rfl
  have plain : (numericId && (Value.ofOption (Entries.get? body "sort")).truthy) = false := by
    rw [unsorted]
    exact Bool.and_false _
  rw [fetch, bound]
  show Program.scan _ _ = _
  congr 1
  funext r
  cases r with
  | error e => rfl
  | ok docs =>
    show (if _ then _ else _) = _
    rw [if_neg (by rw [plain]; exact Bool.false_ne_true)]
    rfl

theorem Query.window_of_limit (pageSize : Nat) (limit : Option Nat) :
    (⟨pageSize, Value.ofOption (limit.map fun n => .int n), .null⟩ : Window) =
      .ofNat pageSize limit none := by
  cases limit <;> rfl

variable {h : Handle} {site : Site} {e : Engine} {docs t : List Stored} {qs : List Request}
  {selector coded : Fields} {pageSize : Nat} {limit : Option Nat} {filter : Value}

namespace Query

theorem encode_body_ofSelector (form : Json.encodeFields selector = .ok coded) :
    Json.encodeFields (ofSelector selector).body = .ok [("selector", .object coded)] := by
  refine Json.encodeFields_cons.2 ⟨.object coded, [], ?_, rfl, rfl⟩
  exact Except.map_eq_ok.2 ⟨coded, form, rfl⟩

theorem served_resolve (built : (Selector.build h filter).outcome = .ok selector)
    (form : Json.encodeFields selector = .ok coded) (positive : 0 < pageSize)
    {found : List Value}
    (served : (resolve pageSize h filter limit).Served (.ok site) (e.Serves h.database) docs qs t
      (.ok found)) :
    t = docs ∧
      found = (upTo limit (e.matching coded docs)).map fun d => .object d.fields := by
  obtain ⟨first, later, u, selector', -, compiled, rest⟩ := served.of_bind
  obtain ⟨-, rfl, same⟩ := Program.Served.of_ofNoted compiled
  rw [built] at same
  cases same
  have body := encode_body_ofSelector form
  rw [window_of_limit, fetch_eq_scan _ _ _ _ _ rfl] at rest
  obtain ⟨rfl, known⟩ := e.served_scan [("selector", .object coded)] positive rfl
    (Scan.stands_start _ e.place limit none body rfl)
    (fun next form' => (Scan.alike_start _ _ _ _ _).encode form' body) rest
  refine ⟨rfl, ?_⟩
  rw [known found rfl, Option.getD_none, window_zero, Engine.results_whole rfl, upTo_map]

end Query

namespace Remove

theorem served_document {d : Stored} (mem : d ∈ docs) {v : Value}
    (served : (document h (.object d.fields)).Served (.ok site) (e.Serves h.database) docs qs t
      (.ok v)) : t = docs.filter (·.id ≠ d.id) := by
  rw [document_eq (d := .object d.fields) d.named d.dated] at served
  have faultless : ∀ {x : Exchange},
      blamed h d.id (x.value (.delete h.database d.id (.str d.rev))) = .ok v →
      ∃ path a, x = .answered path a ∧ a.isError = false := by
    intro x told
    cases value : x.value (.delete h.database d.id (.str d.rev)) with
    | ok w =>
      obtain ⟨path, a, answered, sound, -⟩ := Exchange.value_eq_ok value
      exact ⟨path, a, answered, sound⟩
    | error f =>
      rw [value] at told
      cases f <;> cases told
  rcases served.of_ask with ⟨f, -, rest⟩ | ⟨q, reply, u, later, sent, -, serves, rest⟩
  · obtain ⟨-, -, told⟩ := Program.Served.of_done rest
    obtain ⟨path, a, wrong, -⟩ := faultless told.symm
    cases wrong
  · obtain ⟨-, rfl, told⟩ := Program.Served.of_done rest
    have call : Call.delete h.database d.id (.str d.rev) = q.call :=
      Except.ok.inj (Site.request_ok sent)
    obtain ⟨path, a, answered, sound⟩ := faultless told.symm
    cases serves with
    | failed fails =>
      rw [fails path a answered] at sound
      cases sound
    | listed call' pages => cases call.trans call'
    | @deleted d' mem' undotted call' =>
      have same : d'.id = d.id := by
        have calls := call.trans call'
        injection calls with _ same _
        exact same.symm
      rw [same]
    | other unread unwritten unposted absent => exact absurd call.symm (absent d mem _)

theorem served_collect {targets : List Stored} (mem : ∀ d ∈ targets, d ∈ docs)
    (distinct : (targets.map Stored.id).Nodup) {outcomes : List (Except Fault Value)}
    (served : (Program.collect (targets.map fun d => document h (.object d.fields))).Served
      (.ok site) (e.Serves h.database) docs qs t (.ok outcomes))
    (faultless : faults outcomes = []) :
    t = docs.filter fun d => d.id ∉ targets.map Stored.id := by
  induction targets generalizing docs qs outcomes with
  | nil =>
    obtain ⟨-, rfl, -⟩ := Program.Served.of_done served
    simp
  | cons d rest ih =>
    obtain ⟨_, _, u, r, -, tried, next⟩ := Program.Served.of_bind served
    obtain ⟨_, _, _, _, -, one, told⟩ := Program.Served.of_andThen tried
    obtain ⟨-, rfl, same⟩ := Program.Served.of_done told
    cases same
    obtain ⟨_, _, _, others, -, ran, told⟩ := Program.Served.of_bind next
    obtain ⟨-, rfl, same⟩ := Program.Served.of_done told
    cases same
    cases r with
    | error f => cases faultless
    | ok v =>
      obtain ⟨here, there⟩ := List.forall_mem_cons.1 mem
      obtain ⟨fresh, distinct⟩ := List.nodup_cons.1 distinct
      cases served_document here one
      have left : ∀ d' ∈ rest, d' ∈ docs.filter (·.id ≠ d.id) := by
        intro d' member
        refine List.mem_filter.2 ⟨there d' member, ?_⟩
        have apart : d'.id ≠ d.id := fun same => fresh (List.mem_map.2 ⟨d', member, same⟩)
        simpa using apart
      rw [ih left distinct ran faultless, List.filter_filter]
      refine List.filter_congr fun d' _ => ?_
      simp only [decide_not, List.map_cons, List.mem_cons, Bool.decide_or, Bool.not_or]
      exact Bool.and_comm _ _

/-- A removal that is told as done has taken away what its search found, up to its limit. -/
theorem served_all (built : (Selector.build h filter).outcome = .ok selector)
    (form : Json.encodeFields selector = .ok coded) (positive : 0 < pageSize)
    (distinct : (docs.map Stored.id).Nodup) {n : Nat}
    (served : (all pageSize limit h filter).Served (.ok site) (e.Serves h.database) docs qs t
      (.ok n)) :
    t = docs.filter fun d => d.id ∉ (upTo limit (e.matching coded docs)).map Stored.id := by
  obtain ⟨_, _, u, found, -, search, rest⟩ := Program.Served.of_bind served
  obtain ⟨rfl, rfl⟩ := Query.served_resolve built form positive search
  obtain ⟨_, _, u', outcomes, -, deletes, rest⟩ := Program.Served.of_bind rest
  obtain ⟨tallied, tally_, rest⟩ := Program.Served.of_ofExcept_bind rest
  obtain ⟨-, rfl, done⟩ := Program.Served.of_done rest
  have faultless : faults outcomes = [] := by
    rw [← failures_of_tally tally_]
    unfold settled at done
    split at done
    · rename_i none_
      exact List.isEmpty_iff.1 none_
    · cases done
  have below : (upTo limit (e.matching coded u)).Sublist u :=
    (upTo_sublist limit _).trans List.filter_sublist
  rw [List.map_map] at deletes
  exact served_collect (fun d mem => below.subset mem) (distinct.sublist (below.map _)) deletes
    faultless

end Remove

/-- A call by which no document is searched for or changed but a design document. -/
def Call.IsAside : Call → Prop
  | .find _ _ | .insert _ _ | .bulk _ _ => False
  | .delete _ id _ => (Path.designName? id).isSome = true
  | _ => True

theorem Engine.Serves.aside {db : String} {q : Request} {reply : Reply}
    (serves : e.Serves db docs q reply t) (aside : q.call.IsAside) : t = docs := by
  cases serves with
  | deleted mem undotted call =>
    rename_i d
    rw [call, Call.IsAside, d.data] at aside
    cases aside
  | _ => rfl

namespace Migration

theorem isSome_designName?_designId (design : String) :
    (Path.designName? (designId design)).isSome = true := by
  unfold designId
  split
  · assumption
  · rw [Path.designName?, Option.isSome_map, Option.isSome_iff_exists]
    exact ⟨design.toList, Text.afterLeading?_eq_some.2 (by rw [String.toList_append])⟩

section Asks

variable {permit : Call → Prop}

theorem asks_dropDesign {db design : String} (reads : permit (.get db (designId design)))
    (deletes : ∀ rev, permit (.delete db (designId design) rev)) :
    (dropDesign db design).Asks permit := by
  refine Program.asks_andThen ?_ fun r => ?_
  · refine Program.asks_bind (Program.asks_request fun coded form => ?_) fun found => ?_
    · cases form
      exact reads
    refine Program.asks_bind trivial fun rev => ?_
    refine Program.asks_bind (Program.asks_request fun coded form => ?_) fun _ => trivial
    cases form
    exact deletes rev
  · cases r with
    | ok _ => trivial
    | error f =>
      show Program.Asks _ (if f.isNotFound then _ else _)
      split <;> trivial

theorem asks_plan (lists : permit (.listIndexes h.database)) (rebuild : Bool) :
    (plan h rebuild).Asks permit := by
  have listed : (entries h.database).Asks permit := by
    refine Program.asks_bind (Program.asks_request fun coded form => ?_) fun answer => ?_
    · cases form
      exact lists
    · exact Program.asks_bind trivial fun fields => trivial
  refine Program.asks_bind ?_ fun owned => ?_
  · refine Program.asks_bind listed fun v => ?_
    exact Program.asks_bind trivial fun items => trivial
  · exact Program.asks_bind (Program.asks_ofNoted _) fun wanted => trivial

theorem asks_carryOut {p : IndexPlan}
    (drops : ∀ design ∈ designs p.drop, (dropDesign h.database design).Asks permit)
    (creates : ∀ body, permit (.createIndex h.database body)) : (carryOut h p).Asks permit := by
  refine Program.asks_bind (Program.asks_forM fun design mem => ?_) fun _ =>
    Program.asks_forM fun entry _ => ?_
  · exact Program.asks_andThen (drops design mem) fun r => by cases r <;> trivial
  · refine Program.asks_andThen (Program.asks_request fun coded form => ?_) fun r => by
      cases r <;> trivial
    obtain ⟨_, -, rfl⟩ := Except.map_eq_ok.1 form
    exact creates _

end Asks

theorem asks_migrate (rebuild : Bool) : (migrate h rebuild).Asks Call.IsAside := by
  refine Program.asks_bind (asks_plan trivial rebuild) fun p => ?_
  refine Program.asks_bind (asks_carryOut (fun design _ => ?_) fun _ => trivial) fun _ => trivial
  exact asks_dropDesign trivial fun _ => isSome_designName?_designId design

end Migration

namespace Read

theorem query_count (built : (Selector.build h filter).outcome = .ok selector) :
    (query h (Criteria.ofFilter filter (.array [.str h.idName])) .null).outcome =
      .ok ⟨.object selector, .null, .array [.str "_id"], .null⟩ := by
  have projected : Projection.project h.idName [.str h.idName] = [.str "_id"] := by
    have own : Projection.stored h.idName (.str h.idName) = .str "_id" := by
      simp [Projection.stored]
    have once : Projection.stored h.idName (.str "_id") = .str "_id" := by
      simp [Projection.stored]
    simp only [Projection.project, List.cons_append, List.nil_append, List.foldl_cons,
      List.foldl_nil, own, once]
    rfl
  have fields : Projection.build h (.array [.str h.idName]) = .ok (some [.str "_id"]) := by
    rw [← projected]
    rfl
  exact query_eq_ok.2 ⟨selector, none, _, built, rfl, fields, rfl⟩

/-- A count yields the number of documents that its filter lets through, or the limit if that is
less. -/
theorem yields_count {s : Settings} {url : Url}
    (built : (Selector.build h filter).outcome = .ok selector)
    (form : Json.encodeFields selector = .ok coded)
    (reached : site.address (.find h.database []) = .ok url) (typed : url.isTyped = true) :
    (count s h filter).Yields (.ok site)
      (fun q reply => ∀ query, q.call = .find h.database query → e.Pages docs query reply)
      (· = .ok (upTo (limitOf s) (e.matching coded docs)).length) := by
  let body : Fields := [("selector", .object selector), ("fields", .array [.str "_id"])]
  let sent : Fields := [("selector", .object coded), ("fields", .array [.str "_id"])]
  have encoded : Json.encodeFields body = .ok sent := by
    refine Json.encodeFields_cons.2 ⟨.object coded, _, ?_, rfl, rfl⟩
    exact Except.map_eq_ok.2 ⟨coded, form, rfl⟩
  have natural : window s (Criteria.ofFilter filter (.array [.str h.idName])) =
      .ofNat s.pageSize.val (limitOf s) none :=
    Query.window_of_limit s.pageSize.val (limitOf s)
  have found : (documents s h (Criteria.ofFilter filter (.array [.str h.idName])) .null).Yields
      (.ok site) (fun q reply => ∀ query, q.call = .find h.database query →
        e.Pages docs query reply)
      (· = .ok (ModelStore.window (e.results sent coded docs) 0 (limitOf s))) := by
    refine (Program.yields_ofNoted (query_count built)).bind ?_
    rw [natural, Query.fetch_eq_scan _ _ _ _ _ rfl]
    refine Scan.yields_alike sent (fun query reply alike pages => ?_) s.pageSize.property
      reached typed _ _ (Scan.stands_start _ e.place (limitOf s) none encoded rfl)
      (fun next form' => (Scan.alike_start _ _ _ _ _).encode form' encoded) rfl
    exact (pages query rfl).alike alike rfl
  have raw_ : (raw s h (Criteria.ofFilter filter (.array [.str h.idName])) .null).Yields
      (.ok site) (fun q reply => ∀ query, q.call = .find h.database query →
        e.Pages docs query reply)
      (· = .ok (ModelStore.window (e.results sent coded docs) 0 (limitOf s))) :=
    found.bind (.finished rfl rfl)
  refine raw_.bind (.finished rfl ?_)
  rw [window_zero, Engine.results, upTo_map, List.length_map]

end Read

theorem Engine.matching_left (distinct : (docs.map Stored.id).Nodup) :
    e.matching coded (docs.filter fun d =>
        d.id ∉ (upTo limit (e.matching coded docs)).map Stored.id) =
      past limit (e.matching coded docs) := by
  have nodup : ((e.matching coded docs).map Stored.id).Nodup :=
    distinct.sublist (List.filter_sublist.map _)
  have swapped : ∀ p : Stored → Bool,
      e.matching coded (docs.filter p) = (e.matching coded docs).filter p := by
    intro p
    simp only [matching, List.filter_filter, Bool.and_comm]
  rw [swapped]
  generalize e.matching coded docs = found at nodup
  have parts := upTo_append_past limit found
  generalize upTo limit found = gone at parts
  generalize past limit found = left at parts
  subst parts
  rw [List.map_append, List.nodup_append] at nodup
  have none_ : (gone.filter fun d => d.id ∉ gone.map Stored.id) = [] := by
    refine List.filter_eq_nil_iff.2 fun d mem => ?_
    have there : d.id ∈ gone.map Stored.id := List.mem_map.2 ⟨d, mem, rfl⟩
    simp only [there, not_true_eq_false, decide_false, Bool.false_eq_true, not_false_eq_true]
  have all_ : (left.filter fun d => d.id ∉ gone.map Stored.id) = left := by
    refine List.filter_eq_self.2 fun d mem => ?_
    have apart : d.id ∉ gone.map Stored.id := fun there =>
      nodup.2.2 _ there _ (List.mem_map.2 ⟨d, mem, rfl⟩) rfl
    simp only [apart, not_false_eq_true, decide_true]
  rw [List.filter_append, none_, all_, List.nil_append]

namespace Client

variable {c : Client} {name : String}

theorem count_eq (known : c.resolve name = .ok h)
    (kept : ∀ h', Entries.get? c.handles name = some h' → h' = h) :
    ∃ c', count name filter c =
      (Read.count c.settings h filter).andThen fun r => .done (.ok ⟨r, c'⟩) := by
  obtain ⟨c', settings, handled⟩ := Action.handle_eq known kept
  refine ⟨c', ?_⟩
  rw [count, Action.onModel_of_handle handled, settings]

theorem rebuild_eq (known : c.resolve name = .ok h) :
    rebuild name c = (Remove.all c.settings.pageSize.val (Read.limitOf c.settings) h .null >>=
      fun _ => Migration.migrate h true).andThen fun r => .done (.ok ⟨r, c.keep name h⟩) := by
  have refreshed : Action.refresh name c = pure ⟨.ok h, c.keep name h⟩ := by
    rw [Action.refresh, known]
  show (Action.refresh name c >>= _) = _
  rw [refreshed]
  exact Program.andThen_andThen _ _ _

theorem migrateAll_eq (migrate : String → Action IndexPlan) (name : String) (c : Client) :
    migrateAll migrate (.str name) c = migrate name c >>= fun ended => match ended.result with
      | .ok plan => pure ⟨.ok [(name, plan)], ended.client⟩
      | .error f => pure ⟨.error f, ended.client⟩ := by
  show (migrate name c).bind _ = (migrate name c).bind _
  congr 1
  funext ended
  obtain ⟨r, c⟩ := ended
  cases r <;> rfl

theorem served_automigrate (known : c.resolve name = .ok h) {plans : Entries IndexPlan}
    {c' : Client}
    (served : (automigrate (.str name) c).Served (.ok site) (e.Serves h.database) docs qs t
      (.ok ⟨.ok plans, c'⟩)) :
    ∃ rs plan, (Remove.all c.settings.pageSize.val (Read.limitOf c.settings) h .null >>=
      fun _ => Migration.migrate h true).Served (.ok site) (e.Serves h.database) docs rs t
        (.ok plan) := by
  rw [automigrate, migrateAll_eq] at served
  obtain ⟨_, _, u, ended, -, built, told⟩ := Program.Served.of_bind served
  rw [rebuild_eq known] at built
  obtain ⟨rs, _, u', r, -, done, last⟩ := Program.Served.of_andThen built
  obtain ⟨-, rfl, same⟩ := Program.Served.of_done last
  cases same
  cases r with
  | ok plan =>
    obtain ⟨-, rfl, -⟩ := Program.Served.of_done told
    exact ⟨rs, plan, done⟩
  | error f =>
    obtain ⟨-, -, wrong⟩ := Program.Served.of_done told
    cases wrong

theorem served_automigrate_of (known : c.resolve name = .ok h) {plan : IndexPlan}
    (done : (Remove.all c.settings.pageSize.val (Read.limitOf c.settings) h .null >>=
      fun _ => Migration.migrate h true).Served (.ok site) (e.Serves h.database) docs qs t
        (.ok plan)) :
    ∃ rs, (automigrate (.str name) c).Served (.ok site) (e.Serves h.database) docs rs t
      (.ok ⟨.ok [(name, plan)], c.keep name h⟩) := by
  have built : (rebuild name c).Served (.ok site) (e.Serves h.database) docs (qs ++ []) t
      (.ok ⟨.ok plan, c.keep name h⟩) := by
    rw [rebuild_eq known]
    exact done.andThen (.ended rfl)
  rw [automigrate, migrateAll_eq]
  exact ⟨_, built.bind (.ended rfl)⟩

/-- What calls about all documents of a model see of them. On every store that answers queries
with faithful pages, a count yields the number of documents that its filter lets through, or the
limit of the settings if that is less. After a migration that is told as done, with nobody else
writing, the documents of the model past the limit are left: none, if they were no more. -/
theorem sees_whole_set (known : c.resolve name = .ok h)
    (kept : ∀ h', Entries.get? c.handles name = some h' → h' = h)
    (distinct : (docs.map Stored.id).Nodup) :
    (∀ filter selector coded url, (Selector.build h filter).outcome = .ok selector →
      Json.encodeFields selector = .ok coded →
      site.address (.find h.database []) = .ok url → url.isTyped = true →
      (count name filter c).Yields (.ok site)
        (fun q reply => ∀ query, q.call = .find h.database query → e.Pages docs query reply)
        fun r => ∃ c', r = .ok ⟨.ok ((Read.limitOf c.settings).elim (e.matching coded docs).length
          (min · (e.matching coded docs).length)), c'⟩) ∧
    ∀ selector coded qs t plans c', (Selector.build h .null).outcome = .ok selector →
      Json.encodeFields selector = .ok coded →
      (automigrate (.str name) c).Served (.ok site) (e.Serves h.database) docs qs t
        (.ok ⟨.ok plans, c'⟩) →
      e.matching coded t = past (Read.limitOf c.settings) (e.matching coded docs) ∧
        (e.matching coded t = [] ↔
          ∀ n, Read.limitOf c.settings = some n → (e.matching coded docs).length ≤ n) := by
  constructor
  · intro filter selector coded url built form reached typed
    obtain ⟨c', same⟩ : ∃ c', count name filter c = _ := count_eq known kept
    rw [same, ← length_upTo]
    refine (Read.yields_count built form reached typed).andThen fun r told => ?_
    subst told
    exact .finished rfl ⟨c', rfl⟩
  · intro selector coded qs t plans c' built form served
    obtain ⟨rs, plan, done⟩ := served_automigrate known served
    obtain ⟨_, _, u, n, -, removed, migrated⟩ := Program.Served.of_bind done
    have gone := Remove.served_all built form c.settings.pageSize.property distinct removed
    have aside : t = u := migrated.held (· = u) (Migration.asks_migrate true)
      (fun s q reply v same aside serves => (serves.aside aside).trans same) rfl
    have left : e.matching coded t = past (Read.limitOf c.settings) (e.matching coded docs) := by
      rw [aside, gone, Engine.matching_left distinct]
    exact ⟨left, by rw [left, past_eq_nil_iff]⟩

def typed : ModelDefinition :=
  ⟨"Customer", [], [], ⟨none, none, some [("type", .str "customer")]⟩⟩

def shopModel : Handle := ⟨typed, "shop", none, some [("type", .str "customer")]⟩

def shop (more : Nat) : Client :=
  Shop.client none (some ⟨more + 1, Nat.succ_pos more⟩) [("Customer", typed)]

def ofType : Fields := [("type", .str "customer")]

def customer (id rev : String) (named : Path.designName? id = none) : Stored where
  id := id
  rev := rev
  fields := [("_id", .str id), ("_rev", .str rev), ("type", .str "customer")]
  named := rfl
  dated := rfl
  data := named

def pair : List Stored := [customer "5" "1-a" rfl, customer "7" "1-b" rfl]

def shopEngine : Engine where
  search _ _ := false
  place := untally
  shown fields doc := if fields.isSome then doc.take 1 else doc
  whole _ := rfl

def answering (_ : Unit) (q : Request) : Reply × Unit := (shopEngine.clerk pair 10 q, ())

def nothingListed : Reply := .answered (.showing [("indexes", .array [])])

def removed : Reply := .answered .confirming

def noted : Value := .object [("ok", .bool true)]

abbrev ServedShop {α : Type} (docs : List Stored) (p : Program α) (qs : List Request)
    (t : List Stored) (r : Except Fault α) : Prop :=
  p.Served (.ok Shop.site) (shopEngine.Serves "shop") docs qs t r

theorem served_search (limit : Nat) (found : List Value)
    (searched : ∃ q go, (Query.resolve 200 shopModel .null (some limit)).settle
        (.ok Shop.site) = ([], .sending q go) ∧
      q.call = .find "shop" [("selector", .object ofType), ("limit", .int limit)] ∧
      (go (shopEngine.clerk pair 10 q)).settle (.ok Shop.site) =
        ([], .finished (.ok found))) :
    ∃ qs, ServedShop pair (Query.resolve 200 shopModel .null (some limit)) qs pair (.ok found) := by
  obtain ⟨q, go, sends, call, ends⟩ := searched
  have pages : shopEngine.Pages pair _ (shopEngine.clerk pair 10 q) :=
    Engine.clerk_pages rfl pair (by decide) call
  exact ⟨[q], .told sends (.listed call pages) (.ended ends)⟩

theorem served_removal (docs : List Stored) (d : Stored) (mem : d ∈ docs)
    (undotted : ¬Path.HasDots "shop" d.id)
    (deletes : ∃ q go, (Remove.document shopModel (.object d.fields)).settle
        (.ok Shop.site) = ([], .sending q go) ∧ q.call = .delete "shop" d.id (.str d.rev) ∧
      (go removed).settle (.ok Shop.site) = ([], .finished (.ok noted))) :
    ∃ qs, ServedShop docs (Remove.document shopModel (.object d.fields)) qs
      (docs.filter (·.id ≠ d.id)) (.ok noted) := by
  obtain ⟨q, go, sends, call, ends⟩ := deletes
  exact ⟨[q], .told sends (.deleted mem undotted call) (.ended ends)⟩

theorem served_listing (docs : List Stored) :
    ∃ qs plan, ServedShop docs (Migration.migrate shopModel true) qs docs (.ok plan) := by
  obtain ⟨q, go, plan, sends, call, ends⟩ : ∃ q go plan,
      (Migration.migrate shopModel true).settle (.ok Shop.site) = ([], .sending q go) ∧
      q.call = .listIndexes "shop" ∧
      (go nothingListed).settle (.ok Shop.site) = ([], .finished (.ok plan)) :=
    ⟨_, _, _, rfl, rfl, rfl⟩
  refine ⟨[q], plan, .told sends (.other ?_ ?_ ?_ ?_) (.ended ends)⟩ <;> simp [call]

/-- The limit is two: both customers are counted, and a migration deletes both. -/
theorem sees_whole_set_pair :
    (∃ n c', ((count "Customer" .null (shop 1)).run (.ok Shop.site)
        ((count "Customer" .null (shop 1)).replies (.ok Shop.site) answering n ())).result =
      .ok ⟨.ok 2, c'⟩) ∧
    ∃ qs t plans c', ServedShop pair (automigrate (.str "Customer") (shop 1)) qs t
      (.ok ⟨.ok plans, c'⟩) ∧ shopEngine.matching ofType t = [] := by
  obtain ⟨url, reached, typed⟩ : ∃ url, Shop.site.address (.find "shop" []) = .ok url ∧
      url.isTyped = true := ⟨_, rfl, rfl⟩
  have known : (shop 1).resolve "Customer" = .ok shopModel := rfl
  have built : (Selector.build shopModel .null).outcome = .ok ofType := rfl
  have form : Json.encodeFields ofType = .ok ofType := rfl
  have distinct : (pair.map Stored.id).Nodup := by decide
  have kept : ∀ h', Entries.get? (shop 1).handles "Customer" = some h' → h' = shopModel := nofun
  constructor
  · have pages : ∀ (u : Unit) q query, q.call = .find "shop" query →
        shopEngine.Pages pair query (answering u q).1 :=
      fun _ q query call => Engine.clerk_pages rfl pair (by decide) call
    have yields := (sees_whole_set (e := shopEngine) known kept distinct).1 .null ofType ofType url
      built form reached typed
    obtain ⟨n, ⟨c', result⟩, -⟩ := yields.run pages ()
    exact ⟨n, c', result⟩
  · obtain ⟨_, search⟩ := served_search 2 (pair.map fun d => .object d.fields)
      ⟨_, _, rfl, rfl, rfl⟩
    obtain ⟨_, one⟩ := served_removal pair pair[0] List.mem_cons_self (by decide)
      ⟨_, _, rfl, rfl, rfl⟩
    obtain ⟨_, two⟩ := served_removal [pair[1]] pair[1] List.mem_cons_self (by decide)
      ⟨_, _, rfl, rfl, rfl⟩
    obtain ⟨_, plan, listing⟩ := served_listing []
    have rest : ServedShop [pair[1]]
        (Program.collect [Remove.document shopModel (.object pair[1].fields)]) _ []
        (.ok [.ok noted]) :=
      (two.andThen (.ended rfl)).bind (Program.Served.bind (.ended rfl) (.ended rfl))
    have deletes : ServedShop pair (Program.collect
        (pair.map fun d => Remove.document shopModel (.object d.fields))) _ []
        (.ok [.ok noted, .ok noted]) :=
      (one.andThen (.ended rfl)).bind (rest.bind (.ended rfl))
    have all : ServedShop pair (Remove.all 200 (some 2) shopModel .null) _ [] (.ok 2) :=
      search.bind (deletes.bind (.ended rfl))
    obtain ⟨qs, served⟩ := served_automigrate_of known (all.bind listing)
    have left := (sees_whole_set known kept distinct).2 _ _ _ _ _ _ built form served
    refine ⟨qs, _, _, _, served, left.2.2 ?_⟩
    rintro n ⟨⟩
    exact Nat.le_refl _

/-- The limit is one: one of two customers is counted, and one of them survives a migration. -/
theorem misses_past_limit :
    (shopEngine.matching ofType pair).length = 2 ∧
    (∃ q go c' ws, (count "Customer" .null (shop 0)).settle
        (.ok Shop.site) = ([], .sending q go) ∧
      (∀ query, q.call = .find "shop" query →
        shopEngine.Pages pair query (shopEngine.clerk pair 10 q)) ∧
      (go (shopEngine.clerk pair 10 q)).settle (.ok Shop.site) =
        (ws, .finished (.ok ⟨.ok 1, c'⟩))) ∧
    ∃ qs t plans c', ServedShop pair
        (automigrate (.str "Customer") (shop 0)) qs t (.ok ⟨.ok plans, c'⟩) ∧
      shopEngine.matching ofType t ≠ [] := by
  obtain ⟨q, go, c', ws, sends, ends⟩ : ∃ q go c' ws,
      (count "Customer" .null (shop 0)).settle (.ok Shop.site) =
        ([], .sending q go) ∧
      (go (shopEngine.clerk pair 10 q)).settle (.ok Shop.site) =
        (ws, .finished (.ok ⟨.ok 1, c'⟩)) := ⟨_, _, _, _, rfl, rfl⟩
  refine ⟨rfl, ⟨q, go, c', ws, sends, fun query call => ?_, ends⟩, ?_⟩
  · exact Engine.clerk_pages rfl pair (by decide) call
  obtain ⟨_, search⟩ := served_search 1 [.object pair[0].fields] ⟨_, _, rfl, rfl, rfl⟩
  obtain ⟨_, one⟩ := served_removal pair pair[0] List.mem_cons_self (by decide)
    ⟨_, _, rfl, rfl, rfl⟩
  obtain ⟨_, plan, listing⟩ := served_listing [pair[1]]
  have deletes : ServedShop pair
      (Program.collect [Remove.document shopModel (.object pair[0].fields)])
      _ [pair[1]] (.ok [.ok noted]) :=
    (one.andThen (.ended rfl)).bind (Program.Served.bind (.ended rfl) (.ended rfl))
  have all : ServedShop pair (Remove.all 200 (some 1) shopModel .null) _ [pair[1]] (.ok 1) :=
    search.bind (deletes.bind (.ended rfl))
  have known : (shop 0).resolve "Customer" = .ok shopModel := rfl
  obtain ⟨qs, served⟩ := served_automigrate_of known (all.bind listing)
  exact ⟨qs, _, _, _, served, nofun⟩

end Client

end ModelStore
