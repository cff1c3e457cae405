import ModelStore.Proofs.Index.Naming
import ModelStore.Proofs.Store.Ownership
import ModelStore.Proofs.Store.Wholeness

/-! What migrations delete. Of the design documents they delete only those that their model takes
for its own, and the documents that a full rebuild finds and deletes are no design documents. So
an index of another model is dropped only if its design document is claimed. -/

namespace ModelStore

theorem Path.designName?_append (name : String) :
    designName? (designPrefix ++ name) = some name := by
  rw [designName?, Text.afterLeading?_eq_some.2 String.toList_append, Option.map_some,
    String.ofList_toList]

/-- Whether a call deletes no design document but those named as a model's own. -/
def Call.DropsOwn (model : String) : Call → Prop
  | .delete _ id _ => ∀ name, Path.designName? id = some name →
      ∃ index, name = Naming.default.designName model index
  | _ => True

theorem Call.DropsOwn.claims {model other index db : String} {rev : Value}
    (own : (Call.delete db (designPrefix ++ Naming.default.designName other index) rev).DropsOwn
      model) : Naming.default.Claims model other index :=
  Naming.claims_iff_exists.2 (own _ (Path.designName?_append _))

theorem Value.get?_of_required {d v : Value} {key : String} (required : d.required key = .ok v) :
    d.get? key = some v := by
  unfold Value.required at required
  split at required
  · split at required
    · rename_i here
      cases required
      exact here
    · cases required
  · cases required

def IsData (d : Value) : Prop := ∀ id, d.get? "_id" = some (.str id) → Path.designName? id = none

/-- Whether a store finds no design documents by a query. -/
def FindsData {σ : Type} (serves : σ → Request → Reply → σ → Prop) : Prop :=
  ∀ s q reply t db query path a fields docs, serves s q reply t → q.call = .find db query →
    q.exchange reply = .answered path a → a.body = .ok (.object fields) →
    Entries.get? fields "docs" = some (.array docs) → ∀ d ∈ docs, IsData d

variable {σ : Type} {serves : σ → Request → Reply → σ → Prop} {site : Site} {s t : σ}
  {qs : List Request} {h : Handle} {model : String}

theorem FindsData.scan (data : FindsData serves) {k : Scan} {found : List Value}
    (before : ∀ d ∈ k.found, IsData d)
    (served : (Program.scan k .done).Served (.ok site) serves s qs t (.ok found)) :
    ∀ d ∈ found, IsData d := by
  induction qs generalizing k s with
  | nil =>
    rcases served.of_scan with ⟨x, next, rest⟩ | ⟨c, f, next, sent, rest⟩ |
      ⟨c, q, reply, u, later, next, sent, wrong, rest⟩
    · obtain ⟨-, -, same⟩ := Program.Served.of_done rest
      rw [← same] at next
      unfold Scan.next at next
      split at next
      · cases next
        exact before
      · cases next
    · obtain ⟨-, -, wrong⟩ := Program.Served.of_done rest
      cases wrong
    · cases wrong
  | cons q qs ih =>
    rcases served.of_scan with ⟨x, next, rest⟩ | ⟨c, f, next, sent, rest⟩ |
      ⟨c, q, reply, u, later, next, sent, same, serve, rest⟩
    · obtain ⟨wrong, -⟩ := Program.Served.of_done rest
      cases wrong
    · obtain ⟨wrong, -⟩ := Program.Served.of_done rest
      cases wrong
    · cases same
      have call : ∃ query, q.call = .find k.database query := by
        unfold Scan.next at next
        split at next
        · cases next
        · cases next
          have coded := Site.request_ok sent
          obtain ⟨query, -, call⟩ := Except.map_eq_ok.1 coded
          exact ⟨query, call.symm⟩
      obtain ⟨query, call⟩ := call
      rw [Program.afterPage, Scan.receive] at rest
      cases paged : ((q.exchange reply).value c).bind k.page with
      | error f =>
        rw [paged] at rest
        obtain ⟨-, -, wrong⟩ := Program.Served.of_done rest
        cases wrong
      | ok p =>
        obtain ⟨v, value, paged'⟩ := Except.bind_eq_ok.1 paged
        obtain ⟨path, a, answered, -, body⟩ := Exchange.value_eq_ok value
        obtain ⟨fields, rfl, docs⟩ := Scan.page_eq_ok paged'
        have page := data s q reply u _ query path a fields p.docs serve call answered body docs
        have both : ∀ d ∈ k.found ++ p.docs, IsData d :=
          List.forall_mem_append.2 ⟨before, page⟩
        rw [paged] at rest
        cases last : k.isLast p with
        | true =>
          simp only [last, if_true] at rest
          obtain ⟨-, -, same⟩ := Program.Served.of_done rest
          cases same
          exact both
        | false =>
          simp only [last, Bool.false_eq_true, if_false] at rest
          exact ih both rest

namespace Migration

/-- A migration drops only design documents that are named as its model's own. -/
theorem served_migrate {rebuild : Bool} {r : Except Fault IndexPlan}
    (served : (migrate h rebuild).Served (.ok site) serves s qs t r) :
    ∀ q ∈ qs, q.call.DropsOwn h.name := by
  refine served.forall_of_bind (fun planned => planned.asked (asks_plan trivial rebuild)) ?_
  intro _ _ p _ planned rest
  refine rest.asked (Program.asks_bind (asks_carryOut ?_ fun _ => trivial) fun _ => trivial)
  intro design mem
  obtain ⟨_, _, _, owned, -, listed, planned⟩ := Program.Served.of_bind planned
  obtain ⟨_, _, _, wanted, -, -, made⟩ := Program.Served.of_bind planned
  obtain ⟨-, -, made⟩ := Program.Served.of_done made
  obtain ⟨_, _, _, v, -, -, listed⟩ := Program.Served.of_bind listed
  obtain ⟨items, -, listed⟩ := Program.Served.of_ofExcept_bind listed
  obtain ⟨-, -, listed⟩ := Program.Served.of_done listed
  obtain ⟨index, rfl⟩ := IndexPlan.mem_designs_drop listed.symm made.symm mem
  refine asks_dropDesign trivial fun rev name named => ⟨index, ?_⟩
  have whole : designId (designPrefix ++ Naming.default.designName h.name index) =
      designPrefix ++ Naming.default.designName h.name index := by
    rw [designId, Path.designName?_append]
    rfl
  rw [whole, Path.designName?_append] at named
  exact (Option.some.inj named).symm

end Migration

namespace Query

theorem asks_fetch {permit : Call → Prop} {db : String}
    (finds : ∀ query, permit (.find db query)) (w : Window) (numericId : Bool) (body : Fields) :
    (fetch db w numericId body).Asks permit := by
  refine Program.asks_ofExcept_bind fun limit _ => Program.asks_bind ⟨finds, fun _ => trivial⟩
    fun docs => ?_
  show Program.Asks _ (if _ then _ else _)
  split <;> trivial

theorem asks_resolve {permit : Call → Prop} (finds : ∀ query, permit (.find h.database query))
    (pageSize : Nat) (filter : Value) (limit : Option Nat) :
    (resolve pageSize h filter limit).Asks permit :=
  Program.asks_bind (Program.asks_ofNoted _) fun _ => asks_fetch finds _ _ _

theorem found_of_resolve (data : FindsData serves) {pageSize : Nat} {filter : Value}
    {limit : Option Nat} {found : List Value}
    (served : (resolve pageSize h filter limit).Served (.ok site) serves s qs t (.ok found)) :
    ∀ d ∈ found, IsData d := by
  obtain ⟨_, _, _, selector, -, -, rest⟩ := served.of_bind
  rw [window_of_limit, fetch_eq_scan _ _ _ _ _ rfl] at rest
  exact data.scan (fun d mem => by cases mem) rest

end Query

namespace Remove

theorem asks_document {d : Value} (data : IsData d) :
    (document h d).Asks (Call.DropsOwn model) := by
  refine Program.asks_ofExcept_bind fun v required => ?_
  refine Program.asks_ofExcept_bind fun rev _ => ?_
  refine Program.asks_ofExcept_bind fun name text => ?_
  rw [Write.eq_str_of_idText text] at required
  refine (Program.asks_request fun call form => ?_).retell _
  cases form
  intro design wrong
  rw [data name (Value.get?_of_required required)] at wrong
  cases wrong

theorem asked_of_all (data : FindsData serves) {pageSize : Nat} {limit : Option Nat}
    {filter : Value} {r : Except Fault Nat}
    (served : (all pageSize limit h filter).Served (.ok site) serves s qs t r) :
    ∀ q ∈ qs, q.call.DropsOwn model := by
  refine served.forall_of_bind
    (fun search => search.asked (Query.asks_resolve (fun _ => trivial) _ _ _)) ?_
  intro _ _ found _ search rest
  have each := Query.found_of_resolve data search
  refine rest.asked (Program.asks_bind (Program.asks_collect fun p mem => ?_) fun outcomes => ?_)
  · obtain ⟨d, member, rfl⟩ := List.mem_map.1 mem
    exact asks_document (each d member)
  · exact Program.asks_bind trivial fun tally => trivial

end Remove

namespace Client

variable {c : Client} {name : String}

theorem updateIndexes_eq (known : c.resolve name = .ok h) :
    updateIndexes name c =
      (Migration.migrate h false).andThen fun r => .done (.ok ⟨r, c.keep name h⟩) := by
  have refreshed : Action.refresh name c = pure ⟨.ok h, c.keep name h⟩ := by
    rw [Action.refresh, known]
  show (Action.refresh name c >>= _) = _
  rw [refreshed]
  exact Program.andThen_andThen _ _ _

theorem asked_of_migrateAll {migrate : String → Action IndexPlan} {p : Program IndexPlan}
    {c' : Client} (same : migrate name c = p.andThen fun r => .done (.ok ⟨r, c'⟩))
    {P : Request → Prop} (each : ∀ qs t r, p.Served (.ok site) serves s qs t r → ∀ q ∈ qs, P q)
    {r : Except Fault (Ended (Entries IndexPlan))}
    (served : (migrateAll migrate (.str name) c).Served (.ok site) serves s qs t r) :
    ∀ q ∈ qs, P q := by
  rw [migrateAll_eq, same] at served
  refine served.forall_of_bind (fun ran => ?_) fun {_ _ ended _} _ told => ?_
  · obtain ⟨asked, none_, _, _, rfl, ended, last⟩ := Program.Served.of_andThen ran
    obtain ⟨rfl, -, -⟩ := Program.Served.of_done last
    rw [List.append_nil]
    exact each _ _ _ ended
  · obtain ⟨result, _⟩ := ended
    cases result with
    | ok plan =>
      obtain ⟨rfl, -, -⟩ := Program.Served.of_done told
      exact nofun
    | error f =>
      obtain ⟨rfl, -, -⟩ := Program.Served.of_done told
      exact nofun

theorem asked_of_autoupdate (known : c.resolve name = .ok h)
    {r : Except Fault (Ended (Entries IndexPlan))}
    (served : (autoupdate (.str name) c).Served (.ok site) serves s qs t r) :
    ∀ q ∈ qs, q.call.DropsOwn h.name :=
  asked_of_migrateAll (updateIndexes_eq known) (fun _ _ _ ran => Migration.served_migrate ran)
    served

theorem asked_of_automigrate (data : FindsData serves) (known : c.resolve name = .ok h)
    {r : Except Fault (Ended (Entries IndexPlan))}
    (served : (automigrate (.str name) c).Served (.ok site) serves s qs t r) :
    ∀ q ∈ qs, q.call.DropsOwn h.name :=
  asked_of_migrateAll (rebuild_eq known) (fun _ _ _ ran => ran.forall_of_bind
    (fun removed => Remove.asked_of_all data removed)
    fun _ migrated => Migration.served_migrate migrated) served

/-- Whether a model takes the index of another for its own comes down to their names. Of all
entries in design documents of the other model those are selected whose name begins with the
model's stem, and there are such names only if one of the models' names goes on from the other's
with what stands between names. The default words let it do so only with the word between them.
A migration of the model, however it ends, deletes no other design documents of the other model. -/
theorem drops_claimed {model other : String} (different : model ≠ other) :
    (∀ n entries mine entry index, ListedIndex.selectOwned n model entries = .ok mine →
      entry ∈ entries →
      entry.get? "ddoc" = some (.str (designPrefix ++ n.designName other index)) →
      (entry ∈ mine ↔ n.Claims model other index)) ∧
    (∀ n entries listing index, ListedIndex.listOwned n model entries = .ok listing →
      (∃ e ∈ listing, e.2.design = .str (designPrefix ++ n.designName other index)) →
      n.Claims model other index) ∧
    (∀ n : Naming, (∃ index, n.Claims model other index) ↔
      n.Continues model other ∨ n.Continues other model) ∧
    ((∃ index, Naming.default.Claims model other index) ↔
      Naming.GoesOn model other ∨ Naming.GoesOn other model) ∧
    ∀ {σ : Type} (serves : σ → Request → Reply → σ → Prop) (site : Site) (c : Client) name h s t qs
      (r : Except Fault (Ended (Entries IndexPlan))),
      FindsData serves → c.resolve name = .ok h → h.name = model →
      (autoupdate (.str name) c).Served (.ok site) serves s qs t r ∨
        (automigrate (.str name) c).Served (.ok site) serves s qs t r →
      ∀ q ∈ qs, ∀ db index rev,
        q.call = .delete db (designPrefix ++ Naming.default.designName other index) rev →
        Naming.default.Claims model other index := by
  refine ⟨fun n entries mine entry index selected mem design =>
      ListedIndex.mem_of_selectOwned_iff selected mem design, ?_,
    fun n => Naming.exists_claims_iff, ?_, ?_⟩
  · rintro n entries listing index listed ⟨e, mem, design⟩
    obtain ⟨own, named⟩ := ListedIndex.isOf_of_listOwned listed e mem
    refine Naming.claims_iff_exists.2 ⟨own, ?_⟩
    simpa only [Value.scalar.injEq, Scalar.str.injEq, String.append_right_inj] using
      design.symm.trans named
  · rw [Naming.exists_claims_iff, Naming.continues_default_iff different,
      Naming.continues_default_iff different.symm]
  · rintro σ serves site c name h s t qs r data known rfl served q mem db index rev call
    have own : q.call.DropsOwn h.name := by
      rcases served with updated | rebuilt
      · exact asked_of_autoupdate known updated q mem
      · exact asked_of_automigrate data known rebuilt q mem
    rw [call] at own
    exact own.claims

def bare (model : String) : Client :=
  { shop 0 with registry := [(model, ⟨model, [], [], ⟨none, none, some []⟩⟩)] }

def listed (model index : String) : Value :=
  .object [("ddoc", .str (designPrefix ++ Naming.default.designName model index)),
    ("name", .str index), ("type", .str "json"),
    ("def", .object [("fields", .array [.object [("a", .str "asc")]])])]

def shelf (entries : List Value) (q : Request) : Reply :=
  let body : Fields := match q.call with
    | .listIndexes _ => [("indexes", .array entries)]
    | .find _ _ => [("docs", .array [])]
    | _ => [("_rev", .str "1-a"), ("ok", .bool true)]
  .answered (.showing body)

def ServesShelf (entries : List Value) (_ : Unit) (q : Request) (reply : Reply) (_ : Unit) : Prop :=
  reply = shelf entries q

theorem shelf_findsData (entries : List Value) : FindsData (ServesShelf entries) := by
  rintro _ q _ _ db query path a fields docs rfl call answered body page d mem
  have found : shelf entries q = .answered (.listing []) := by
    rw [shelf, call]
    rfl
  rw [found, Request.exchange] at answered
  split at answered
  · cases answered
    cases body
    cases page
    cases mem
  · cases answered

theorem served_shelf (entries : List Value) (id : String) (runs : ∃ q₁ go₁ q₂ go₂ q₃ go₃ plan,
    (autoupdate (.str "Foo") (bare "Foo")).settle (.ok Shop.site) = ([], .sending q₁ go₁) ∧
    (go₁ (shelf entries q₁)).settle (.ok Shop.site) = ([], .sending q₂ go₂) ∧
    (go₂ (shelf entries q₂)).settle (.ok Shop.site) = ([], .sending q₃ go₃) ∧
    q₃.call = .delete "shop" id (.str "1-a") ∧
    (go₃ (shelf entries q₃)).settle (.ok Shop.site) = ([], .finished (.ok plan))) :
    ∃ qs r, (autoupdate (.str "Foo") (bare "Foo")).Served (.ok Shop.site)
      (ServesShelf entries) () qs () r ∧ ∃ q ∈ qs, q.call = .delete "shop" id (.str "1-a") := by
  obtain ⟨q₁, go₁, q₂, go₂, q₃, go₃, plan, lists, gets, deletes, call, ends⟩ := runs
  refine ⟨[q₁, q₂, q₃], .ok plan, ?_, q₃, by simp, call⟩
  exact .told (t := ()) lists rfl (.told (t := ()) gets rfl (.told (t := ()) deletes rfl
    (.ended ends)))

def shared : List Value := [listed "FooBar" "b_index", listed "Foo" "a_index"]

/-- A migration of one model drops its index and leaves that of a model whose name goes on from
its own. -/
theorem drops_claimed_apart :
    ∃ qs r, (autoupdate (.str "Foo") (bare "Foo")).Served (.ok Shop.site)
        (ServesShelf shared) () qs () r ∧
      (∃ q ∈ qs, q.call =
        .delete "shop" "_design/LBModel__Foo__LBIndex__a_index" (.str "1-a")) ∧
      ∀ q ∈ qs, ∀ db index rev,
        q.call ≠ .delete db (designPrefix ++ Naming.default.designName "FooBar" index) rev := by
  obtain ⟨qs, r, served, dropped⟩ := served_shelf shared "_design/LBModel__Foo__LBIndex__a_index"
    ⟨_, _, _, _, _, _, _, rfl, rfl, rfl, rfl, rfl⟩
  have apart := drops_claimed (show "Foo" ≠ "FooBar" by decide)
  obtain ⟨-, -, -, default_, migrated⟩ := apart
  refine ⟨qs, r, served, dropped, fun q mem db index rev call => ?_⟩
  have claims := migrated (ServesShelf shared) Shop.site (bare "Foo") "Foo" _ () () qs r
    (shelf_findsData shared) rfl rfl (.inl served) q mem db index rev call
  rcases default_.1 ⟨index, claims⟩ with ⟨rest, goes, -⟩ | ⟨rest, goes, -⟩
  · have chars := congrArg String.toList goes
    simp [Naming.word, String.toList_append] at chars
  · have chars := congrArg String.toList goes
    simp [Naming.word, String.toList_append] at chars

/-- A model takes the index of a model whose name goes on with the word between names. -/
theorem drops_foreign_index :
    "Foo" ≠ "Foo__LBIndex__Bar" ∧
    ListedIndex.selectOwned Naming.default "Foo" [listed "Foo__LBIndex__Bar" "a_index"] =
      .ok [listed "Foo__LBIndex__Bar" "a_index"] ∧
    ∃ qs r, (autoupdate (.str "Foo") (bare "Foo")).Served (.ok Shop.site)
        (ServesShelf [listed "Foo__LBIndex__Bar" "a_index"]) () qs () r ∧
      ∃ q ∈ qs, q.call = .delete "shop"
        (designPrefix ++ Naming.default.designName "Foo__LBIndex__Bar" "a_index") (.str "1-a") :=
  ⟨by decide, rfl, served_shelf _ _ ⟨_, _, _, _, _, _, _, rfl, rfl, rfl, rfl, rfl⟩⟩

end Client

end ModelStore
