import ModelStore.Proofs.Store.Legibility

/-! Reads after writes. A read fails as its search does, or at a document that cannot be read. A
write whose data can be read adds no such document, so that a later read fails at one that was
there before the write, or for what a document has that no caller gave it. Requests for documents
whose path has dot segments go elsewhere, and runs with such requests are left out. -/

namespace ModelStore

open Selector (Search)

variable {search : Search} {site : Site} {h : Handle} {s t u : Documents} {qs : List Request}
  {fields : Fields} {f : Fault} {settings : Settings}

namespace Program

variable {α β σ : Type} {outset : Except Fault Site} {serves : σ → Request → Reply → σ → Prop}
  {a b : σ}

theorem Served.of_void {p : Program α} {r : Except Fault Unit}
    (served : p.void.Served outset serves a qs b r) :
    ∃ x : Except Fault α, p.Served outset serves a qs b x ∧ r = x.map fun _ => () := by
  obtain ⟨first, later, t, x, rfl, ran, rest⟩ := served.of_andThen
  obtain ⟨rfl, rfl, rfl⟩ := rest.of_done
  rw [List.append_nil]
  exact ⟨x, ran, rfl⟩

theorem Served.void {p : Program α} {x : Except Fault α}
    (served : p.Served outset serves a qs b x) :
    p.void.Served outset serves a qs b (x.map fun _ => ()) := by
  have ran := served.andThen (f := fun r => .done (r.map fun _ => ())) (.ended rfl)
  rwa [List.append_nil] at ran

theorem Served.of_void_error {p : Program α}
    (served : p.void.Served outset serves a qs b (.error f)) :
    p.Served outset serves a qs b (.error f) := by
  obtain ⟨x, ran, same⟩ := served.of_void
  cases x <;> cases same
  exact ran

theorem Served.of_bind_error {p : Program α} {go : α → Program β}
    (served : (p >>= go).Served outset serves a qs b (.error f)) :
    p.Served outset serves a qs b (.error f) ∨ ∃ first later c x, qs = first ++ later ∧
      p.Served outset serves a first c (.ok x) ∧
      (go x).Served outset serves c later b (.error f) := by
  obtain ⟨first, later, c, x, rfl, ran, rest⟩ := served.of_andThen
  cases x with
  | ok x => exact .inr ⟨first, later, c, x, rfl, ran, rest⟩
  | error e =>
    obtain ⟨rfl, rfl, same⟩ := rest.of_done
    cases same
    rw [List.append_nil]
    exact .inl ran

end Program

/-- A fault at a document that cannot be read. -/
def Handle.Stops (h : Handle) (s : Documents) (f : Fault) : Prop :=
  ∃ p fields, p.database = h.database ∧ s.Shows p (.object fields) ∧
    (Mapper.ofHandle h).fromDoc .null (.object fields) = .error f

namespace Read

variable {criteria : Criteria} {useIndex id : Value}

theorem exists_of_asData_error {docs : List Value} {projection : Value}
    (whole : Projection.build h projection = .ok none)
    (refused : asData h projection docs = .error f) :
    ∃ d ∈ docs, (Mapper.ofHandle h).fromDoc .null d = .error f := by
  unfold Projection.build at whole
  unfold asData at refused
  cases dropped : Projection.excluded projection with
  | nil =>
    simp only [dropped, List.isEmpty_nil, Bool.not_true, Bool.or_false, Bool.not_eq_eq_eq_not]
      at whole refused
    split at whole
    · rename_i empty
      have listed : Projection.listed projection = .ok none := if_neg (by simpa using empty)
      rw [listed] at refused
      exact Except.exists_of_mapM_error refused
    · obtain ⟨_, -, wrong⟩ := Except.map_eq_ok.1 whole
      cases wrong
  | cons name rest =>
    simp only [dropped] at refused
    cases mapped : (Mapper.ofHandle h).fromDocs .null (.array docs) with
    | ok data =>
      rw [mapped] at refused
      cases refused
    | error e =>
      rw [mapped] at refused
      cases refused
      exact Except.exists_of_mapM_error mapped

theorem stops_all (whole : Projection.build h criteria.fields = .ok none)
    (served : (all settings h criteria useIndex).Served (.ok site) (Documents.Replies search) s qs t
      (.error f)) :
    (documents settings h criteria useIndex).Served (.ok site) (Documents.Replies search) s qs t
      (.error f) ∨ h.Stops s f := by
  refine served.of_bind_error.imp_right fun later => ?_
  obtain ⟨first, rest, u, docs, -, searched, mapped⟩ := later
  obtain ⟨found, -, -⟩ := (sends_documents settings criteria useIndex).searched searched
  obtain ⟨-, -, refused⟩ := mapped.of_done
  obtain ⟨d, mem, stops⟩ := exists_of_asData_error whole refused.symm
  obtain ⟨q, _, -, rfl, id, _, _, _, ⟨fields, rfl, shown⟩, -⟩ := found docs rfl d mem
  exact ⟨_, fields, rfl, ⟨fields, rfl, shown⟩, stops⟩

theorem stops_bySelector
    (served : (bySelector settings h id).Served (.ok site) (Documents.Replies search) s qs t
      (.error f)) :
    (documents settings h (criteriaOfId h id) .null).Served (.ok site) (Documents.Replies search) s
      qs t (.error f) ∨ h.Stops s f := by
  rcases served.of_bind_error with served | ⟨_, _, _, _, -, -, rest⟩
  · exact stops_all rfl served
  · obtain ⟨-, -, wrong⟩ := rest.of_done
    cases wrong

theorem stops_byKey
    (served : (byKey h id).Served (.ok site) (Documents.Replies search) s qs t (.error f)) :
    (Program.request (.get h.database id.text)).Served (.ok site) (Documents.Replies search) s qs t
      (.error f) ∨ h.Stops s f := by
  obtain ⟨asked, later, u, x, rfl, got, rest⟩ := served.of_andThen
  obtain ⟨-, rfl, shown⟩ := got.of_get
  cases x with
  | error e =>
    simp only at rest
    split at rest
    · obtain ⟨-, -, wrong⟩ := rest.of_done
      cases wrong
    · obtain ⟨rfl, rfl, same⟩ := rest.of_done
      cases same
      rw [List.append_nil]
      exact .inl got
  | ok d =>
    obtain ⟨-, -, refused⟩ := rest.of_done
    obtain ⟨fields, rfl, shape, here⟩ := shown d rfl
    refine .inr ⟨_, fields, rfl, ⟨fields, rfl, shape, here⟩, ?_⟩
    replace refused : (if _ then _ else _) = Except.error f := refused.symm
    split at refused
    · cases mapped : (Mapper.ofHandle h).fromDoc .null (.object fields) with
      | ok data =>
        rw [mapped] at refused
        cases refused
      | error e =>
        rw [mapped] at refused
        cases refused
        rfl
    · cases refused

end Read

inductive Retrieval where
  | all (criteria : Criteria) (useIndex : Value)
  | byId (id : Value)

namespace Retrieval

def program (settings : Settings) (h : Handle) : Retrieval → Program Unit
  | all criteria useIndex => (Read.all settings h criteria useIndex).void
  | byId id => (Read.byId settings h id).void

/-- What a read asks the store, before it maps what it is answered with. -/
def inquiry (settings : Settings) (h : Handle) : Retrieval → Program Unit
  | all criteria useIndex => (Read.documents settings h criteria useIndex).void
  | byId id =>
    if h.modelSelector.isSome then
      (Read.documents settings h (Read.criteriaOfId h id) .null).void
    else (Program.request (.get h.database id.text)).void

def Whole (h : Handle) : Retrieval → Prop
  | all criteria _ => Projection.build h criteria.fields = .ok none
  | byId _ => True

/-- A read fails as what it asks does, or at a document that cannot be read. -/
theorem stops {read : Retrieval} (whole : read.Whole h)
    (served : (read.program settings h).Served (.ok site) (Documents.Replies search) s qs t
      (.error f)) :
    (read.inquiry settings h).Served (.ok site) (Documents.Replies search) s qs t (.error f) ∨
      h.Stops s f := by
  cases read with
  | all criteria useIndex =>
    exact (Read.stops_all whole served.of_void_error).imp_left fun ran => ran.void
  | byId id =>
    have ran := served.of_void_error
    unfold Read.byId at ran
    split at ran
    · rename_i own
      have asks : inquiry settings h (byId id) =
          (Read.documents settings h (Read.criteriaOfId h id) .null).void := if_pos own
      rw [asks]
      exact (Read.stops_bySelector ran).imp_left fun ran => ran.void
    · rename_i own
      have asks : inquiry settings h (byId id) =
          (Program.request (.get h.database id.text)).void := if_neg own
      rw [asks]
      exact (Read.stops_byKey ran).imp_left fun ran => ran.void

end Retrieval

namespace Mutation

/-- What a call writes its data over, if it builds on a document: the one that it reads, or one
that its filter finds. -/
def BuildsOn (h : Handle) (search : Search) (s : Documents) (c : Content) : Mutation → Prop
  | write (.updateAttributes id _) => s.current ⟨h.database, id.text⟩ = some c
  | write (.updateOrCreate data) => ∃ fields, Mapper.plainData data = .ok fields ∧
      (Save.idOf h fields).isNull = false ∧
        s.current ⟨h.database, (Save.idOf h fields).text⟩ = some c
  | write (.updateAll _ filter _) => ∃ selector fields,
      (Selector.build h filter).outcome = .ok selector ∧
        s.Finds search h.database (Query.ofSelector selector).body (.object fields) ∧
          c = Entries.get? fields
  | _ => False

/-- Whether a call's date fields can be read: those that its data fill, and those that they leave
in a document that the call builds on. -/
structure Legible (h : Handle) (search : Search) (s : Documents) (op : Mutation) : Prop where
  fills : ∀ fields, op.Brings fields → (Mapper.ofHandle h).Fills fields
  leaves : ∀ c fields, op.BuildsOn h search s c → op.Brings fields →
    (Mapper.ofHandle h).Leaves fields c

theorem clears_of_makes {α : Type} {p : Program α}
    (makes : p.Makes search (h.Clears s) (Call.IsClear h)) {r : Except Fault Unit}
    (served : p.void.Served (.ok site) (Documents.Replies search) s qs t r) : h.Clears s t :=
  (Program.Makes.void makes).clears Handle.clears_refl served

/-- A call whose date fields can be read leaves only documents of which the same is so, and those
that were there before. -/
theorem Legible.clears {op : Mutation} (legible : op.Legible h search s) {r : Except Fault Unit}
    (served : (op.program h).Served (.ok site) (Documents.Replies search) s qs t r) :
    h.Clears s t := by
  cases op with
  | create data => exact clears_of_makes (Write.makes_clear_create legible.fills) served
  | bulkReplace data =>
    refine clears_of_makes (Bulk.makes_clear_replace ?_) served
    exact fun items item fields given mem plain =>
      legible.fills fields ⟨items, item, given, mem, plain⟩
  | destroy pageSize id => exact clears_of_makes (Remove.makes_clear_one pageSize id) served
  | destroyAll pageSize limit filter =>
    exact clears_of_makes (Remove.makes_clear_all pageSize limit filter) served
  | write op =>
    cases op with
    | replaceById id data =>
      exact clears_of_makes (Write.makes_clear_replace legible.fills) served
    | save data =>
      refine clears_of_makes (Save.makes_save (fun _ => Call.isClear_of_isLook) ?_) served
      exact fun values plain => Save.permits_clear (legible.fills values plain)
    | replaceOrCreate data =>
      refine clears_of_makes (Save.makes_replace (fun _ => Call.isClear_of_isLook) ?_) served
      exact fun values plain => Save.permits_clear (legible.fills values plain)
    -- what the last three send depends on what they read, so they are followed through the store
    | updateAttributes id data =>
      obtain ⟨x, served, -⟩ := Program.Served.of_void served
      exact Write.clears_merge legible.fills
        (fun c patch here plain => legible.leaves c patch here plain) served
    | updateOrCreate data =>
      obtain ⟨x, served, -⟩ := Program.Served.of_void served
      refine Save.clears_update legible.fills (fun c fields plain given here => ?_) served
      exact legible.leaves c fields ⟨fields, plain, given, here⟩ plain
    | updateAll pageSize filter data =>
      obtain ⟨x, served, -⟩ := Program.Served.of_void served
      refine Bulk.clears_update legible.fills (fun selector stored built met source plain => ?_)
        served
      exact legible.leaves _ source ⟨selector, stored, built, met, rfl⟩ plain

/-- What was written can be read back, as far as its date fields can. A document can be read
exactly if what stands under its declared date fields can. After a call whose own date fields can
be read, that holds of every document that was not there before, unless its id, its revision or
its mark is declared as a date. So a later read fails as its search does, or at a date field of a
document that was there before, or at one that is not the caller's to fill. -/
theorem reads_back (h : Handle) (op : Mutation) (sound : s.Sound)
    (legible : op.Legible h search s) {r : Except Fault Unit}
    (served : (op.program h).Served (.ok site) (Documents.Reached search) s qs t r) :
    (∀ v : Value, v.isNull = true ∨ v.IsDate → Mapper.Legible v.stored) ∧
    (∀ p fields, p.database = h.database → t.Shows p (.object fields) →
      ((∃ data, (Mapper.ofHandle h).fromDoc .null (.object fields) = .ok data) ↔
        (Mapper.ofHandle h).Reads (Entries.get? fields)) ∧
      (¬s.Shows p (.object fields) → ((Mapper.ofHandle h).Reads (Entries.get? fields) ↔
        (Mapper.ofHandle h).Keyed (Entries.get? fields)))) ∧
    ∀ (read : Retrieval) settings rs u f, read.Whole h →
      (read.program settings h).Served (.ok site) (Documents.Reached search) t rs u (.error f) →
        (read.inquiry settings h).Served (.ok site) (Documents.Reached search) t rs u (.error f) ∨
        ∃ p fields name v, t.Shows p (.object fields) ∧
          f = .document (.dateUnreadable h.name name v) ∧ name ∈ (Mapper.ofHandle h).dateFields ∧
          (Mapper.ofHandle h).restored (Entries.get? fields) name = some v ∧ ¬Mapper.Legible v ∧
          (s.Shows p (.object fields) ∨ ¬(Mapper.ofHandle h).Free name) := by
  obtain ⟨-, served⟩ := Program.served_reached_iff.1 served
  have clears : h.Clears s t := legible.clears served
  have later : t.Sound := served.sound sound
  have clear : ∀ p fields, p.database = h.database → t.Shows p (.object fields) →
      ¬s.Shows p (.object fields) → (Mapper.ofHandle h).Clear (Entries.get? fields) := by
    rintro p fields place ⟨_, ⟨⟩, shape, here⟩ new
    rcases clears p _ place here with before | clear
    · exact absurd ⟨fields, rfl, shape, before⟩ new
    · exact clear
  refine ⟨fun v => Mapper.legible_stored, fun p fields place shown => ?_, ?_⟩
  · obtain ⟨_, same, shape, here⟩ := id shown
    cases same
    refine ⟨Mapper.exists_fromDoc_iff shape.distinct, fun new => ?_⟩
    refine (clear p fields place shown new).reads_iff ?_
    rw [later.named p _ here]
    rfl
  · intro read settings rs u f whole ran
    obtain ⟨direct, ran⟩ := Program.served_reached_iff.1 ran
    refine (Retrieval.stops whole ran).imp (fun asks => ?_) ?_
    · exact Program.served_reached_iff.2 ⟨direct, asks⟩
    rintro ⟨p, fields, place, shown, refused⟩
    obtain ⟨_, same, shape, here⟩ := id shown
    cases same
    obtain ⟨name, mem, v, there, illegible, rfl⟩ :=
      Mapper.of_fromDoc_error shape.distinct (later.named p _ here) refused
    refine ⟨p, fields, name, v, shown, rfl, mem, there, illegible, ?_⟩
    by_contra other
    obtain ⟨new, free⟩ := not_or.1 other
    have free := not_not.1 free
    rw [free.restored] at there
    exact illegible (clear p fields place shown new name free v there)

def guests : Handle :=
  ⟨⟨"Customer", [("joined", ⟨.date, false, false, [], none⟩)], [], .default⟩, "shop", some "kind",
    none⟩

def leapDay : Value := .scalar (.date ⟨2020, 2, 29⟩)

def welcome (joined : Value) : Mutation :=
  .create (.object [("id", .str "9"), ("joined", joined)])

def guest (joined : Value) : Fields :=
  [("joined", joined), ("_id", .str "9"), ("kind", .str "Customer")]

def storedGuest (joined : Value) : Fields := guest joined ++ [("_rev", .str "2-c")]

theorem kept_guest (joined : Value) :
    Documents.kept (guest joined) "9" "2-c" = Entries.get? (storedGuest joined) := by
  funext key
  by_cases own : key = "_id"
  · subst own
    rfl
  by_cases dated : key = "_rev"
  · subst dated
    rfl
  simp [Documents.kept, storedGuest, guest, Entries.get?_cons, own, dated, Ne.symm dated]

theorem market_stores (joined stored : Value) (form : Json.encode stored = .ok stored)
    (sends : ∃ q go path, ((welcome joined).program guests).settle (.ok Shop.site) =
        ([], .sending q go) ∧
      (go (.answered (.taking "9" "2-c"))).settle (.ok Shop.site) = ([], .finished (.ok ())) ∧
      q.call = .insert "shop" (guest stored) ∧
      q.exchange (.answered (.taking "9" "2-c")) = .answered path (.taking "9" "2-c")) :
    ∃ qs t, ((welcome joined).program guests).Served (.ok Shop.site)
        (Documents.Reached fun _ _ => false) market qs t (.ok ()) ∧
      t.Shows ⟨"shop", "9"⟩ (.object (storedGuest stored)) ∧
      market.current ⟨"shop", "9"⟩ = none := by
  obtain ⟨q, go, path, sends, ends, call, arrives⟩ := sends
  have free : market.current ⟨"shop", "9"⟩ = none := by simp [market]
  have wrote : market.Performs (fun _ _ => false) q.call (.taking "9" "2-c")
      (market.put ⟨"shop", "9"⟩ (guest stored) "2-c") := by
    rw [call]
    refine .served (Documents.serves_taking rfl ?_ (by simp [market])) ?_
    · rw [Documents.revision?, free]
      rfl
    · rintro db query fields docs ⟨⟩
  have undotted : q.call.Undotted := call ▸ trivial
  refine ⟨[q], _, .told sends ⟨undotted, .of_answered wrote arrives⟩ (.ended ends), ?_, free⟩
  refine ⟨_, rfl, ⟨by simp [storedGuest, guest, Entries.keys], ?_⟩, ?_⟩
  · exact Json.encodeFields_cons.2 ⟨stored, _, form, rfl, rfl⟩
  · simp [Documents.put, kept_guest]

/-- A leap day is stored for a new customer, and can be read back. -/
theorem reads_back_guest :
    ∃ qs t fields, ((welcome leapDay).program guests).Served (.ok Shop.site)
        (Documents.Reached fun _ _ => false) market qs t (.ok ()) ∧
      t.Shows ⟨"shop", "9"⟩ (.object fields) ∧ ¬market.Shows ⟨"shop", "9"⟩ (.object fields) ∧
      ∃ data, (Mapper.ofHandle guests).fromDoc .null (.object fields) = .ok data := by
  obtain ⟨qs, t, served, shown, free⟩ := market_stores leapDay (.str (Date.text ⟨2020, 2, 29⟩))
    rfl ⟨_, _, _, rfl, rfl, rfl, rfl⟩
  have listed : ∀ name ∈ (Mapper.ofHandle guests).dateFields, name = "joined" := by
    simp [Mapper.ofHandle, guests, ModelDefinition.dateFields]
  have legible : (welcome leapDay).Legible guests (fun _ _ => false) market := by
    refine ⟨?_, fun c fields builds => builds.elim⟩
    rintro fields ⟨⟩ name own v mem
    cases listed name own.listed
    simp only [List.mem_cons, Prod.mk.injEq, List.not_mem_nil, or_false] at mem
    rcases mem with ⟨wrong, -⟩ | ⟨-, rfl⟩
    · exact absurd wrong (by decide)
    · exact Mapper.legible_stored (.inr (.date (by decide)))
  have new : ∀ d, ¬market.Shows ⟨"shop", "9"⟩ d := by
    rintro d ⟨fields, -, -, here⟩
    rw [free] at here
    cases here
  refine ⟨qs, t, _, served, shown, new _, ?_⟩
  obtain ⟨-, read, -⟩ := reads_back guests (welcome leapDay) market_sound legible served
  obtain ⟨reads, keyed⟩ := read _ _ rfl shown
  refine reads.2 ((keyed (new _)).2 fun name mem own => ?_)
  cases listed name mem
  exact absurd ⟨mem, by decide, by decide, by decide⟩ own

/-- A new customer is stored with something that is no date, and cannot be read any more. -/
theorem unreadable_guest :
    let fault : Fault := .document (.dateUnreadable "Customer" "joined" (.str "not a date"))
    ∃ qs t fields, ((welcome (.str "not a date")).program guests).Served (.ok Shop.site)
        (Documents.Reached fun _ _ => false) market qs t (.ok ()) ∧
      t.Shows ⟨"shop", "9"⟩ (.object fields) ∧
      (Mapper.ofHandle guests).fromDoc .null (.object fields) = .error fault ∧
      ∀ settings, ∃ rs, (Read.byId settings guests (.str "9")).Served (.ok Shop.site)
        (Documents.Reached fun _ _ => false) t rs t (.error fault) := by
  intro fault
  obtain ⟨qs, t, served, shown, -⟩ := market_stores (.str "not a date") (.str "not a date") rfl
    ⟨_, _, _, rfl, rfl, rfl, rfl⟩
  refine ⟨qs, t, _, served, shown, rfl, fun settings => ?_⟩
  let stored := storedGuest (.str "not a date")
  obtain ⟨q, go, path, sends, ends, call, arrives⟩ : ∃ q go path,
      (Read.byId settings guests (.str "9")).settle (.ok Shop.site) = ([], .sending q go) ∧
      (go (.answered (.showing stored))).settle (.ok Shop.site) = ([], .finished (.error fault)) ∧
      q.call = .get "shop" "9" ∧
      q.exchange (.answered (.showing stored)) = .answered path (.showing stored) :=
    ⟨_, _, _, rfl, rfl, rfl, rfl⟩
  have read : t.Performs (fun _ _ => false) q.call (.showing stored) t := by
    rw [call]
    refine .served (Documents.serves_showing shown) ?_
    rintro db query fields docs ⟨⟩
  have undotted : q.call.Undotted := by
    rw [call]
    exact (by decide : ¬Path.HasDots "shop" "9")
  exact ⟨[q], .told sends ⟨undotted, .of_answered read arrives⟩ (.ended ends)⟩

end Mutation

end ModelStore
