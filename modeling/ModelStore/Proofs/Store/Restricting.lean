import ModelStore.Proofs.Store.Calling
import ModelStore.Proofs.Store.Concurrency
import ModelStore.Proofs.Store.Projecting

/-! Reads for some of the fields of instances, from the query up to the call by name. A projection
takes one of the ways of `Projection.Route`, and on each of them what is read is what the read
for whole instances returns, each restricted to the fields that the projection keeps. -/

namespace ModelStore

open Entries (Restricts)

variable {site : Except Fault Site} {answers : Request → Reply → Prop}
  {asked? : Option (List String)}

def Shown.wanted (asked? : Option (List String)) : Value :=
  Read.namesValue (asked?.map (List.map .str))

theorem Shown.HasId.wanted_truthy {asked : List String} (hasId : HasId (some asked)) :
    (wanted (some asked)).truthy = true := by
  have mem := hasId asked rfl
  cases asked with
  | nil => cases mem
  | cons name rest => rfl

theorem Shown.eq_of_none {docs docs' : List Value} (each : List.Forall₂ (Shown none) docs docs') :
    docs = docs' := by
  induction each with
  | nil => rfl
  | cons same _ ih => rw [ih, show _ = _ from same]

namespace Query

variable {q : Query} {w : Window} {db : String} {numericId : Bool}

/-- Bodies of queries for whole documents and for some of their fields. -/
structure Asking (asked? : Option (List String)) (body body' : Fields) : Prop where
  erased : Entries.erase body' "fields" = body
  asks : Entries.get? body' "fields" = asked?.map fun asked => .array (asked.map .str)
  only : ∀ v, ("fields", v) ∈ body' → ∃ asked : List String, v = .array (asked.map .str)

theorem mem_part {name key : String} {v w : Value} :
    (key, w) ∈ part name v ↔ key = name ∧ w = v ∧ v.truthy = true := by
  unfold part
  split
  · rename_i filled
    simp [filled]
  · rename_i empty
    simp [empty]

theorem asking_body (hasId : Shown.HasId asked?) (whole : q.fields = .null) :
    Asking asked? q.body { q with fields := Shown.wanted asked? }.body := by
  obtain ⟨selector, sort, fields, useIndex⟩ := q
  cases whole
  refine ⟨?_, ?_, fun v mem => ?_⟩
  · cases asked? with
    | none =>
      simp only [body, part]
      cases sort.truthy <;> cases useIndex.truthy <;> rfl
    | some asked =>
      simp only [body, part, hasId.wanted_truthy]
      cases sort.truthy <;> cases useIndex.truthy <;> rfl
  · cases asked? with
    | none =>
      simp only [body, part]
      cases sort.truthy <;> cases useIndex.truthy <;> rfl
    | some asked =>
      simp only [body, part, hasId.wanted_truthy]
      cases sort.truthy <;> cases useIndex.truthy <;> rfl
  · simp only [body, List.cons_append, List.mem_cons, List.mem_append, mem_part] at mem
    rcases mem with wrong | (⟨wrong, -⟩ | ⟨-, same, filled⟩) | ⟨wrong, -⟩
    · exact absurd (Prod.mk.inj wrong).1 (by decide)
    · exact absurd wrong (by decide)
    · cases asked? with
      | none => cases filled
      | some asked => exact ⟨asked, same⟩
    · exact absurd wrong (by decide)

theorem asking_start {body body' : Fields} (asking : Asking asked? body body') (size : Nat)
    (limit : Option Limit) (offset : Value) :
    Scan.Along asked? (Scan.start db body size limit offset)
      (Scan.start db body' size limit offset) where
  database := rfl
  size := rfl
  limit := rfl
  bookmark := rfl
  request := by
    have unmarked : Entries.erase (Entries.erase body' "bookmark") "fields" =
        Entries.erase body "bookmark" := by
      rw [Entries.erase_erase, asking.erased]
    simp only [Scan.start]
    split
    · rw [Entries.erase_set_ne _ _ (by decide), unmarked]
    · exact unmarked
  asks := by
    have unmarked : Entries.get? (Entries.erase body' "bookmark") "fields" =
        asked?.map fun asked => .array (asked.map .str) := by
      rw [Entries.get?_erase_ne _ (by decide), asking.asks]
    simp only [Scan.start]
    split
    · rw [Entries.get?_set_ne _ _ (by decide), unmarked]
    · exact unmarked
  only := by
    intro v mem
    simp only [Scan.start] at mem
    split at mem
    · rcases Entries.mem_set mem with wrong | mem
      · exact absurd (Prod.mk.inj wrong).1 (by decide)
      · exact asking.only v (List.mem_filter.1 mem).1
    · exact asking.only v (List.mem_filter.1 mem).1
  found := .nil

theorem yields_fetch {wanted : Except Fault (List Value) → Prop} {body body' : Fields}
    (faultless : ∀ e, ¬wanted (.error e)) (hasId : Shown.HasId asked?)
    (undotted : ∀ asked, asked? = some asked → ∀ name ∈ asked, Selector.isDotted name = false)
    (asking : Asking asked? body body')
    (yields : (fetch db w numericId body).Yields site answers wanted) :
    (fetch db w numericId body').Yields site (Projecting answers) fun r =>
      ∃ docs docs', r = .ok docs' ∧ wanted (.ok docs) ∧
        List.Forall₂ (Shown asked?) docs docs' := by
  have sorted : Entries.get? body' "sort" = Entries.get? body "sort" := by
    rw [← asking.erased, Entries.get?_erase_ne _ (by decide)]
  unfold fetch at yields ⊢
  rw [sorted]
  obtain ⟨limit, bounded⟩ : ∃ limit, w.limit? = .ok limit := by
    cases bounded : w.limit? with
    | ok limit => exact ⟨limit, rfl⟩
    | error f =>
      rw [bounded] at yields
      exact absurd (yields.of_finished rfl) (faultless f)
  rw [bounded] at yields ⊢
  have scanned := Program.Yields.of_bind (p := Program.find _) yields faultless
  refine ((asking_start asking _ _ _).yields ?_ undotted scanned).andThen ?_
  · rintro e ⟨_, wrong, -⟩
    cases wrong
  rintro _ ⟨docs, docs', rfl, ⟨found, same, rest⟩, each⟩
  cases same
  simp only at rest ⊢
  split at rest
  · rename_i numeric
    rw [if_pos numeric]
    have good := rest.of_finished rfl
    cases resorted : IdOrder.resort docs (Value.ofOption (Entries.get? body "sort")) with
    | error f =>
      rw [resorted] at good
      exact absurd good (faultless f)
    | ok out =>
      rw [resorted] at good
      obtain ⟨out', resorted', each⟩ := IdOrder.shown_resort hasId each resorted
      exact .finished rfl ⟨out, out', resorted', good, each⟩
  · rename_i plain
    rw [if_neg plain]
    exact .finished rfl ⟨docs, docs', rfl, rest.of_finished rfl, each⟩

end Query

namespace Read

variable {s : Settings} {h : Handle} {cr : Criteria} {useIndex : Value} {q : Query}

theorem yields_documents {wanted : Except Fault (List Value) → Prop} {fields : Value}
    (faultless : ∀ e, ¬wanted (.error e)) (hasId : Shown.HasId asked?)
    (undotted : ∀ asked, asked? = some asked → ∀ name ∈ asked, Selector.isDotted name = false)
    (unprojected : cr.fields = .null)
    (projected : Projection.build h fields = .ok (asked?.map (List.map .str)))
    (yields : (documents s h cr useIndex).Yields site answers wanted) :
    (documents s h { cr with fields := fields } useIndex).Yields site (Projecting answers)
      fun r => ∃ docs docs', r = .ok docs' ∧ wanted (.ok docs) ∧
        List.Forall₂ (Shown asked?) docs docs' := by
  obtain ⟨q, made, fetched⟩ : ∃ q, (query h cr useIndex).outcome = .ok q ∧
      (Query.fetch h.database (window s cr) h.definition.idIsNumeric q.body).Yields site
        answers wanted :=
    (Program.Yields.of_bind (p := Program.ofNoted _) yields faultless).of_finished
      (Program.settle_ofNoted _)
  obtain ⟨selector, sort, names, built, ordered, whole, rfl⟩ := query_eq_ok.1 made
  rw [unprojected] at whole
  cases whole
  have made' : (query h { cr with fields := fields } useIndex).outcome = .ok _ :=
    query_eq_ok.2 ⟨selector, sort, _, built, ordered, projected, rfl⟩
  exact (Program.yields_ofNoted made').bind
    (Query.yields_fetch faultless hasId undotted (Query.asking_body hasId rfl) fetched)

theorem asData_null (docs : List Value) :
    asData h .null docs = docs.mapM ((Mapper.ofHandle h).fromDoc .null) := rfl

theorem exists_asked {fields : Value} {keep : String → Prop}
    (route : Projection.Route h fields keep) :
    ∃ asked? : Option (List String), Shown.HasId asked? ∧
      (∀ asked, asked? = some asked → ∀ name ∈ asked, Selector.isDotted name = false) ∧
      Projection.build h fields = .ok (asked?.map (List.map .str)) ∧
      ∀ docs docs' full, List.Forall₂ (Shown asked?) docs docs' → asData h .null docs = .ok full →
        ∃ found, asData h fields docs' = .ok found ∧
          List.Forall₂ (Restricts keep) full found := by
  cases route with
  | whole all unexcluded unlisted =>
    refine ⟨none, nofun, nofun, all, fun docs docs' full each read => ⟨full, ?_, ?_⟩⟩
    · cases Shown.eq_of_none each
      rw [← read]
      simp only [asData, unexcluded, unlisted]
      rfl
    · exact List.forall₂_same.2 fun x _ => .refl x
  | names names undotted asks unexcluded listed =>
    obtain ⟨asked, project, members⟩ := Projection.project_eq h.idName names
    have dotless : ∀ key ∈ asked, Selector.isDotted key = false := by
      intro key mem
      rcases (members key).1 mem with rfl | ⟨name, named, rfl⟩
      · rfl
      · unfold Projection.storedName
        split
        · rfl
        · exact undotted name named
    refine ⟨some asked, ?_, ?_, asks.trans (by rw [project]; rfl), ?_⟩
    · rintro _ ⟨⟩
      exact (members "_id").2 (.inl rfl)
    · rintro _ ⟨⟩
      exact dotless
    · intro docs docs' full each read
      have mapped : asData h fields docs' =
          docs'.mapM ((Mapper.ofHandle h).fromDoc (.array (names.map .str))) := by
        simp only [asData, unexcluded, listed]
        rfl
      rw [mapped]
      refine exists_mapM each (fun whole part next shown made => ?_) read
      obtain ⟨doc, part, rfl, rfl, restricts⟩ := shown
      exact Mapper.restricts_fromDoc members restricts made
  | @dropped name names all excluded =>
    refine ⟨none, nofun, nofun, all, fun docs docs' full each read => ?_⟩
    cases Shown.eq_of_none each
    have mapped : asData h fields docs =
        (asData h .null docs).map fun found => found.map (Projection.without (name :: names)) := by
      simp only [asData, excluded]
      rfl
    refine ⟨full.map (Projection.without (name :: names)), by rw [mapped, read]; rfl, ?_⟩
    rw [List.forall₂_map_right_iff]
    exact List.forall₂_same.2 fun x _ => Projection.restricts_without _ x

/-- The read for some fields yields the instances of the read for whole ones, restricted. -/
theorem yields_all {wanted : Except Fault (List Fields) → Prop} {fields : Value}
    {keep : String → Prop} (faultless : ∀ e, ¬wanted (.error e))
    (route : Projection.Route h fields keep) (unprojected : cr.fields = .null)
    (yields : (all s h cr useIndex).Yields site answers wanted) :
    (all s h { cr with fields := fields } useIndex).Yields site (Projecting answers)
      fun r => ∃ full found, r = .ok found ∧ wanted (.ok full) ∧
        List.Forall₂ (Restricts keep) full found := by
  obtain ⟨asked?, hasId, undotted, projected, restricts⟩ := exists_asked route
  have documents_ := Program.Yields.of_bind (p := documents s h cr useIndex) yields faultless
  refine (yields_documents ?_ hasId undotted unprojected projected documents_).andThen ?_
  · rintro e ⟨_, wrong, -⟩
    cases wrong
  rintro _ ⟨docs, docs', rfl, ⟨found, same, rest⟩, each⟩
  cases same
  have good : wanted (asData h cr.fields docs) := rest.of_finished rfl
  rw [unprojected] at good
  cases read : asData h .null docs with
  | error f =>
    rw [read] at good
    exact absurd good (faultless f)
  | ok full =>
    rw [read] at good
    obtain ⟨found, read', restricts⟩ := restricts docs docs' full each read
    exact .finished rfl ⟨full, found, read', good, restricts⟩

end Read

namespace Client

open Projection (Choice)

variable {c : Client} {name : String} {useIndex : Value} {choice : Choice} {criteria : Fields}

/-- A projected read is the full read restricted. If the read without a projection yields
instances, then the read with one, of a store that shows of each document the fields that it is
asked for, yields the same instances in the same order, each restricted to the fields that the
projection keeps. -/
theorem all_restricts (undotted : choice.Undotted)
    (unprojected : Entries.get? criteria "fields" = none) {wanted : List Fields → Prop}
    (full : (all name (.object criteria) useIndex c).Yields site answers fun r =>
      ∃ found c', r = .ok ⟨.ok found, c'⟩ ∧ wanted found) :
    (all name (.object (Entries.set criteria "fields" choice.value)) useIndex c).Yields site
      (Projecting answers) fun r => ∃ full found c', r = .ok ⟨.ok found, c'⟩ ∧ wanted full ∧
        List.Forall₂ (Restricts choice.Keeps) full found := by
  cases given : Criteria.ofValue (.object criteria) with
  | error f =>
    rw [all_of_error given] at full
    obtain ⟨found, c', wrong, -⟩ := full.of_finished rfl
    cases wrong
  | ok cr =>
    obtain ⟨whole, given'⟩ := Criteria.ofValue_set given unprojected choice.value
    rw [all_of_criteria given] at full
    rw [all_of_criteria given']
    rcases Action.handle_cases name c with ⟨h, c', -, handled⟩ | ⟨f, handled⟩
    · rw [Action.onModel_of_handle handled] at full ⊢
      obtain ⟨keep, route, keeps⟩ := Choice.exists_route h undotted
      have read := full.of_andThen.mono fun r ended => ended.of_finished rfl
      refine (Read.yields_all ?_ route whole read).andThen ?_
      · rintro e ⟨found, c', wrong, -⟩
        cases wrong
      rintro _ ⟨full, found, rfl, ⟨_, _, same, good⟩, each⟩
      cases same
      exact .finished rfl ⟨full, found, c', rfl, good,
        each.imp fun _ _ restricts => restricts.congr keeps⟩
    · rw [Action.onModel_of_error handled] at full
      obtain ⟨found, c', wrong, -⟩ := full.of_finished rfl
      cases wrong

def people : List Fields :=
  [[("_id", .str "1"), ("_rev", .str "1-a"), ("name", .str "Ann"), ("age", .int 30)],
    [("_id", .str "2"), ("_rev", .str "1-b"), ("name", .str "Bo")]]

def instances : List Fields :=
  [[("_rev", .str "1-a"), ("name", .str "Ann"), ("age", .int 30), ("id", .str "1")],
    [("_rev", .str "1-b"), ("name", .str "Bo"), ("id", .str "2")]]

def showing (docs : List Fields) : Reply :=
  .answered (.showing [("docs", .array (docs.map .object)), ("bookmark", .str "b")])

def counter (docs : List Fields) (q : Request) : Reply :=
  match q.call with
  | .find _ query =>
    match Entries.get? query "fields" with
    | some (.array asked) =>
      showing (docs.map fun doc => doc.filter fun e => (Value.str e.1).elem asked)
    | _ => showing docs
  | _ => showing docs

theorem projecting_counter (docs : List Fields) (q : Request) :
    Projecting (fun _ reply => reply = showing docs) q (counter docs q) := by
  obtain ⟨call, url⟩ := q
  cases call
  case find db query =>
    simp only [Projecting, counter]
    cases asks : Entries.get? query "fields" with
    | none => rfl
    | some fields =>
      refine ⟨showing docs, rfl, ?_⟩
      rintro asked rfl -
      refine .page rfl rfl rfl rfl ?_
      rw [List.map_map, List.forall₂_map_left_iff, List.forall₂_map_right_iff]
      refine List.forall₂_same.2 fun doc _ => ⟨doc, _, rfl, rfl, ?_⟩
      refine (Restricts.filter (fun key => (Value.str key).elem (asked.map .str)) doc).congr ?_
      intro key
      simp [Value.elem]
  all_goals rfl

def firstTwo : Fields := [("limit", .int 2)]

/-- Two people of whom only the names are asked for. -/
theorem all_restricts_people : ∃ n c' found,
    ((all "Customer" (.object (Entries.set firstTwo "fields" (Choice.listed ["name"]).value))
        .null Shop.desk).run (.ok Shop.site)
      ((all "Customer" (.object (Entries.set firstTwo "fields" (Choice.listed ["name"]).value))
        .null Shop.desk).replies (.ok Shop.site) (fun _ q => (counter people q, ())) n ())).result =
      .ok ⟨.ok found, c'⟩ ∧
    List.Forall₂ (Restricts (Choice.listed ["name"]).Keeps) instances found := by
  obtain ⟨q, go, c', sends, ends⟩ : ∃ q go c',
      (all "Customer" (.object firstTwo) .null Shop.desk).settle (.ok Shop.site) =
        ([], .sending q go) ∧
      (go (showing people)).settle (.ok Shop.site) =
        ([], .finished (.ok ⟨.ok instances, c'⟩)) :=
    ⟨_, _, _, rfl, rfl⟩
  have full : (all "Customer" (.object firstTwo) .null Shop.desk).Yields (.ok Shop.site)
      (fun _ reply => reply = showing people) fun r =>
        ∃ found c', r = .ok ⟨.ok found, c'⟩ ∧ found = instances := by
    refine .sending sends fun reply told => ?_
    rw [told]
    exact .finished ends ⟨instances, c', rfl, rfl⟩
  have undotted : (Choice.listed ["name"]).Undotted := by
    intro name mem
    rw [List.mem_singleton.1 mem]
    rfl
  let serve (_ : Unit) (q : Request) : Reply × Unit := (counter people q, ())
  have keeps : ∀ u q, Projecting (fun _ reply => reply = showing people) q (serve u q).1 :=
    fun _ q => projecting_counter people q
  obtain ⟨n, ⟨_, found, c', result, rfl, each⟩, -⟩ :=
    (all_restricts undotted rfl full).run keeps ()
  exact ⟨n, c', found, result, each⟩

end Client

end ModelStore
