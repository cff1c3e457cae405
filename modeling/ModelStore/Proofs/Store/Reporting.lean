import ModelStore.Index.Migration
import ModelStore.Proofs.Store.Dropping
import ModelStore.Proofs.Store.Heeding
import ModelStore.Proofs.Store.Posting
import ModelStore.Proofs.Store.Removal
import ModelStore.Proofs.Store.Sending
import ModelStore.Store.Bulk
import ModelStore.Store.Read
import ModelStore.Store.Remove
import ModelStore.Store.Save
import ModelStore.Store.Server

/-! What programs over the store make of a call that fails. Most end with a fault. Some take an
answer that a document is missing for one of their results: a look-up finds nothing, an instance
that is not there is created, a design document is gone already. -/

namespace ModelStore

open Program (strict_done strict_ofNoted strict_request strict_answer strict_find)

variable {h : Handle} {s : Settings} {past : History}

namespace Server

theorem strict_databases : databases.Strict := by
  refine (strict_request _).bind fun v => ?_
  cases v <;> exact strict_done _

theorem strict_ping : ping.Strict := by
  refine Program.Strict.rescue ?_ fun e => ⟨_, rfl⟩
  exact strict_databases.bind fun _ => strict_done _

theorem strict_connect (server database : String) : (connect server database).Strict := by
  refine fun past => Program.heeds_ask fun coded x _ fails a same => ?_
  cases x with
  | refused f => cases same
  | failed f => cases same
  | answered path answer =>
    have error : answer.isError = true := fails
    simp only [connected, error, if_true] at same
    split at same <;> cases same

theorem strict_view (db design name : String) (params : Fields) :
    (view db design name params).Strict := by
  refine (strict_request _).bind fun answer => ?_
  split <;> exact strict_done _

end Server

namespace Query

theorem strict_fetch (db : String) (w : Window) (numericId : Bool) (body : Fields) :
    (fetch db w numericId body).Strict := by
  refine (strict_done _).bind fun limit => (strict_find _).bind fun docs => ?_
  show Program.Strict (if _ then _ else _)
  split <;> exact strict_done _

theorem strict_resolve (pageSize : Nat) (filter : Value) (limit : Option Nat) :
    (resolve pageSize h filter limit).Strict :=
  (strict_ofNoted _).bind fun _ => strict_fetch _ _ _ _

end Query

namespace Read

theorem strict_documents (c : Criteria) (useIndex : Value) :
    (documents s h c useIndex).Strict :=
  (strict_ofNoted _).bind fun _ => Query.strict_fetch _ _ _ _

theorem strict_raw (c : Criteria) (useIndex : Value) : (raw s h c useIndex).Strict :=
  (strict_documents c useIndex).bind fun _ => strict_done _

theorem strict_all (c : Criteria) (useIndex : Value) : (all s h c useIndex).Strict :=
  (strict_documents c useIndex).bind fun _ => strict_done _

theorem strict_count (filter : Value) : (count s h filter).Strict :=
  (strict_raw _ _).bind fun _ => strict_done _

theorem asks_all {permit : Call → Prop} (finds : ∀ query, permit (.find h.database query))
    (c : Criteria) (useIndex : Value) : (all s h c useIndex).Asks permit :=
  Program.asks_bind (Program.asks_bind (Program.asks_ofNoted _) fun _ =>
    Query.asks_fetch finds _ _ _) fun _ => trivial

theorem reports_byId (id : Value) : (byId s h id).Reports (fun _ c x found =>
    x.IsMissing ∧ (∃ db key, c = .get db key) ∧ found = none) past := by
  unfold byId
  split
  · exact ((strict_all _ _).bind fun _ => strict_done _).reports
  rw [byKey, Program.andThen_eq_orMissing (fun doc => rfl) fun e => rfl]
  refine Program.heeds_ask_andThen (Exchange.reads_value _)
    (fun e past => (Program.strict_orMissing (fun _ => strict_done _) (strict_done _) _).reports)
    (fun coded x e form _ missing => Program.always_orMissing fun gone => ?_)
    fun coded path b doc form sound => trivial
  rintro found ⟨⟩
  cases form
  exact ⟨missing gone, ⟨_, _, rfl⟩, rfl⟩

theorem heeds_byId (id : Value) : (byId s h id).Heeds (fun _ c x r =>
    x.TellsMissing → (∃ db key, c = .get db key) → r = .ok none) past := by
  unfold byId
  split
  · have asks : (bySelector s h id).Asks fun c => ∀ db key, c ≠ .get db key :=
      Program.asks_bind (asks_all (fun _ _ _ => nofun) _ _) fun _ => trivial
    exact asks.heeds fun _ c x r other _ ⟨db, key, same⟩ => absurd same (other db key)
  rw [byKey, Program.andThen_eq_orMissing (fun doc => rfl) fun e => rfl]
  refine Program.heeds_ask_andThen (Exchange.reads_value _) (fun e past => ?_)
    (fun coded x e form refused _ => ?_) fun coded path b doc form sound => trivial
  · exact Program.heeds_orMissing (fun _ => trivial) trivial
  · exact Program.always_of_tellsMissing refused fun _ _ => rfl

end Read

namespace Write

variable {data id : Value}

theorem strict_post (doc : Fields) (kind : HttpKind) (suffix : String) :
    (post h doc kind suffix).Strict :=
  (strict_request _).retell _

theorem reports_create : (create h data).Reports (fun _ _ _ receipt =>
    ∃ f, receipt.outcome = .error f) past := by
  have posted : Program.Strict (Program.ofExcept ((Mapper.ofHandle h).toDoc data) >>= fun doc =>
      post h doc .duplicate "(duplicate?)") :=
    (strict_done _).bind fun doc => strict_post doc _ _
  refine Program.Heeds.andThen (Program.Heeds.mono (posted past) fun past c x r held => ?_)
    fun r past => ?_
  · cases r with
    | ok answer => exact (held answer rfl).elim
    | error f =>
      rintro receipt ⟨⟩
      exact ⟨f, rfl⟩
  · cases r <;> trivial

theorem strict_insert : (insert h data).Strict := by
  refine fun past => Program.Reports.bind reports_create (fun receipt past => trivial)
    fun past c x receipt failed => ?_
  obtain ⟨f, failed⟩ := failed
  show ∀ w, receipt.outcome = .ok w → False
  rw [failed]
  exact nofun

theorem strict_replace : (replace h id data).Strict :=
  (strict_done _).bind fun _ => (strict_done _).bind fun doc =>
    (strict_post doc _ _).bind fun _ => (strict_done _).bind fun _ =>
      (strict_request _).bind fun _ => strict_done _

theorem reads_current (id : Value) : Exchange.Reads fun x =>
    (x.value (.get h.database id.text)).mapError (Fault.retold fun f =>
      if f.kind = .notFound then f.withContext (some h.name) id none "" else f) := by
  refine (Exchange.reads_value _).retold fun f other => ?_
  cases f with
  | http e =>
    have kind : ¬e.kind = .notFound := of_decide_eq_false other
    simpa only [Fault.retold, if_neg kind] using other
  | _ => exact other

theorem reads_post {doc : Fields} {kind : HttpKind} {suffix : String}
    (conflict : kind.isConflict = true) : Exchange.Reads fun x =>
      (x.value (.insert h.database doc)).mapError (Fault.retold (telling h doc kind suffix)) :=
  (Exchange.reads_value _).retold fun _ => isNotFound_telling conflict

theorem heeds_mergeInto (found : Value) : (mergeInto h id data found).Heeds (fun since c x r =>
    since = past ∧ (∃ doc, c = .insert h.database doc) ∧
      ∃ e, r = .error e ∧ (e.isNotFound = true → x.IsMissing)) past := by
  refine Program.heeds_ofExcept_bind fun stored => Program.heeds_ofExcept_bind fun patch =>
    Program.heeds_ofExcept_bind fun doc => ?_
  show Program.Heeds _ ((post h doc .stale "").andThen _) _
  rw [post, Program.request, Program.retell_ask]
  refine Program.heeds_ask_andThen (reads_post rfl) (fun e past => trivial)
    (fun coded x e form _ missing => ?_)
    fun coded path answer w form sound => Program.heeds_ofExcept_bind fun rev => trivial
  obtain ⟨fields, -, rfl⟩ := Except.map_eq_ok.1 form
  exact ⟨rfl, ⟨fields, rfl⟩, e, rfl, missing⟩

theorem strict_mergeInto (found : Value) : (mergeInto h id data found).Strict := by
  refine fun past => Program.Heeds.mono (heeds_mergeInto found) ?_
  rintro since c x r ⟨-, -, e, rfl, -⟩
  exact nofun

theorem strict_merge : (merge h id data).Strict :=
  ((strict_request _).retell _).bind strict_mergeInto

end Write

namespace Bulk

theorem strict_send (docs : List Value) : (send h docs).Strict := by
  refine (strict_request _).bind fun v => ?_
  cases v <;> exact strict_done _

theorem strict_replace (data : Value) : (replace h data).Strict :=
  (strict_done _).bind fun _ => (strict_done _).bind fun _ => strict_send _

theorem strict_update (pageSize : Nat) (filter data : Value) :
    (update pageSize h filter data).Strict := by
  refine (Query.strict_resolve pageSize filter none).bind fun docs => ?_
  split
  · exact strict_done _
  · exact (strict_done _).bind fun patch => (strict_done _).bind fun docs =>
      (strict_send docs).bind fun entries => strict_done _

end Bulk

namespace Remove

theorem strict_document (doc : Value) : (document h doc).Strict :=
  (strict_done _).bind fun _ => (strict_done _).bind fun _ => (strict_done _).bind fun _ =>
    (strict_request _).retell _

theorem strict_one (pageSize : Nat) (id : Value) : (one pageSize h id).Strict := by
  refine (Query.strict_resolve pageSize _ none).bind fun docs => ?_
  split
  · exact strict_done _
  · exact (strict_document _).bind fun answer => (strict_done _).bind fun ok => strict_done _
  · exact strict_done _

theorem error_of_tally (model : String) {outcomes : List (Except Fault Value)} {e : Fault}
    (mem : .error e ∈ outcomes) {t : Tally} (told : tally outcomes = .ok t) :
    ∃ f, settled model t = .error f := by
  have failed : e ∈ t.failures := by
    rw [failures_of_tally told]
    exact List.mem_filterMap.2 ⟨.error e, mem, rfl⟩
  refine ⟨_, if_neg fun none_ => ?_⟩
  rw [List.isEmpty_iff.1 none_] at failed
  cases failed

/-- Documents are deleted one after the other whatever becomes of each, and a removal with a
deletion that failed fails. -/
theorem strict_all (pageSize : Nat) (limit : Option Nat) (filter : Value) :
    (all pageSize limit h filter).Strict := by
  refine (Query.strict_resolve pageSize filter limit).bind fun docs past => ?_
  have each : ∀ p ∈ docs.map (document h), p.Strict := by
    intro p mem
    obtain ⟨doc, -, rfl⟩ := List.mem_map.1 mem
    exact strict_document doc
  refine Program.Reports.bind (Program.reports_collect each) (fun outcomes past => ?_)
    fun past c x outcomes failed => ?_
  · exact ((strict_done _).bind fun _ => strict_done _).reports
  · obtain ⟨e, mem⟩ := failed
    cases told : tally outcomes with
    | error f => exact nofun
    | ok t =>
      obtain ⟨f, same⟩ := error_of_tally h.name mem told
      intro n ended
      cases same.symm.trans ended

end Remove

namespace Save

variable {data id : Value} {values : Fields}

theorem strict_inserted : (inserted h values).Strict :=
  Write.strict_insert.bind fun _ => strict_done _

theorem strict_created : (created h values).Strict :=
  strict_inserted.bind fun _ => strict_done _

theorem always_created :
    (created h values).Always fun r => ∀ saved, r = .ok saved → saved.isNew = true := by
  refine Program.always_andThen.2 (Program.always_of_forall fun r => ?_)
  cases r with
  | ok fields =>
    rintro saved ⟨⟩
    rfl
  | error f => exact nofun

theorem strict_save : (save h data).Strict := by
  refine (strict_done _).bind fun values => ?_
  show Program.Strict (if _ then _ else _)
  split
  · exact strict_inserted
  · exact Write.strict_replace

/-- The calls of an update that may be told that a document is missing: the one that looks for it,
and the one that sends it back once it was found. -/
inductive Misses : History → Call → Prop where
  | looking (past : History) (db key : String) : Misses past (.get db key)
  | sending (past : History) (db key path : String) {found : Answer} (doc : Fields)
      (sound : found.isError = false) :
      Misses ((.get db key, .answered path found) :: past) (.insert db doc)

theorem reports_update : (update h data).Reports (fun past c x saved =>
    x.IsMissing ∧ Misses past c ∧ saved.isNew = true) past := by
  refine Program.Strict.bind_reports (strict_done _) fun values past => ?_
  show Program.Reports _ (if _ then _ else _) _
  split
  · exact strict_created.reports
  have other : ∀ r, (Program.orMissing (fun fields => pure ⟨fields, false⟩) (created h values) r
      : Program Saved).Strict :=
    Program.strict_orMissing (fun _ => strict_done _) strict_created
  rw [Program.andThen_eq_orMissing (fun fields => rfl) fun e => rfl, Write.merge_eq,
    Program.bind_def, Program.bind, Program.andThen_andThen, Write.current, Program.request,
    Program.retell_ask]
  refine Program.heeds_ask_andThen (Write.reads_current _)
    (fun e past => (other (.error e)).reports)
    (fun coded x e form _ missing => Program.always_orMissing fun gone => ?_)
    fun coded path found v form sound => ?_
  · cases form
    exact always_created.mono fun r new saved same =>
      ⟨missing gone, .looking _ _ _, new saved same⟩
  cases form
  -- The call that sends the document finds the look-up that found it in the past.
  refine Program.Heeds.andThen (Program.Heeds.mono (Write.heeds_mergeInto v) ?_)
    fun r past => (other r).reports
  rintro since c x r ⟨rfl, ⟨doc, rfl⟩, e, rfl, missing⟩
  exact Program.always_orMissing fun gone => always_created.mono fun r new saved same =>
    ⟨missing gone, .sending _ _ _ _ _ sound, new saved same⟩

theorem strict_revision : (revision h id).Strict :=
  (strict_answer _).bind fun _ => strict_done _

theorem reports_revision : ((revision h id).rescue noDocument).Reports (fun _ c x rev =>
    x.IsMissing ∧ (∃ db key, c = .head db key) ∧ rev = none) past := by
  rw [Program.rescue, Program.andThen_eq_orMissing (fun rev => rfl) fun e => rfl, revision,
    Program.bind_def, Program.bind, Program.andThen_andThen]
  refine Program.heeds_ask_andThen (Exchange.reads_accepted _)
    (fun e past => (Program.strict_orMissing (fun _ => strict_done _) (strict_done _) _).reports)
    (fun coded x e form _ missing => Program.always_orMissing fun gone => ?_)
    fun coded path answer a form sound => trivial
  rintro rev ⟨⟩
  cases form
  exact ⟨missing gone, ⟨_, _, rfl⟩, rfl⟩

theorem reports_replace : (replace h data).Reports (fun _ c x saved =>
    x.IsMissing ∧ (∃ db key, c = .head db key) ∧ saved.isNew = true) past := by
  refine Program.Strict.bind_reports (strict_done _) fun values past => ?_
  have written : ∀ rev : Option String, Program.Strict
      (if rev.isSome then do
        let fields ← Write.replace h (idOf h values) (.object values)
        pure ⟨fields, false⟩
      else created h values) := by
    intro rev
    split
    · exact Write.strict_replace.bind fun _ => strict_done _
    · exact strict_created
  show Program.Reports _ (if _ then _ else _) _
  split
  · exact (written none).reports
  refine Program.Reports.bind reports_revision (fun rev past => (written rev).reports)
    fun past c x rev missing => ?_
  obtain ⟨missing, head, rfl⟩ := missing
  exact always_created.mono fun r new saved same => ⟨missing, head, new saved same⟩

theorem strict_currentRevision : (currentRevision h id).Strict := by
  refine (strict_revision.retell _).bind fun rev => ?_
  cases rev <;> exact strict_done _

end Save

namespace Migration

/-- The calls by which a design document is dropped: the one that looks for it, and the one that
deletes it once it was found. -/
inductive Drops : History → Call → Prop where
  | looking (past : History) (db design : String) : Drops past (.get db (designId design))
  | deleting (past : History) (db design path : String) {found : Answer} (rev : Value)
      (sound : found.isError = false) :
      Drops ((.get db (designId design), .answered path found) :: past)
        (.delete db (designId design) rev)

def dropFound (db design : String) (found : Value) : Program Bool := do
  let rev ← Program.ofExcept (found.required "_rev")
  let _ ← Program.request (.delete db (designId design) rev)
  pure true

theorem dropDesign_eq (db design : String) : dropDesign db design =
    (Program.request (.get db (designId design)) >>= dropFound db design).andThen
      (Program.orMissing pure (pure false)) :=
  Program.andThen_eq_orMissing (fun _ => rfl) fun _ => rfl

theorem reports_dropDesign (db design : String) : (dropDesign db design).Reports
    (fun past c x dropped => x.IsMissing ∧ Drops past c ∧ dropped = false) past := by
  rw [dropDesign_eq, Program.bind_def, Program.bind, Program.andThen_andThen]
  have other : ∀ r, (Program.orMissing pure (pure false) r : Program Bool).Strict :=
    Program.strict_orMissing (fun _ => strict_done _) (strict_done _)
  refine Program.heeds_ask_andThen (Exchange.reads_value _)
    (fun e past => (other (.error e)).reports)
    (fun coded x e form _ missing => Program.always_orMissing fun gone => ?_)
    fun coded path found v form sound => ?_
  · rintro dropped ⟨⟩
    cases form
    exact ⟨missing gone, .looking _ _ _, rfl⟩
  cases form
  refine Program.Heeds.andThen ?_ fun r past => (other r).reports
  refine Program.heeds_ofExcept_bind fun rev => ?_
  refine Program.heeds_ask_andThen (Exchange.reads_value _) (fun e past => trivial)
    (fun coded x e form _ missing => Program.always_orMissing fun gone => ?_)
    fun coded path answer a form _ => trivial
  rintro dropped ⟨⟩
  cases form
  exact ⟨missing gone, .deleting _ _ _ _ _ sound, rfl⟩

theorem heeds_dropDesign (db design : String) : (dropDesign db design).Heeds
    (fun past c x r => x.TellsMissing → Drops past c → r = .ok false) past := by
  rw [dropDesign_eq, Program.bind_def, Program.bind, Program.andThen_andThen]
  refine Program.heeds_ask_andThen (Exchange.reads_value _) (fun e past => ?_)
    (fun coded x e form refused _ => ?_) fun coded path found v form sound => ?_
  · exact Program.heeds_orMissing (fun _ => trivial) trivial
  · exact Program.always_of_tellsMissing refused fun _ _ => rfl
  refine Program.Heeds.andThen (Program.heeds_ofExcept_bind fun rev => ?_) fun r past => ?_
  · refine Program.heeds_ask_andThen (Exchange.reads_value _) (fun e past => trivial)
      (fun coded x e form refused _ => ?_) fun coded path answer a form _ => trivial
    exact Program.always_of_tellsMissing refused fun _ _ => rfl
  · exact Program.heeds_orMissing (fun _ => trivial) trivial

theorem strict_entries (db : String) : (entries db).Strict :=
  (strict_request _).bind fun _ => (strict_done _).bind fun _ => strict_done _

theorem strict_listing : (listing h).Strict :=
  (strict_entries _).bind fun _ => (strict_done _).bind fun _ => strict_done _

theorem strict_create (c : Candidate) : (create h c).Strict := strict_request _

theorem reports_migrate (rebuild : Bool) : (migrate h rebuild).Reports
    (fun past c x _ => x.IsMissing ∧ Drops past c) past := by
  have planned : (plan h rebuild).Strict :=
    strict_listing.bind fun _ => (strict_ofNoted _).bind fun _ => strict_done _
  have dropped : ∀ (design : String) (past : History), (discard (dropDesign h.database design)
      : Program PUnit).Reports (fun past c x _ => x.IsMissing ∧ Drops past c) past := by
    intro design past
    refine Program.Reports.bind (reports_dropDesign _ design) (fun _ past => trivial)
      fun past c x _ missing => ?_
    exact Program.always_of_forall fun _ _ _ => ⟨missing.1, missing.2.1⟩
  have carried : ∀ (p : IndexPlan) (past : History), (carryOut h p).Reports
      (fun past c x _ => x.IsMissing ∧ Drops past c) past := by
    intro p past
    refine Program.Reports.bind (Program.reports_forM fun design _ => dropped design)
      (fun _ past => Program.reports_forM fun e _ past => ?_) fun past c x _ missing =>
        Program.always_of_forall fun _ _ _ => missing
    exact ((strict_create e.2).bind fun _ => strict_done _).reports
  refine planned.bind_reports fun p past => ?_
  exact Program.Reports.bind (carried p past) (fun _ past => trivial) fun past c x _ missing =>
    Program.always_of_forall fun _ _ _ => missing

end Migration

end ModelStore
