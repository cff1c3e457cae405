import ModelStore.Client.Discovery
import ModelStore.Client.Instances
import ModelStore.Client.Migrations
import ModelStore.Proofs.Store.Calling
import ModelStore.Proofs.Store.Reporting

/-! The commands of a client, and how each of them ends after a call that fails. -/

namespace ModelStore

namespace Action

variable {α β : Type} {allowed : History → Call → Exchange → Except Fault α → Prop}
  {excuse : History → Call → Exchange → α → Prop}
  {excuse' : History → Call → Exchange → β → Prop} {x : Action α} {f : α → Action β}

/-- After a call that fails an action ends only as it is allowed to. -/
def Heeds (allowed : History → Call → Exchange → Except Fault α → Prop) (x : Action α) : Prop :=
  ∀ c past, (x c).Heeds (fun past call e r => allowed past call e (r.bind Ended.result)) past

theorem Heeds.mono (heeds : x.Heeds allowed)
    {wider : History → Call → Exchange → Except Fault α → Prop}
    (weaker : ∀ past call e r, allowed past call e r → wider past call e r) : x.Heeds wider :=
  fun c past => Program.Heeds.mono (heeds c past) fun past call e _ => weaker past call e _

theorem Heeds.and {also : History → Call → Exchange → Except Fault α → Prop}
    (heeds : x.Heeds allowed) (heeds' : x.Heeds also) :
    x.Heeds fun past call e r => allowed past call e r ∧ also past call e r :=
  fun c past => Program.Heeds.and (heeds c past) (heeds' c past)

theorem Heeds.map {g : α → β} {allowed : History → Call → Exchange → Except Fault β → Prop}
    (heeds : x.Heeds fun past call e r => allowed past call e (r.map g)) :
    (x >>= fun a => pure (g a)).Heeds allowed := by
  refine fun c past => Program.Heeds.andThen (Program.Heeds.mono (heeds c past)
    fun past call e r held => ?_) fun r past => ?_
  · rcases r with fault | ⟨fault | a, c⟩ <;> exact held
  · rcases r with fault | ⟨fault | a, c⟩ <;> trivial

theorem heeds_perform {p : Program α} (heeds : ∀ past, p.Heeds allowed past) :
    (perform p).Heeds allowed := by
  refine fun c past => Program.Heeds.andThen (Program.Heeds.andThen (heeds past)
    fun r past => trivial) fun r past => ?_
  cases r <;> trivial

theorem heeds_onModel {name : String} {p : Settings → Handle → Program α}
    (heeds : ∀ s h past, (p s h).Heeds allowed past) : (onModel name p).Heeds allowed := by
  intro c past
  rcases handle_cases name c with ⟨h, c', -, found⟩ | ⟨f, lost⟩
  · rw [onModel_of_handle found]
    exact Program.Heeds.andThen (heeds _ h past) fun r past => trivial
  · rw [onModel_of_error lost]
    trivial

/-- After a failed call an action ends with a fault, or else that call is excused. -/
def Reports (excuse : History → Call → Exchange → α → Prop) (x : Action α) : Prop :=
  x.Heeds fun past call e r => ∀ a, r = .ok a → excuse past call e a

def Strict (x : Action α) : Prop := x.Reports fun _ _ _ _ => False

theorem Reports.mono (reports : x.Reports excuse)
    {wider : History → Call → Exchange → α → Prop}
    (weaker : ∀ past call e a, excuse past call e a → wider past call e a) : x.Reports wider :=
  Heeds.mono reports fun past call e _ held a same => weaker past call e a (held a same)

theorem Strict.reports (strict : x.Strict) : x.Reports excuse :=
  Reports.mono strict fun _ _ _ _ => False.elim

theorem Reports.bind (reports : x.Reports excuse) (next : ∀ a, (f a).Reports excuse')
    (excused : ∀ past call e a, excuse past call e a → ∀ c, (f a c).Always fun r =>
      ∀ b, r.bind Ended.result = .ok b → excuse' past call e b) :
    (x >>= f).Reports excuse' := by
  refine fun c past => Program.Heeds.andThen (Program.Heeds.mono (reports c past)
    fun past call e r held => ?_) fun r past => ?_
  · rcases r with fault | ⟨fault | a, c⟩
    · exact nofun
    · exact nofun
    · exact excused past call e a (held a rfl) c
  · rcases r with fault | ⟨fault | a, c⟩
    · trivial
    · trivial
    · exact next a c past

theorem Strict.bind_reports (strict : x.Strict) (next : ∀ a, (f a).Reports excuse') :
    (x >>= f).Reports excuse' :=
  Reports.bind strict next fun _ _ _ _ => False.elim

theorem Strict.bind (strict : x.Strict) (next : ∀ a, (f a).Strict) : (x >>= f).Strict :=
  strict.bind_reports next

theorem strict_ofExcept (r : Except Fault α) : (ofExcept r).Strict := fun _ _ => trivial

theorem strict_client : client.Strict := fun _ _ => trivial

theorem strict_refresh (name : String) : (refresh name).Strict := by
  intro c past
  unfold refresh
  split <;> trivial

theorem strict_databaseOf (name : Option String) : (databaseOf name).Strict :=
  strict_client.bind fun _ => strict_ofExcept _

theorem reports_perform {p : Program α} (reports : ∀ past, p.Reports excuse past) :
    (perform p).Reports excuse := heeds_perform reports

theorem reports_onModel {name : String} {p : Settings → Handle → Program α}
    (reports : ∀ s h past, (p s h).Reports excuse past) : (onModel name p).Reports excuse :=
  heeds_onModel reports

theorem Reports.map {g : α → β} (reports : x.Reports excuse)
    (excused : ∀ past call e a, excuse past call e a → excuse' past call e (g a)) :
    (x >>= fun a => pure (g a)).Reports excuse' := by
  refine Heeds.map (Heeds.mono reports fun past call e r held b same => ?_)
  obtain ⟨a, given, rfl⟩ := Except.map_eq_ok.1 same
  exact excused past call e a (held a given)

theorem strict_onModel {name : String} {p : Settings → Handle → Program α}
    (strict : ∀ s h, (p s h).Strict) : (onModel name p).Strict :=
  reports_onModel fun s h past => strict s h past

end Action

/-- What a command tells its caller: there is no such thing, something new is there, or what was
asked for is done. -/
inductive Outcome where
  | absent | created | done

inductive Command where
  | connectTo (db : Option String)
  | connect
  | start
  | ping
  | databases
  | viewDocs (design name : String) (params : Value) (db : Option String)
  | runQuery (query limit offset : Value) (numericId : Bool) (db : Option String)
  | allRaw (model : String) (criteria useIndex : Value)
  | all (model : String) (criteria useIndex : Value)
  | findById (model : String) (id : Value)
  | contains (model : String) (id : Value)
  | count (model : String) (filter : Value)
  | create (model : String) (data : Value)
  | save (model : String) (data : Value)
  | updateAttributes (model : String) (id data : Value)
  | updateOrCreate (model : String) (data : Value)
  | replaceOrCreate (model : String) (data : Value)
  | replaceById (model : String) (id data : Value)
  | updateAll (model : String) (filter data : Value)
  | bulkReplace (model : String) (data : Value)
  | destroy (model : String) (id : Value)
  | destroyAll (model : String) (filter : Value)
  | currentRevision (model : String) (id : Value)
  | autoupdate (models : Value)
  | automigrate (models : Value)
  | indexes (db : Option String)
  | modelIndexes (model : String)
  | createIndex (model name : String) (fields : Value)
  | deleteIndex (model design : String)

namespace Command

open ModelStore.Action (heeds_onModel reports_onModel reports_perform strict_client
  strict_databaseOf strict_ofExcept strict_onModel strict_refresh)

def telling {α : Type} (x : Action α) (outcome : α → Outcome) : Action Outcome := do
  let a ← x
  pure (outcome a)

def presence (there : Bool) : Outcome := if there then .done else .absent

def saving (saved : Save.Saved) : Outcome := if saved.isNew then .created else .done

def action : Command → Action Outcome
  | connectTo db => telling (Client.connectTo db) fun _ => .done
  | connect => telling Client.connect fun _ => .done
  | start => telling Client.start fun _ => .done
  | ping => telling Client.ping fun _ => .done
  | databases => telling Client.databases fun _ => .done
  | viewDocs design name params db =>
    telling (Client.viewDocs design name params db) fun _ => .done
  | runQuery query limit offset numericId db =>
    telling (Client.runQuery query limit offset numericId db) fun _ => .done
  | allRaw model criteria useIndex => telling (Client.allRaw model criteria useIndex) fun _ => .done
  | all model criteria useIndex => telling (Client.all model criteria useIndex) fun _ => .done
  | findById model id => telling (Client.findById model id) fun found => presence found.isSome
  | contains model id => telling (Client.contains model id) presence
  | count model filter => telling (Client.count model filter) fun _ => .done
  -- The receipt of an insert is raised if it tells of a fault.
  | create model data => do
    let receipt ← Client.create model data
    telling (Action.ofExcept receipt.outcome) fun _ => .created
  | save model data => telling (Client.save model data) fun _ => .done
  | updateAttributes model id data =>
    telling (Client.updateAttributes model id data) fun _ => .done
  | updateOrCreate model data => telling (Client.updateOrCreate model data) saving
  | replaceOrCreate model data => telling (Client.replaceOrCreate model data) saving
  | replaceById model id data => telling (Client.replaceById model id data) fun _ => .done
  | updateAll model filter data => telling (Client.updateAll model filter data) fun _ => .done
  | bulkReplace model data => telling (Client.bulkReplace model data) fun _ => .done
  | destroy model id => telling (Client.destroy model id) fun _ => .done
  | destroyAll model filter => telling (Client.destroyAll model filter) fun _ => .done
  | currentRevision model id => telling (Client.currentRevision model id) fun _ => .done
  | autoupdate models => telling (Client.autoupdate models) fun _ => .done
  | automigrate models => telling (Client.automigrate models) fun _ => .done
  | indexes db => telling (Client.indexes db) fun _ => .done
  | modelIndexes model => telling (Client.modelIndexes model) fun _ => .done
  | createIndex model name fields => telling (Client.createIndex model name fields) fun _ => .done
  | deleteIndex model design => telling (Client.deleteIndex model design) presence

/-- How a command ends when it is run by itself. -/
def result (cmd : Command) (c : Client) (site : Site) (replies : List Reply) :
    Except Fault Outcome :=
  ((cmd.action c).run (.ok site) replies).result.bind Ended.result

def exchanges (cmd : Command) (c : Client) (site : Site) (replies : List Reply) : History :=
  (cmd.action c).exchanges (.ok site) replies

/-- When it is no fault that a call is told that its document is missing. -/
inductive Excuses : Command → History → Call → Outcome → Prop where
  | findById (model : String) (id : Value) (past : History) (db key : String) :
      Excuses (.findById model id) past (.get db key) .absent
  | contains (model : String) (id : Value) (past : History) (db key : String) :
      Excuses (.contains model id) past (.get db key) .absent
  | updateOrCreate (model : String) (data : Value) {past : History} {call : Call}
      (misses : Save.Misses past call) : Excuses (.updateOrCreate model data) past call .created
  | replaceOrCreate (model : String) (data : Value) (past : History) (db key : String) :
      Excuses (.replaceOrCreate model data) past (.head db key) .created
  | autoupdate (models : Value) {past : History} {call : Call}
      (drops : Migration.Drops past call) : Excuses (.autoupdate models) past call .done
  | automigrate (models : Value) {past : History} {call : Call}
      (drops : Migration.Drops past call) : Excuses (.automigrate models) past call .done
  | deleteIndex (model design : String) {past : History} {call : Call}
      (drops : Migration.Drops past call) : Excuses (.deleteIndex model design) past call .absent

/-- The calls of a command that are told that a document is missing, and are excused. -/
def excuse (cmd : Command) (past : History) (call : Call) (x : Exchange) (o : Outcome) : Prop :=
  x.IsMissing ∧ cmd.Excuses past call o

variable {cmd : Command} {α : Type} {x : Action α} {outcome : α → Outcome}

theorem reports_telling {tolerated : History → Call → Exchange → α → Prop}
    (reports : x.Reports tolerated)
    (excused : ∀ past call e a, tolerated past call e a → cmd.excuse past call e (outcome a)) :
    (telling x outcome).Reports cmd.excuse := reports.map excused

theorem reports_strict (strict : x.Strict) : (telling x outcome).Reports cmd.excuse :=
  reports_telling strict fun _ _ _ _ => False.elim

theorem strict_connectTo (db : Option String) : (Client.connectTo db).Strict := by
  refine strict_client.bind fun c => (strict_ofExcept _).bind fun server =>
    (strict_ofExcept _).bind fun _ => ?_
  cases db with
  | some db => exact reports_perform (Server.strict_connect server db)
  | none => exact strict_ofExcept _

theorem strict_connect : Client.connect.Strict :=
  strict_client.bind fun _ => (strict_ofExcept _).bind fun db =>
    strict_connectTo (some db)

theorem reports_updateIndexes (name : String) : (Client.updateIndexes name).Reports
    fun past call e _ => e.IsMissing ∧ Migration.Drops past call :=
  (strict_refresh name).bind_reports fun _ =>
    reports_perform fun _ => Migration.reports_migrate false

theorem reports_rebuild (name : String) : (Client.rebuild name).Reports
    fun past call e _ => e.IsMissing ∧ Migration.Drops past call :=
  (strict_refresh name).bind_reports fun _ => strict_client.bind_reports fun _ =>
    reports_perform fun _ => (Remove.strict_all _ _ _).bind_reports fun _ _ =>
      Migration.reports_migrate true

theorem reports_migrateAll {migrate : String → Action IndexPlan}
    {excused : History → Call → Exchange → Prop}
    (each : ∀ name, (migrate name).Reports fun past call e _ => excused past call e)
    (models : Value) :
    (Client.migrateAll migrate models).Reports fun past call e _ => excused past call e := by
  have all : ∀ names plans, (Client.migrateEach migrate names plans).Reports
      fun past call e _ => excused past call e := by
    intro names
    induction names with
    | nil => exact fun plans => (strict_ofExcept _).reports
    | cons v rest ih =>
      refine fun plans => (strict_ofExcept _).bind_reports fun name => ?_
      exact (each name).bind (fun plan => ih _) fun past call e _ held c =>
        Program.always_of_forall fun _ _ _ => held
  exact strict_client.bind_reports fun c =>
    (strict_ofExcept _).bind_reports fun names => all names []

theorem strict_start : Client.start.Strict := by
  refine strict_client.bind fun c => ?_
  split
  · exact strict_ofExcept _
  · exact strict_connect

theorem reports_findById (model : String) (id : Value) : (Client.findById model id).Reports
    fun _ call e found => e.IsMissing ∧ (∃ db key, call = .get db key) ∧ found = none :=
  reports_onModel fun _ _ _ => Read.reports_byId id

theorem reports_contains (model : String) (id : Value) : (Client.contains model id).Reports
    fun _ call e there => e.IsMissing ∧ (∃ db key, call = .get db key) ∧ there = false :=
  (reports_findById model id).map fun past call e found missing =>
    ⟨missing.1, missing.2.1, by rw [missing.2.2]; rfl⟩

theorem reports_create (model : String) (data : Value) :
    (create model data).action.Reports cmd.excuse := by
  have inserted : (Client.create model data).Reports
      fun _ _ _ receipt => ∃ f, receipt.outcome = .error f :=
    reports_onModel fun _ _ _ => Write.reports_create
  refine inserted.bind (fun receipt => reports_strict (strict_ofExcept _))
    fun past call e receipt failed c => ?_
  obtain ⟨f, failed⟩ := failed
  rw [failed]
  exact nofun

/-- After a call that fails every command ends with a fault, or else that call is excused. -/
theorem reports (cmd : Command) : cmd.action.Reports cmd.excuse := by
  cases cmd with
  | connectTo db => exact reports_strict (strict_connectTo db)
  | connect => exact reports_strict strict_connect
  | start => exact reports_strict strict_start
  | ping => exact reports_strict (reports_perform Server.strict_ping)
  | databases => exact reports_strict (reports_perform Server.strict_databases)
  | viewDocs design name params db =>
    exact reports_strict <| (strict_databaseOf db).bind fun _ =>
      (strict_ofExcept _).bind fun _ =>
        reports_perform (Server.strict_view _ design name _)
  | runQuery query limit offset numericId db =>
    exact reports_strict <| (strict_databaseOf db).bind fun _ =>
      (strict_ofExcept _).bind fun _ => strict_client.bind fun _ =>
        reports_perform (Query.strict_fetch _ _ numericId _)
  | allRaw model criteria useIndex =>
    exact reports_strict <| (strict_ofExcept _).bind fun cr =>
      strict_onModel fun _ _ => Read.strict_raw cr useIndex
  | all model criteria useIndex =>
    exact reports_strict <| (strict_ofExcept _).bind fun cr =>
      strict_onModel fun _ _ => Read.strict_all cr useIndex
  | findById model id =>
    refine reports_telling (reports_findById model id) fun past call e found missing => ?_
    obtain ⟨missing, ⟨db, key, rfl⟩, rfl⟩ := missing
    exact ⟨missing, .findById model id past db key⟩
  | contains model id =>
    refine reports_telling (reports_contains model id) fun past call e there missing => ?_
    obtain ⟨missing, ⟨db, key, rfl⟩, rfl⟩ := missing
    exact ⟨missing, .contains model id past db key⟩
  | count model filter => exact reports_strict (strict_onModel fun _ _ => Read.strict_count filter)
  | create model data => exact reports_create model data
  | save model data => exact reports_strict (strict_onModel fun _ _ => Save.strict_save)
  | updateAttributes model id data =>
    exact reports_strict (strict_onModel fun _ _ => Write.strict_merge)
  | updateOrCreate model data =>
    refine reports_telling (reports_onModel fun _ _ _ => Save.reports_update)
      fun past call e saved missing => ?_
    obtain ⟨missing, misses, new⟩ := missing
    rw [saving, if_pos new]
    exact ⟨missing, .updateOrCreate model data misses⟩
  | replaceOrCreate model data =>
    refine reports_telling (reports_onModel fun _ _ _ => Save.reports_replace)
      fun past call e saved missing => ?_
    obtain ⟨missing, ⟨db, key, rfl⟩, new⟩ := missing
    rw [saving, if_pos new]
    exact ⟨missing, .replaceOrCreate model data past db key⟩
  | replaceById model id data =>
    exact reports_strict (strict_onModel fun _ _ => Write.strict_replace)
  | updateAll model filter data =>
    exact reports_strict (strict_onModel fun _ _ => Bulk.strict_update _ filter data)
  | bulkReplace model data =>
    exact reports_strict (strict_onModel fun _ _ => Bulk.strict_replace data)
  | destroy model id => exact reports_strict (strict_onModel fun _ _ => Remove.strict_one _ id)
  | destroyAll model filter =>
    exact reports_strict (strict_onModel fun _ _ => Remove.strict_all _ _ filter)
  | currentRevision model id =>
    exact reports_strict (strict_onModel fun _ _ => Save.strict_currentRevision)
  | autoupdate models =>
    exact reports_telling (reports_migrateAll reports_updateIndexes models)
      fun past call e _ missing => ⟨missing.1, .autoupdate models missing.2⟩
  | automigrate models =>
    exact reports_telling (reports_migrateAll reports_rebuild models)
      fun past call e _ missing => ⟨missing.1, .automigrate models missing.2⟩
  | indexes db =>
    exact reports_strict <| (strict_databaseOf db).bind fun _ =>
      reports_perform (Migration.strict_entries _)
  | modelIndexes model => exact reports_strict (strict_onModel fun _ _ => Migration.strict_listing)
  | createIndex model name fields =>
    exact reports_strict <| strict_onModel fun _ _ => (Program.strict_ofNoted _).bind fun c =>
      Migration.strict_create c
  | deleteIndex model design =>
    refine reports_telling (reports_onModel fun _ _ _ =>
      Migration.reports_dropDesign _ design) fun past call e dropped missing => ?_
    obtain ⟨missing, drops, rfl⟩ := missing
    exact ⟨missing, .deleteIndex model design drops⟩

/-- A command that may tell that there is no such thing does so where it is told so. -/
theorem tells_absent (cmd : Command) : cmd.action.Heeds fun past call e r =>
    e.TellsMissing → cmd.Excuses past call .absent → r = .ok .absent := by
  cases cmd with
  | findById model id =>
    refine Action.Heeds.map (heeds_onModel fun _ _ _ => Program.Heeds.mono (Read.heeds_byId id)
      fun past call e r told tells excused => ?_)
    cases excused
    rw [told tells ⟨_, _, rfl⟩]
    rfl
  | contains model id =>
    refine Action.Heeds.map (Action.Heeds.map (heeds_onModel fun _ _ _ =>
      Program.Heeds.mono (Read.heeds_byId id) fun past call e r told tells excused => ?_))
    cases excused
    rw [told tells ⟨_, _, rfl⟩]
    rfl
  | deleteIndex model design =>
    refine Action.Heeds.map (heeds_onModel fun _ _ _ => Program.Heeds.mono
      (Migration.heeds_dropDesign _ design) fun past call e r told tells excused => ?_)
    cases excused with
    | deleteIndex _ _ drops =>
      rw [told tells drops]
      rfl
  | _ => exact fun c past => Program.heeds_of_forall fun past call e r _ excused => nomatch excused

/-- No call that fails is told as a success. If a call of a command gets no answer or an answer
with an error status, the command ends with a fault, except where it is told that a document is
missing and goes by that. Where it may tell its caller that there is no such thing, it does so if
it is told so itself. -/
theorem reports_failure (cmd : Command) (c : Client) (site : Site) (replies : List Reply)
    {before after : History} {call : Call} {x : Exchange}
    (asked : cmd.exchanges c site replies = before ++ (call, x) :: after)
    (fails : x.fails = true) :
    ((∃ f, cmd.result c site replies = .error f) ∨
      ∃ o, cmd.result c site replies = .ok o ∧ x.IsMissing ∧
        cmd.Excuses before.reverse call o) ∧
    (x.TellsMissing → cmd.Excuses before.reverse call .absent →
      cmd.result c site replies = .ok .absent) := by
  obtain ⟨excused, absent⟩ := (cmd.reports.and cmd.tells_absent c []).run asked fails
  rw [List.append_nil] at excused absent
  refine ⟨?_, absent⟩
  unfold result
  cases told : ((cmd.action c).run (.ok site) replies).result.bind Ended.result with
  | error f => exact .inl ⟨f, rfl⟩
  | ok o => exact .inr ⟨o, rfl, excused o told⟩

def broken : Answer := .telling 500 (.object [("error", .str "internal")])

def moved : Answer :=
  .telling 302 (.object [("ok", .bool true), ("id", .str "1"), ("rev", .str "1-a")])

def named : Value := .object [("name", .str "x")]

def inserting : Call :=
  .insert "shop" [("name", .str "x"), (Client.defaultMark, .str "Customer")]

/-- An insert that the store cannot do is told as a fault. -/
theorem reports_failure_broken :
    ∃ f, (create "Customer" named).result Shop.desk Shop.site [.answered broken] = .error f := by
  have asked : (create "Customer" named).exchanges Shop.desk Shop.site [.answered broken] =
      [] ++ (inserting, .answered "/shop" broken) :: [] := rfl
  rcases (reports_failure _ _ _ _ asked rfl).1 with failed | ⟨o, -, ⟨path, a, same, missing⟩, -⟩
  · exact failed
  · cases same
    cases missing

/-- An insert that is directed elsewhere is told as done. -/
theorem redirection_told_as_created :
    (create "Customer" named).exchanges Shop.desk Shop.site [.answered moved] =
        [(inserting, .answered "/shop" moved)] ∧ ¬(200 ≤ moved.status ∧ moved.status ≤ 299) ∧
      (create "Customer" named).result Shop.desk Shop.site [.answered moved] = .ok .created :=
  ⟨rfl, by decide, rfl⟩

end Command

end ModelStore
