import ModelStore.Proofs.Store.Commands
import ModelStore.Proofs.Store.Looking
import ModelStore.Proofs.Store.Running
import ModelStore.Proofs.Store.Wholeness

/-! The handles that a client keeps. The handle of a model is made when the model is first looked
up, and made anew when a migration comes to the model or when that is asked for. So what is kept
depends on the definitions at those times only, whatever has been defined since and whatever
became of other models. -/

namespace ModelStore

namespace Action

variable {α β : Type} {x : Action α} {f : α → Action β} {c c' : Client}

/-- From a client the action comes to another one, whatever is answered. -/
def Leaves (x : Action α) (c c' : Client) : Prop :=
  ∃ p : Program α, x c = p.andThen fun r => .done (.ok ⟨r, c'⟩)

theorem leaves_pure (r : Except Fault α) (h : x c = pure ⟨r, c'⟩) : x.Leaves c c' :=
  ⟨.done r, h⟩

theorem leaves_ofExcept (r : Except Fault α) (c : Client) : (ofExcept r).Leaves c c :=
  leaves_pure r rfl

theorem leaves_client (c : Client) : client.Leaves c c := leaves_pure (.ok c) rfl

theorem leaves_perform (p : Program α) (c : Client) : (perform p).Leaves c c :=
  ⟨p, Program.andThen_andThen _ _ _⟩

theorem Leaves.bind (first : x.Leaves c c') (next : ∀ a, (f a).Leaves c' c') :
    (x >>= f).Leaves c c' := by
  obtain ⟨p, made⟩ := first
  choose q later using next
  refine ⟨p >>= q, ?_⟩
  show (x c).andThen _ = (p.andThen _).andThen _
  rw [made, Program.andThen_andThen, Program.andThen_andThen]
  congr 1
  funext r
  cases r with
  | ok a => exact later a
  | error e => rfl

theorem leaves_handle (name : String) (c : Client) :
    (handle name).Leaves c (c.look ⟨name, false⟩).client :=
  leaves_pure _ (Client.handle_eq_look c name)

theorem leaves_refresh (name : String) (c : Client) :
    (refresh name).Leaves c (c.look ⟨name, true⟩).client :=
  leaves_pure _ (Client.refresh_eq_look c name)

theorem leaves_databaseOf (name : Option String) (c : Client) : (databaseOf name).Leaves c c :=
  (leaves_client c).bind fun _ => leaves_ofExcept _ c

theorem leaves_onModel (name : String) (p : Settings → Handle → Program α) (c : Client) :
    (onModel name p).Leaves c (c.look ⟨name, false⟩).client :=
  (leaves_handle name c).bind fun _ => (leaves_client _).bind fun _ => leaves_perform _ _

theorem onModel_eq_look (name : String) (p : Settings → Handle → Program α) (c : Client) :
    onModel name p c =
      match c.look ⟨name, false⟩ with
      | ⟨.ok h, c'⟩ => (p c'.settings h).andThen fun r => .done (.ok ⟨r, c'⟩)
      | ⟨.error f, c'⟩ => .done (.ok ⟨.error f, c'⟩) := by
  have found := Client.handle_eq_look c name
  generalize c.look ⟨name, false⟩ = ended at found
  obtain ⟨r, c'⟩ := ended
  cases r with
  | ok h => exact onModel_of_handle found p
  | error f => exact onModel_of_error found p

def after (x : Action α) (c : Client) (replies : List Reply) : Client :=
  match ((x c).run c.settings.site replies).result with
  | .ok ended => ended.client
  | .error _ => c

/-- The action ends from a client on some replies, and this is how. -/
def EndsIn (x : Action α) (c : Client) (replies : List Reply) (r : Except Fault α)
    (c' : Client) : Prop :=
  ((x c).run c.settings.site replies).result = .ok ⟨r, c'⟩

variable {replies : List Reply} {r : Except Fault α} {a : α} {e : Fault}

theorem EndsIn.after_eq (ends : x.EndsIn c replies r c') : x.after c replies = c' := by
  rw [EndsIn] at ends
  rw [after, ends]

theorem Leaves.endsIn (leaves : x.Leaves c c') (replies : List Reply) :
    ∃ r, x.EndsIn c replies r c' := by
  obtain ⟨p, made⟩ := leaves
  refine ⟨(p.run c.settings.site replies).result, ?_⟩
  rw [EndsIn, made, Program.run_andThen]
  exact Program.result_run_done _ _

theorem EndsIn.bind {r : Except Fault β} {c'' : Client} (first : x.EndsIn c replies (.ok a) c')
    (settings : c'.settings = c.settings)
    (next : (f a).EndsIn c' (((x c).run c.settings.site replies).left replies) r c'') :
    (x >>= f).EndsIn c replies r c'' := by
  rw [EndsIn, settings] at next
  rw [EndsIn] at first ⊢
  show (((x c).andThen _).run _ _).result = _
  rw [Program.run_andThen, first]
  exact next

theorem EndsIn.bind_error (first : x.EndsIn c replies (.error e) c') :
    (x >>= f).EndsIn c replies (.error e) c' := by
  rw [EndsIn] at first ⊢
  show (((x c).andThen _).run _ _).result = _
  rw [Program.run_andThen, first]
  exact Program.result_run_done _ _

theorem EndsIn.map (ends : x.EndsIn c replies r c') (settings : c'.settings = c.settings)
    (g : α → β) : ∃ r, (x >>= fun a => pure (g a)).EndsIn c replies r c' := by
  cases r with
  | ok a => exact ⟨.ok (g a), ends.bind settings (Program.result_run_done _ _)⟩
  | error e => exact ⟨.error e, ends.bind_error⟩

end Action

namespace Client

open ModelStore.Action (leaves_client leaves_ofExcept leaves_perform leaves_refresh leaves_onModel
  leaves_databaseOf)

/-- The models that a migration of some names comes to: the first one, and then each next one if
the one before it has been migrated without a fault. -/
def reached (migrate : String → Action IndexPlan) :
    List Value → Client → List Reply → List String
  | [], _, _ => []
  | v :: rest, c, replies =>
    match modelName v with
    | .error _ => []
    | .ok name =>
      let run := (migrate name c).run c.settings.site replies
      name :: match run.result with
        | .ok ⟨.ok _, c⟩ => reached migrate rest c (run.left replies)
        | _ => []

/-- The look-ups of a migration: the handle of each model that it comes to is made anew. -/
def migrationLooks (migrate : String → Action IndexPlan) (models : Value) (c : Client)
    (replies : List Reply) : List Look :=
  match modelNames c models with
  | .ok names => (reached migrate names c replies).map (⟨·, true⟩)
  | .error _ => []

variable {c c' : Client} {migrate : String → Action IndexPlan}

theorem leaves_updateIndexes (name : String) (c : Client) :
    (updateIndexes name).Leaves c (c.look ⟨name, true⟩).client :=
  (leaves_refresh name c).bind fun _ => leaves_perform _ _

theorem leaves_rebuild (name : String) (c : Client) :
    (rebuild name).Leaves c (c.look ⟨name, true⟩).client :=
  (leaves_refresh name c).bind fun _ => (leaves_client _).bind fun _ => leaves_perform _ _

theorem ends_migrateEach
    (renews : ∀ name c, (migrate name).Leaves c (c.look ⟨name, true⟩).client)
    (names : List Value) (plans : Entries IndexPlan) (c : Client) (replies : List Reply) :
    ∃ r, (migrateEach migrate names plans).EndsIn c replies r
      (c.looked ((reached migrate names c replies).map (⟨·, true⟩))) := by
  induction names generalizing plans c replies with
  | nil => exact ⟨.ok plans, Program.result_run_done _ _⟩
  | cons v rest ih =>
    rw [migrateEach, reached]
    cases modelName v with
    | error f => exact ⟨.error f, Program.result_run_done _ _⟩
    | ok name =>
      show ∃ r, (migrate name >>= fun plan =>
        migrateEach migrate rest (Entries.set plans name plan)).EndsIn c replies r _
      obtain ⟨r, first⟩ := (renews name c).endsIn replies
      have told := first
      rw [Action.EndsIn] at told
      cases r with
      | error e =>
        refine ⟨.error e, ?_⟩
        simp only [told]
        exact first.bind_error
      | ok plan =>
        obtain ⟨r, later⟩ := ih (Entries.set plans name plan) (c.look ⟨name, true⟩).client
          (((migrate name c).run c.settings.site replies).left replies)
        refine ⟨r, ?_⟩
        simp only [told]
        exact first.bind (settings_look c _) later

theorem ends_migrateAll
    (renews : ∀ name c, (migrate name).Leaves c (c.look ⟨name, true⟩).client)
    (models : Value) (c : Client) (replies : List Reply) :
    ∃ r, (migrateAll migrate models).EndsIn c replies r
      (c.looked (migrationLooks migrate models c replies)) := by
  unfold migrationLooks
  show ∃ r, (Action.ofExcept (modelNames c models) >>= fun names =>
    migrateEach migrate names []).EndsIn c replies r _
  cases modelNames c models with
  | error f => exact ⟨.error f, Program.result_run_done _ _⟩
  | ok names => exact ends_migrateEach renews names [] c replies

end Client

namespace Command

open ModelStore.Action (leaves_client leaves_ofExcept leaves_perform leaves_databaseOf
  leaves_onModel)

/-- The model whose handle a command is about. Criteria that cannot be read end it before. -/
def target? : Command → Option String
  | allRaw model criteria _ | all model criteria _ =>
    if (Criteria.ofValue criteria).toOption.isSome then some model else none
  | findById model _ | contains model _ | count model _ | create model _ | save model _
  | updateAttributes model _ _ | updateOrCreate model _ | replaceOrCreate model _
  | replaceById model _ _ | updateAll model _ _ | bulkReplace model _ | destroy model _
  | destroyAll model _ | currentRevision model _ | modelIndexes model | createIndex model _ _
  | deleteIndex model _ => some model
  | connectTo _ | connect | start | ping | databases | viewDocs _ _ _ _ | runQuery _ _ _ _ _
  | autoupdate _ | automigrate _ | indexes _ => none

def looks (cmd : Command) (c : Client) (replies : List Reply) : List Look :=
  match cmd with
  | autoupdate models => Client.migrationLooks Client.updateIndexes models c replies
  | automigrate models => Client.migrationLooks Client.rebuild models c replies
  | cmd => cmd.target?.toList.map (⟨·, false⟩)

variable {α β : Type} {name : String} {p : Settings → Handle → Program α} {c : Client}

theorem onModel_bind (g : α → Except Fault β) :
    (Action.onModel name p >>= fun a => Action.ofExcept (g a)) =
      Action.onModel name fun s h => p s h >>= fun a => .done (g a) := by
  funext c
  rcases Action.handle_cases name c with ⟨h, c', -, found⟩ | ⟨f, lost⟩
  · show (Action.onModel name p c).andThen _ = _
    rw [Action.onModel_of_handle found, Action.onModel_of_handle found, Program.andThen_andThen]
    refine Eq.trans ?_ (Program.andThen_andThen _ _ _).symm
    congr 1
    funext r
    cases r <;> rfl
  · show (Action.onModel name p c).andThen _ = _
    rw [Action.onModel_of_error lost, Action.onModel_of_error lost]
    rfl

theorem telling_onModel (outcome : α → Outcome) :
    ∃ body, telling (Action.onModel name p) outcome = Action.onModel name body :=
  ⟨_, onModel_bind fun a => .ok (outcome a)⟩

theorem exists_criteria {criteria : Value} {model model' : String}
    (read : (if (Criteria.ofValue criteria).toOption.isSome then some model else none) =
      some model') : model = model' ∧ ∃ cr, Criteria.ofValue criteria = .ok cr := by
  split at read
  · rename_i known
    obtain ⟨cr, known⟩ := Option.isSome_iff_exists.1 known
    exact ⟨Option.some.inj read, cr, Except.toOption_eq_some.1 known⟩
  · cases read

/-- A command about a model does all that it does with its handle. -/
theorem exists_body {cmd : Command} {model : String} (target : cmd.target? = some model) :
    ∃ body, cmd.action = Action.onModel model body := by
  cases cmd with
  | connectTo | connect | start | ping | databases | viewDocs | runQuery | autoupdate
  | automigrate | indexes => cases target
  | allRaw name criteria useIndex =>
    obtain ⟨rfl, cr, read⟩ := exists_criteria target
    have known : Client.allRaw name criteria useIndex =
        Action.onModel name fun s h => Read.raw s h cr useIndex := by
      unfold Client.allRaw
      rw [read]
      rfl
    rw [action, known]
    exact telling_onModel _
  | all name criteria useIndex =>
    obtain ⟨rfl, cr, read⟩ := exists_criteria target
    have known : Client.all name criteria useIndex =
        Action.onModel name fun s h => Read.all s h cr useIndex :=
      funext fun c => Client.all_of_criteria read
    rw [action, known]
    exact telling_onModel _
  | contains name id =>
    cases target
    have known : Client.contains model id = Action.onModel model fun s h =>
        Read.byId s h id >>= fun found => .done (.ok found.isSome) :=
      onModel_bind fun found : Option Fields => .ok found.isSome
    rw [action, known]
    exact telling_onModel _
  | create name data =>
    cases target
    have told : (create model data).action = Client.create model data >>= fun receipt =>
        Action.ofExcept (receipt.outcome.map fun _ => .created) := by
      rw [action]
      congr 1
      funext receipt
      cases receipt.outcome <;> rfl
    exact ⟨_, told.trans (onModel_bind _)⟩
  | findById | count | save | updateAttributes | updateOrCreate | replaceOrCreate | replaceById
  | updateAll | bulkReplace | destroy | destroyAll | currentRevision | modelIndexes | createIndex
  | deleteIndex =>
    cases target
    exact telling_onModel _

theorem leaves_telling {x : Action α} (leaves : x.Leaves c c) (outcome : α → Outcome) :
    (telling x outcome).Leaves c c :=
  leaves.bind fun _ => leaves_ofExcept _ c

theorem leaves_connectTo (db : Option String) (c : Client) : (Client.connectTo db).Leaves c c := by
  refine (leaves_client c).bind fun _ => (leaves_ofExcept _ c).bind fun _ =>
    (leaves_ofExcept _ c).bind fun _ => ?_
  cases db with
  | some db => exact leaves_perform _ c
  | none => exact leaves_ofExcept _ c

theorem leaves_connect (c : Client) : Client.connect.Leaves c c :=
  (leaves_client c).bind fun _ => (leaves_ofExcept _ c).bind fun db => leaves_connectTo (some db) c

theorem leaves_of_unread {criteria : Value} {model : String}
    (unread : (if (Criteria.ofValue criteria).toOption.isSome then some model else none) = none)
    (f : Criteria → Action α) : (Action.ofExcept (Criteria.ofValue criteria) >>= f).Leaves c c := by
  split at unread
  · cases unread
  · rename_i unknown
    cases read : Criteria.ofValue criteria with
    | ok cr =>
      rw [read] at unknown
      exact absurd rfl unknown
    | error e => exact Action.leaves_pure (.error e) rfl

theorem leaves_of_untargeted {cmd : Command} (untargeted : cmd.target? = none)
    (other : ∀ models, cmd ≠ .autoupdate models ∧ cmd ≠ .automigrate models) (c : Client) :
    cmd.action.Leaves c c := by
  cases cmd with
  | connectTo db => exact leaves_telling (leaves_connectTo db c) _
  | connect => exact leaves_telling (leaves_connect c) _
  | start =>
    refine leaves_telling ((leaves_client c).bind fun _ => ?_) _
    split
    · exact leaves_ofExcept _ c
    · exact leaves_connect c
  | ping => exact leaves_telling (leaves_perform _ c) _
  | databases => exact leaves_telling (leaves_perform _ c) _
  | viewDocs design name params db =>
    exact leaves_telling ((leaves_databaseOf db c).bind fun _ =>
      (leaves_ofExcept _ c).bind fun _ => leaves_perform _ c) _
  | runQuery query limit offset numericId db =>
    exact leaves_telling ((leaves_databaseOf db c).bind fun _ =>
      (leaves_ofExcept _ c).bind fun _ => (leaves_client c).bind fun _ => leaves_perform _ c) _
  | allRaw model criteria useIndex => exact leaves_telling (leaves_of_unread untargeted _) _
  | all model criteria useIndex => exact leaves_telling (leaves_of_unread untargeted _) _
  | autoupdate models => exact absurd rfl (other models).1
  | automigrate models => exact absurd rfl (other models).2
  | indexes db =>
    exact leaves_telling ((leaves_databaseOf db c).bind fun _ => leaves_perform _ c) _
  | findById | contains | count | create | save | updateAttributes | updateOrCreate
  | replaceOrCreate | replaceById | updateAll | bulkReplace | destroy | destroyAll
  | currentRevision | modelIndexes | createIndex | deleteIndex => cases untargeted

theorem looks_of_other {cmd : Command}
    (other : ∀ models, cmd ≠ .autoupdate models ∧ cmd ≠ .automigrate models) (c : Client)
    (replies : List Reply) : cmd.looks c replies = cmd.target?.toList.map (⟨·, false⟩) := by
  cases cmd with
  | autoupdate models => exact absurd rfl (other models).1
  | automigrate models => exact absurd rfl (other models).2
  | _ => rfl

/-- Every command ends with what its look-ups leave. -/
theorem exists_endsIn (cmd : Command) (c : Client) (replies : List Reply) :
    ∃ r, cmd.action.EndsIn c replies r (c.looked (cmd.looks c replies)) := by
  by_cases update : ∃ models, cmd = .autoupdate models
  · obtain ⟨models, rfl⟩ := update
    obtain ⟨r, ends⟩ := Client.ends_migrateAll Client.leaves_updateIndexes models c replies
    exact ends.map (Client.settings_looked c _) _
  · by_cases migration : ∃ models, cmd = .automigrate models
    · obtain ⟨models, rfl⟩ := migration
      obtain ⟨r, ends⟩ := Client.ends_migrateAll Client.leaves_rebuild models c replies
      exact ends.map (Client.settings_looked c _) _
    · have other : ∀ models, cmd ≠ .autoupdate models ∧ cmd ≠ .automigrate models :=
        fun models => ⟨fun same => update ⟨models, same⟩, fun same => migration ⟨models, same⟩⟩
      rw [looks_of_other other]
      cases target : cmd.target? with
      | none => exact (leaves_of_untargeted target other c).endsIn replies
      | some model =>
        obtain ⟨body, same⟩ := exists_body target
        rw [same]
        exact (leaves_onModel model body c).endsIn replies

end Command

/-- What can be done with a client: a model is defined, its handle is looked up, or the client is
asked for something. -/
inductive Turn where
  | define (d : ModelDefinition)
  | select (model : String) (anew : Bool)
  | run (cmd : Command) (replies : List Reply)

namespace Turn

def next (c : Client) : Turn → Client
  | define d => c.define d
  | select model anew =>
    Action.after (if anew then Action.refresh model else Action.handle model) c []
  | run cmd replies => cmd.action.after c replies

def looks (c : Client) : Turn → List Look
  | define _ => []
  | select model anew => [⟨model, anew⟩]
  | run cmd replies => cmd.looks c replies

variable {c : Client}

theorem next_select (c : Client) (model : String) (anew : Bool) :
    (select model anew).next c = c.looked [⟨model, anew⟩] := by
  have leaves : (if anew then Action.refresh model else Action.handle model).Leaves c
      (c.look ⟨model, anew⟩).client := by
    cases anew
    · exact Action.leaves_handle model c
    · exact Action.leaves_refresh model c
  obtain ⟨r, ends⟩ := leaves.endsIn []
  exact ends.after_eq

theorem next_run (c : Client) (cmd : Command) (replies : List Reply) :
    (run cmd replies).next c = c.looked (cmd.looks c replies) := by
  obtain ⟨r, ends⟩ := cmd.exists_endsIn c replies
  exact ends.after_eq

theorem settings_next (c : Client) (t : Turn) : (t.next c).settings = c.settings := by
  cases t with
  | define d => rfl
  | select model anew =>
    rw [next_select]
    exact Client.settings_looked c _
  | run cmd replies =>
    rw [next_run]
    exact Client.settings_looked c _

/-- After a turn a client keeps for a model what the latest of its resolutions says. -/
theorem keeps_next {model : String} {rs : List Resolution}
    (keeps : c.Keeps model (Resolution.latest? rs)) (t : Turn) :
    (t.next c).Keeps model
      (Resolution.latest? (rs ++ (t.looks c).filterMap (c.resolution? model))) := by
  cases t with
  | define d =>
    rw [looks, List.filterMap_nil, List.append_nil]
    exact keeps.congr rfl rfl
  | select name anew =>
    rw [next_select]
    exact keeps.looked _
  | run cmd replies =>
    rw [next_run]
    exact keeps.looked _

end Turn

namespace Client

def after (c : Client) (turns : List Turn) : Client := turns.foldl Turn.next c

/-- The resolutions of a model in some turns: each of its look-ups at which its handle could be
made, with the definition that was registered then. -/
def resolutions (model : String) : Client → List Turn → List Resolution
  | _, [] => []
  | c, t :: rest =>
    (t.looks c).filterMap (c.resolution? model) ++ resolutions model (t.next c) rest

variable {c : Client} {model : String}

theorem keeps_after {rs : List Resolution} (keeps : c.Keeps model (Resolution.latest? rs))
    (turns : List Turn) :
    (c.after turns).Keeps model (Resolution.latest? (rs ++ c.resolutions model turns)) := by
  induction turns generalizing c rs with
  | nil =>
    rw [resolutions, List.append_nil]
    exact keeps
  | cons t rest ih =>
    rw [resolutions, ← List.append_assoc]
    exact ih (Turn.keeps_next keeps t)

theorem after_concat (c : Client) (turns : List Turn) (t : Turn) :
    c.after (turns ++ [t]) = t.next (c.after turns) := by
  rw [after, List.foldl_append]
  rfl

theorem settings_after (c : Client) (turns : List Turn) :
    (c.after turns).settings = c.settings := by
  induction turns generalizing c with
  | nil => rfl
  | cons t rest ih => exact (ih (t.next c)).trans (Turn.settings_next c t)

theorem Known.next (known : c.Known) (t : Turn) : (t.next c).Known := by
  cases t with
  | define d =>
    intro model unregistered
    have registry : Entries.get? (Entries.set c.registry d.name d) model = none := unregistered
    rw [Entries.get?_set] at registry
    split at registry
    · cases registry
    · exact known model registry
  | select model anew =>
    rw [Turn.next_select]
    exact known.looked _
  | run cmd replies =>
    rw [Turn.next_run]
    exact known.looked _

theorem Known.after (known : c.Known) (turns : List Turn) : (c.after turns).Known := by
  induction turns generalizing c with
  | nil => exact known
  | cons t rest ih => exact ih (known.next t)

/-- The handles of a client over any turns, whatever is answered. The handle that a call about a
model finds is made, as a whole, of the definition that was registered at the last time the handle
was made anew, by a migration that came to the model or on request, else at the first time the
model was looked up. A command about a model does one thing with whatever handle its client finds
for it, and nothing else. To look up a model that is not registered changes nothing. Every kept
handle is well made. -/
theorem keeps_latest (s : Settings) (registry : Entries ModelDefinition) (turns : List Turn) :
    let start := ofSettings s registry
    let c := start.after turns
    (∀ model h, (c.look ⟨model, false⟩).result = .ok h ↔
      ∃ d, Resolution.latest? (start.resolutions model (turns ++ [.select model false])) = some d ∧
        h.Reflects start d) ∧
    (∀ cmd model, Command.target? cmd = some model →
      ∃ body : Settings → Handle → Program Outcome, ∀ c : Client,
        cmd.action c = match c.look ⟨model, false⟩ with
          | ⟨.ok h, c⟩ => (body c.settings h).andThen fun r => .done (.ok ⟨r, c⟩)
          | ⟨.error f, c⟩ => .done (.ok ⟨.error f, c⟩)) ∧
    (∀ model anew, Entries.get? c.registry model = none →
      c.look ⟨model, anew⟩ = ⟨.error (.validation (.unregistered model)), c⟩) ∧
    ∀ model h, Entries.get? c.handles model = some h → h.WellMade s := by
  intro start c
  have keeps (turns : List Turn) (model : String) :
      (start.after turns).Keeps model (Resolution.latest? (start.resolutions model turns)) :=
    keeps_after (show start.Keeps model (Resolution.latest? []) from .nothing rfl) turns
  have known : c.Known := Known.after (fun _ _ => rfl) turns
  refine ⟨fun model h => ?_, fun cmd model target => ?_, fun model anew unregistered =>
    look_of_unregistered known unregistered anew, fun model h kept => ?_⟩
  · have client : start.after (turns ++ [.select model false]) =
        (c.look ⟨model, false⟩).client :=
      (after_concat start turns _).trans (Turn.next_select c model false)
    have settings : (c.look ⟨model, false⟩).client.settings = start.settings :=
      (settings_look c _).trans (settings_after start turns)
    rw [look_eq_ok, ← client, (keeps _ model).get?_eq_some, client]
    exact ⟨fun ⟨d, latest, reflects⟩ => ⟨d, latest, reflects.congr settings.symm⟩,
      fun ⟨d, latest, reflects⟩ => ⟨d, latest, reflects.congr settings⟩⟩
  · obtain ⟨body, same⟩ := Command.exists_body target
    refine ⟨body, fun c => ?_⟩
    rw [same]
    exact Action.onModel_eq_look model body c
  · obtain ⟨d, -, reflects⟩ := (keeps turns model).get?_eq_some.1 kept
    have made := reflects.wellMade
    rwa [settings_after] at made

def archivedModel : ModelDefinition := ⟨"Customer", [], [], ⟨some "archive", none, none⟩⟩

/-- A migration that stops at a model before it leaves the handle of a customer, and one that comes
to it makes it anew, even if it then fails. -/
theorem keeps_latest_customer :
    let start := Shop.desk
    let missed : List Turn := [.run (.findById "Customer" (.int 5)) [], .define archivedModel,
      .run (.automigrate (.array [.str "Other", .str "Customer"])) []]
    let came : List Turn := [.run (.automigrate (.str "Customer")) []]
    ((start.after missed).look ⟨"Customer", false⟩).result =
        .ok ⟨Shop.customerModel, "shop", some defaultMark, none⟩ ∧
      ((start.after (missed ++ came)).look ⟨"Customer", false⟩).result =
        .ok ⟨archivedModel, "archive", some defaultMark, none⟩ := by
  intro start missed came
  exact ⟨((keeps_latest _ _ missed).1 "Customer" _).2 ⟨Shop.customerModel, rfl, rfl, rfl, rfl, rfl⟩,
    ((keeps_latest _ _ (missed ++ came)).1 "Customer" _).2 ⟨archivedModel, rfl, rfl, rfl, rfl, rfl⟩⟩

/-- Without any migration, a look-up that asks for it makes a handle anew. -/
theorem refreshes_customer :
    let start := Shop.desk
    let turns : List Turn :=
      [.select "Customer" false, .define archivedModel, .select "Customer" true]
    (∀ cmd replies, Turn.run cmd replies ∉ turns) ∧
      ((start.after (turns.take 1)).look ⟨"Customer", false⟩).result =
        .ok ⟨Shop.customerModel, "shop", some defaultMark, none⟩ ∧
      ((start.after turns).look ⟨"Customer", false⟩).result =
        .ok ⟨archivedModel, "archive", some defaultMark, none⟩ := by
  intro start turns
  exact ⟨by simp [turns], rfl, rfl⟩

end Client

end ModelStore
