import ModelStore.Proofs.Store.Calling

/-! Looking up the handle of a model. It is made of the definition that is registered, as a whole,
and is kept; a later look-up finds it again, unless it asks for a new one. -/

namespace ModelStore

/-- The handle of a model is made of a definition: it is for the database that the definition
names, else the default one, and it tells its documents by the definition's selector, else by a
mark. -/
structure Handle.Reflects (c : Client) (d : ModelDefinition) (h : Handle) : Prop where
  definition : h.definition = d
  database : c.database d.settings.database = .ok h.database
  selected : h.modelSelector = d.settings.modelSelector
  marked : h.discriminator =
    if d.settings.modelSelector.isSome then none else some (c.markOf d.settings)

/-- A look-up of a model: whether its handle is made anew. -/
structure Look where
  model : String
  anew : Bool

/-- A time when the handle of a model could be made: whether it was made anew, and the definition
that was registered then. -/
structure Resolution where
  anew : Bool
  definition : ModelDefinition

namespace Resolution

/-- The definition at the last time the handle was made anew, else at the first time. -/
def latest? (rs : List Resolution) : Option ModelDefinition :=
  ((rs.filter anew).getLast?.or rs.head?).map definition

theorem latest?_concat (rs : List Resolution) (r : Resolution) :
    latest? (rs ++ [r]) =
      if r.anew then some r.definition else (latest? rs).or (some r.definition) := by
  unfold latest?
  rw [List.filter_append, List.head?_append]
  cases anew : r.anew with
  | true => simp [anew]
  | false =>
    simp only [List.filter_cons, anew, Bool.false_eq_true, if_false, List.filter_nil,
      List.append_nil, List.head?_cons, ← Option.or_assoc, Option.map_or, Option.map_some]

end Resolution

namespace Client

variable {c : Client} {d : ModelDefinition} {model : String}

def look (c : Client) (l : Look) : Ended Handle :=
  match if l.anew then none else Entries.get? c.handles l.model with
  | some h => ⟨.ok h, c⟩
  | none =>
    match c.resolve l.model with
    | .ok h => ⟨.ok h, c.keep l.model h⟩
    | .error f => ⟨.error f, c⟩

theorem handle_eq_look (c : Client) (model : String) :
    Action.handle model c = pure (c.look ⟨model, false⟩) := by
  unfold Action.handle look
  rw [if_neg Bool.false_ne_true]
  cases Entries.get? c.handles model with
  | some h => rfl
  | none =>
    unfold Action.refresh
    cases c.resolve model <;> rfl

theorem refresh_eq_look (c : Client) (model : String) :
    Action.refresh model c = pure (c.look ⟨model, true⟩) := by
  unfold Action.refresh look
  rw [if_pos rfl]
  cases c.resolve model <;> rfl

theorem look_client (c : Client) (l : Look) :
    ∃ handles, (c.look l).client = { c with handles } := by
  unfold look
  split
  · exact ⟨c.handles, rfl⟩
  · split
    · exact ⟨_, rfl⟩
    · exact ⟨c.handles, rfl⟩

/-- The definition of a model, if it is registered and its handle can be made: without a database
of its own there must be a default one. -/
def resolvable? (c : Client) (model : String) : Option ModelDefinition :=
  (Entries.get? c.registry model).filter fun d =>
    (c.database d.settings.database).toOption.isSome

theorem resolve_of_resolvable? (known : c.resolvable? model = some d) :
    ∃ h, c.resolve model = .ok h ∧ h.Reflects c d := by
  obtain ⟨registered, placed⟩ := Option.filter_eq_some_iff.1 known
  obtain ⟨db, place⟩ := Option.isSome_iff_exists.1 placed
  have place := Except.toOption_eq_some.1 place
  have there : c.registered model = .ok d := by rw [Client.registered, registered]
  cases own : d.settings.modelSelector with
  | some fields =>
    refine ⟨⟨d, db, none, some fields⟩, ?_, rfl, place, own.symm, by rw [own]; rfl⟩
    simp only [resolve, there, place, own, bind, Except.bind]
  | none =>
    refine ⟨⟨d, db, some (c.markOf d.settings), none⟩, ?_, rfl, place, own.symm, by rw [own]; rfl⟩
    simp only [resolve, there, place, own, bind, Except.bind]

theorem resolve_of_unresolvable (unknown : c.resolvable? model = none) :
    ∃ f, c.resolve model = .error f := by
  rw [resolve, Client.registered]
  cases registered : Entries.get? c.registry model with
  | none => exact ⟨_, rfl⟩
  | some d =>
    rw [resolvable?, registered] at unknown
    cases place : c.database d.settings.database with
    | error f =>
      refine ⟨f, ?_⟩
      show (c.database d.settings.database >>= _) = _
      rw [place]
      rfl
    | ok db =>
      rw [Option.filter_some, place] at unknown
      cases unknown

end Client

namespace Handle

variable {c c' : Client} {d : ModelDefinition} {h h' : Handle}

theorem Reflects.unique (first : h.Reflects c d) (second : h'.Reflects c d) : h = h' := by
  cases h
  cases h'
  rw [Handle.mk.injEq]
  exact ⟨first.definition.trans second.definition.symm,
    Except.ok.inj (first.database.symm.trans second.database),
    first.marked.trans second.marked.symm, first.selected.trans second.selected.symm⟩

theorem Reflects.congr (reflects : h.Reflects c d) (same : c'.settings = c.settings) :
    h.Reflects c' d where
  definition := reflects.definition
  database := by
    rw [Client.database, same]
    exact reflects.database
  selected := reflects.selected
  marked := by
    rw [Client.markOf, same]
    exact reflects.marked

end Handle

/-- A handle tells its documents by a mark or by a selector, never by both, and is for the model's
own database or the default one. -/
structure Handle.WellMade (s : Settings) (h : Handle) : Prop where
  told : (∃ mark, mark ≠ "" ∧ h.discriminator = some mark ∧ h.modelSelector = none) ∨
    h.discriminator = none ∧ h.modelSelector.isSome
  placed : Client.named h.definition.settings.database = some h.database ∨
    Client.named h.definition.settings.database = none ∧ s.databaseName = .ok h.database

theorem Handle.Reflects.wellMade {c : Client} {d : ModelDefinition} {h : Handle}
    (reflects : h.Reflects c d) : h.WellMade c.settings where
  told := by
    rw [reflects.marked, reflects.selected]
    cases d.settings.modelSelector with
    | some fields => exact .inr ⟨rfl, rfl⟩
    | none => exact .inl ⟨_, Client.markOf_ne_empty d.settings, rfl, rfl⟩
  placed := by
    have place := reflects.database
    rw [reflects.definition]
    unfold Client.database at place
    split at place
    · rename_i own named
      cases place
      exact .inl named
    · rename_i unnamed
      exact .inr ⟨unnamed, place⟩

namespace Client

variable {c c' : Client} {model : String}

/-- What a client keeps for a model is made of a definition, if there is one. -/
inductive Keeps (c : Client) (model : String) : Option ModelDefinition → Prop where
  | nothing (unkept : Entries.get? c.handles model = none) : Keeps c model none
  | handle {d : ModelDefinition} {h : Handle} (kept : Entries.get? c.handles model = some h)
      (reflects : h.Reflects c d) : Keeps c model (some d)

/-- What a look-up means for a model: nothing if it is for another one, or if the handle cannot
be made. -/
def resolution? (c : Client) (model : String) (l : Look) : Option Resolution :=
  if l.model = model then (c.resolvable? model).map (⟨l.anew, ·⟩) else none

theorem Keeps.congr {latest : Option ModelDefinition} (keeps : c.Keeps model latest)
    (settings : c'.settings = c.settings)
    (handles : Entries.get? c'.handles model = Entries.get? c.handles model) :
    c'.Keeps model latest := by
  cases keeps with
  | nothing unkept => exact .nothing (handles.trans unkept)
  | handle kept reflects => exact .handle (handles.trans kept) (reflects.congr settings)

theorem keeps_keep {h : Handle} (reflects : h.Reflects c d) :
    (c.keep model h).Keeps model (some d) :=
  .handle (Entries.get?_set_self c.handles model h) (reflects.congr rfl)

/-- A look-up keeps for its model what the latest resolution says, and leaves others alone. -/
theorem Keeps.look {rs : List Resolution} (keeps : c.Keeps model (Resolution.latest? rs))
    (l : Look) :
    (c.look l).client.Keeps model
      (Resolution.latest? (rs ++ (c.resolution? model l).toList)) := by
  by_cases same : l.model = model
  · subst same
    rw [resolution?, if_pos rfl]
    cases known : c.resolvable? l.model with
    | none =>
      -- A handle cannot be made, so what is kept stays.
      obtain ⟨f, fails⟩ := resolve_of_unresolvable known
      have stays : (c.look l).client = c := by
        unfold Client.look
        split
        · rfl
        · rw [fails]
      rw [stays]
      simpa using keeps
    | some d =>
      obtain ⟨h, made, reflects⟩ := resolve_of_resolvable? known
      rw [Option.map_some, Option.toList_some, Resolution.latest?_concat]
      unfold Client.look
      cases anew : l.anew with
      | true =>
        rw [if_pos rfl, if_pos rfl, made]
        exact keeps_keep reflects
      | false =>
        rw [if_neg Bool.false_ne_true, if_neg Bool.false_ne_true]
        generalize Resolution.latest? rs = latest at keeps
        cases keeps with
        | nothing unkept =>
          rw [unkept, made]
          exact keeps_keep reflects
        | handle kept old =>
          rw [kept]
          exact .handle kept old
  · rw [resolution?, if_neg same]
    have apart : Entries.get? (c.look l).client.handles model = Entries.get? c.handles model := by
      unfold Client.look
      split
      · rfl
      · split
        · exact Entries.get?_set_ne _ _ same
        · rfl
    obtain ⟨handles, client⟩ := look_client c l
    have settings : (c.look l).client.settings = c.settings := by rw [client]
    simpa using keeps.congr settings apart

def looked (c : Client) (ls : List Look) : Client := ls.foldl (fun c l => (c.look l).client) c

theorem looked_client (c : Client) (ls : List Look) :
    ∃ handles, c.looked ls = { c with handles } := by
  induction ls generalizing c with
  | nil => exact ⟨c.handles, rfl⟩
  | cons l rest ih =>
    obtain ⟨first, found⟩ := look_client c l
    obtain ⟨handles, later⟩ := ih (c.look l).client
    exact ⟨handles, later.trans (by rw [found])⟩

theorem Keeps.looked {rs : List Resolution} (keeps : c.Keeps model (Resolution.latest? rs))
    (ls : List Look) :
    (c.looked ls).Keeps model
      (Resolution.latest? (rs ++ ls.filterMap (c.resolution? model))) := by
  induction ls generalizing c rs with
  | nil =>
    rw [List.filterMap_nil, List.append_nil]
    exact keeps
  | cons l rest ih =>
    obtain ⟨handles, found⟩ := look_client c l
    have same : (c.look l).client.resolution? model = c.resolution? model := by rw [found]; rfl
    have later := ih (keeps.look l)
    rw [same, List.append_assoc] at later
    cases first : c.resolution? model l with
    | none =>
      rw [first] at later
      rw [List.filterMap_cons_none first]
      exact later
    | some r =>
      rw [first] at later
      rw [List.filterMap_cons_some first]
      exact later

theorem settings_look (c : Client) (l : Look) : (c.look l).client.settings = c.settings := by
  obtain ⟨handles, found⟩ := look_client c l
  rw [found]

theorem settings_looked (c : Client) (ls : List Look) : (c.looked ls).settings = c.settings := by
  obtain ⟨handles, found⟩ := looked_client c ls
  rw [found]

theorem look_eq_ok {h : Handle} : (c.look ⟨model, false⟩).result = .ok h ↔
    Entries.get? (c.look ⟨model, false⟩).client.handles model = some h := by
  unfold look
  rw [if_neg Bool.false_ne_true]
  cases kept : Entries.get? c.handles model with
  | some h' => simp [kept]
  | none =>
    cases made : c.resolve model with
    | ok h' => simp [keep]
    | error f => simp [kept]

theorem Keeps.get?_eq_some {latest : Option ModelDefinition} {h : Handle}
    (keeps : c.Keeps model latest) :
    Entries.get? c.handles model = some h ↔ ∃ d, latest = some d ∧ h.Reflects c d := by
  cases keeps with
  | nothing unkept => simp [unkept]
  | handle kept reflects =>
    rename_i d h'
    rw [kept]
    constructor
    · rintro ⟨⟩
      exact ⟨d, rfl, reflects⟩
    · rintro ⟨_, ⟨⟩, again⟩
      exact congrArg some (reflects.unique again)

def Known (c : Client) : Prop :=
  ∀ model, Entries.get? c.registry model = none → Entries.get? c.handles model = none

theorem look_of_unregistered (known : c.Known) (unregistered : Entries.get? c.registry model = none)
    (anew : Bool) : c.look ⟨model, anew⟩ = ⟨.error (.validation (.unregistered model)), c⟩ := by
  have fails : c.resolve model = .error (.validation (.unregistered model)) := by
    rw [resolve, Client.registered, unregistered]
    rfl
  have unkept := known model unregistered
  unfold look
  cases anew <;> simp [fails, unkept]

theorem Known.look (known : c.Known) (l : Look) : (c.look l).client.Known := by
  intro model unregistered
  obtain ⟨handles, found⟩ := look_client c l
  have before : Entries.get? c.registry model = none := by
    rw [found] at unregistered
    exact unregistered
  by_cases same : l.model = model
  · subst same
    have fails := look_of_unregistered known before l.anew
    rw [show c.look l = _ from fails]
    exact known _ before
  · unfold Client.look
    split
    · exact known _ before
    · split
      · exact (Entries.get?_set_ne _ _ same).trans (known _ before)
      · exact known _ before

theorem Known.looked (known : c.Known) (ls : List Look) : (c.looked ls).Known := by
  induction ls generalizing c with
  | nil => exact known
  | cons l rest ih => exact ih (known.look l)

end Client

end ModelStore
