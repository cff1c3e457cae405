import ModelStore.Proofs.Mapper
import ModelStore.Proofs.Store.Designs
import ModelStore.Proofs.Store.Safety

/-! The stages of a migration that only updates. It starts with the listing; then it has design
documents to drop and indexes to add, and it goes through them one request at a time. Each
request that is served does the next thing or ends the migration with a fault. An index
that is dropped and wanted is still to be added when its design document goes. -/

namespace ModelStore

namespace Program

variable {α β : Type} {site : Site} {c : Call} {go : Exchange → Program α}
  {warnings : List Warning}

theorem discard_bind (p : Program α) (f : PUnit → Program β) :
    (discard p >>= f) = p >>= fun _ => f ⟨⟩ := by
  show (Functor.mapConst PUnit.unit p >>= f) = _
  rw [map_const, Function.comp, ← bind_pure_comp, bind_assoc]
  simp only [Function.const, pure_bind]

theorem forM_cons_bind {ι : Type} (f : ι → Program PUnit) (i : ι) (rest : List ι)
    (g : PUnit → Program β) :
    ((i :: rest).forM f >>= g) = f i >>= fun _ => rest.forM f >>= g := by
  show ((f i >>= fun _ => rest.forM f) >>= g) = _
  rw [bind_assoc]

theorem ofNoted_bind (x : Noted α) (f : α → Program β) :
    (ofNoted x >>= f) = x.warnings.foldr remark (ofExcept x.outcome >>= f) := by
  obtain ⟨warnings, r⟩ := x
  induction warnings with
  | nil => rfl
  | cons w rest ih => exact congrArg (remark w) ih

theorem settle_remarks (remarks : List Warning) (p : Program α) :
    (remarks.foldr remark p).settle (.ok site) =
      (remarks ++ (p.settle (.ok site)).1, (p.settle (.ok site)).2) := by
  induction remarks with
  | nil => rfl
  | cons w rest ih => simp only [List.foldr_cons, settle, ih, List.cons_append]

/-- A call that ends with a fault if it cannot be made. -/
def Ends (go : Exchange → Program α) : Prop :=
  ∀ f : Fault, f.isNotFound = false → go (.refused f) = .fail f

theorem Ends.sending (ends : Ends go) {q : Request} {next : Reply → Program α}
    (sends : (ask c go).settle (.ok site) = (warnings, .sending q next)) :
    c.encode = .ok q.call ∧ ∀ reply, next reply = go (q.exchange reply) := by
  rcases settle_ask (.ok site) c go with ⟨f, refused, settled⟩ | ⟨r, sent, settled⟩
  · rw [ends f (Site.request_error refused)] at settled
    cases settled.symm.trans sends
  · cases settled.symm.trans sends
    exact ⟨Site.request_ok sent, fun reply => rfl⟩

theorem Ends.finished (ends : Ends go) {r : Except Fault α}
    (done : (ask c go).settle (.ok site) = (warnings, .finished r)) : ∃ f, r = .error f := by
  rcases settle_ask (.ok site) c go with ⟨f, refused, settled⟩ | ⟨_, -, settled⟩
  · rw [ends f (Site.request_error refused)] at settled
    cases settled.symm.trans done
    exact ⟨f, rfl⟩
  · cases settled.symm.trans done

end Program

namespace Answer

variable {a : Answer}

theorem isError_of_missing (status : a.status = 404) : a.isError = true := by
  simp [isError, status]

theorem isNotFound_failure {method path : String} (other : a.status ≠ 404) :
    (a.failure method path).isNotFound = false := by
  unfold failure
  split
  · rfl
  · simp only [Fault.isNotFound, Answer.fault, HttpKind.ofStatus, if_neg other]
    split <;> rfl

end Answer

open Migration

/-- How far an update of a model's indexes has come: it has not listed them, it has design
documents to drop and indexes to add, or it has failed. -/
inductive Stage where
  | listing
  | working (drop : List String) (add : Entries Candidate)
  | failed

namespace Migration

def finish (h : Handle) (p : IndexPlan) (drop : List String) (add : Entries Candidate) :
    Program IndexPlan := do
  drop.forM fun design => discard (dropDesign h.database design)
  add.forM fun e => discard (create h e.2)
  pure p

def deleted (h : Handle) (p : IndexPlan) (drop : List String) (add : Entries Candidate) :
    Except Fault Value → Program IndexPlan
  | .ok _ => finish h p drop add
  | .error f => if f.isNotFound then finish h p drop add else .fail f

def deleting (h : Handle) (p : IndexPlan) (design : String) (rev : Value) (drop : List String)
    (add : Entries Candidate) : Program IndexPlan :=
  .ask (.delete h.database (designId design) rev) fun x =>
    deleted h p drop add (x.value (.delete h.database (designId design) rev))

def sought (h : Handle) (p : IndexPlan) (design : String) (drop : List String)
    (add : Entries Candidate) : Except Fault Value → Program IndexPlan
  | .ok found =>
    match found.required "_rev" with
    | .ok rev => deleting h p design rev drop add
    | .error f => .fail f
  | .error f => if f.isNotFound then finish h p drop add else .fail f

def created (h : Handle) (p : IndexPlan) (add : Entries Candidate) :
    Except Fault Value → Program IndexPlan
  | .ok _ => finish h p [] add
  | .error f => .fail f

def listed (h : Handle) (rebuild : Bool) (r : Except Fault Value) : Program IndexPlan := do
  let answer ← Program.ofExcept r
  let fields ← Program.ofExcept (answer.fieldsFor "get")
  let items ← Program.ofExcept ((Entries.get? fields "indexes").getD (.array [])).members
  let owned ← Program.ofExcept (ListedIndex.listOwned Naming.default h.name items)
  let wanted ← Program.ofNoted (Candidate.all Naming.default h.definition h.discriminator)
  let p ← Program.ofExcept (IndexPlan.make wanted owned rebuild)
  finish h p (designs p.drop) p.add

variable {h : Handle} {p : IndexPlan} {design : String} {drop : List String}
  {e : String × Candidate} {add : Entries Candidate}

theorem missing_bind (f : Fault) (q : Program IndexPlan) :
    ((if f.isNotFound then pure false else Program.fail f : Program Bool) >>= fun _ => q) =
      if f.isNotFound then q else .fail f := by
  split <;> rfl

theorem finish_drop : finish h p (design :: drop) add =
    .ask (.get h.database (designId design)) fun x =>
      sought h p design drop add (x.value (.get h.database (designId design))) := by
  have step : finish h p (design :: drop) add =
      dropDesign h.database design >>= fun _ => finish h p drop add := by
    rw [finish, Program.forM_cons_bind, Program.discard_bind]
    rfl
  rw [step]
  refine congrArg (Program.ask _) (funext fun x => ?_)
  obtain ⟨r, same⟩ : ∃ r, x.value (.get h.database (designId design)) = r := ⟨_, rfl⟩
  simp only [same]
  cases r with
  | error f => exact missing_bind f _
  | ok found =>
    show (Program.rescue (do
        let rev ← Program.ofExcept (found.required "_rev")
        let _ ← Program.request (.delete h.database (designId design) rev)
        pure true) (fun f => if f.isNotFound then pure false else .fail f) >>=
      fun _ => finish h p drop add) = sought h p design drop add (.ok found)
    rw [sought]
    cases dated : found.required "_rev" with
    | error f =>
      refine Eq.trans (missing_bind f _) ?_
      rw [Value.isNotFound_of_required dated]
      rfl
    | ok rev =>
      refine congrArg (Program.ask _) (funext fun x => ?_)
      obtain ⟨r, same⟩ :
          ∃ r, x.value (.delete h.database (designId design) rev) = r := ⟨_, rfl⟩
      simp only [same]
      cases r with
      | ok answer => rfl
      | error f => exact missing_bind f _

theorem finish_add : finish h p [] (e :: add) =
    .ask (.createIndex h.database e.2.toRequest) fun x =>
      created h p add (x.value (.createIndex h.database e.2.toRequest)) := by
  have step : finish h p [] (e :: add) = create h e.2 >>= fun _ => finish h p [] add := by
    show ((e :: add).forM (fun e => discard (create h e.2)) >>= fun _ => pure p) = _
    rw [Program.forM_cons_bind, Program.discard_bind]
    rfl
  rw [step]
  refine congrArg (Program.ask _) (funext fun x => ?_)
  obtain ⟨r, same⟩ : ∃ r, x.value (.createIndex h.database e.2.toRequest) = r := ⟨_, rfl⟩
  simp only [same]
  cases r <;> rfl

theorem migrate_eq (rebuild : Bool) : migrate h rebuild =
    .ask (.listIndexes h.database) fun x =>
      listed h rebuild (x.value (.listIndexes h.database)) := by
  have step : migrate h rebuild =
      Program.request (.listIndexes h.database) >>= fun answer =>
        listed h rebuild (.ok answer) := by
    simp only [migrate, plan, listing, entries, carryOut, listed, finish, bind_assoc]
    rfl
  rw [step]
  refine congrArg (Program.ask _) (funext fun x => ?_)
  obtain ⟨r, same⟩ : ∃ r, x.value (.listIndexes h.database) = r := ⟨_, rfl⟩
  simp only [same]
  cases r <;> rfl

end Migration

/-- What is to be added is wanted, and what is wanted of what is to be dropped is to be added. -/
structure Handle.Owes (h : Handle) (drop : List String) (add : Entries Candidate) : Prop where
  wanted : ∀ e ∈ add, e ∈ h.candidates
  restored : ∀ design ∈ drop, ∃ name, design = h.indexDesign name ∧
    ∀ c, (name, c) ∈ h.candidates → (name, c) ∈ add

/-- The stage that a program is at. -/
inductive Stage.At (h : Handle) : Stage → Program IndexPlan → Prop where
  | listing : At h .listing (migrate h false)
  | finishing {p : IndexPlan} {drop : List String} {add : Entries Candidate}
      (owes : h.Owes drop add) : At h (.working drop add) (finish h p drop add)
  | deleting {p : IndexPlan} {design : String} {rev : Value} {drop : List String}
      {add : Entries Candidate} (owes : h.Owes (design :: drop) add) :
      At h (.working (design :: drop) add) (deleting h p design rev drop add)
  | remark {w : Warning} {rest : Program IndexPlan} {stage : Stage} (stands : At h stage rest) :
      At h stage (.remark w rest)
  | failed {f : Fault} : At h .failed (.fail f)

/-- A wanted index is in its design document, alone and with the fields it should have. -/
def Designs.Fits (s : Designs) (c : Candidate) : Prop :=
  ∃ rev raw fields, s c.designId = some ⟨rev, [(c.name, raw)]⟩ ∧
    IndexField.Reads raw fields ∧ ∀ f, f ∈ fields ↔ f ∈ c.fields

theorem Designs.Fits.of_eq {s t : Designs} {c : Candidate} (fits : s.Fits c)
    (same : t c.designId = s c.designId) : t.Fits c := by
  obtain ⟨rev, raw, fields, kept, reads, each⟩ := fits
  exact ⟨rev, raw, fields, same.trans kept, reads, each⟩

theorem Designs.Keeps.fits {h : Handle} {s : Designs} {e : String × Candidate}
    (mem : e ∈ h.candidates) {fields : List IndexField} (keeps : s.Keeps h e.1 fields)
    (same : IndexPlan.sameFields e.2.fields fields = true) : s.Fits e.2 := by
  obtain ⟨rev, raw, here, reads⟩ := keeps
  obtain ⟨named, design⟩ := Handle.of_mem_candidates mem
  refine ⟨rev, raw, fields, ?_, reads, fun f => (IndexPlan.sameFields_iff.1 same f).symm⟩
  rw [design, named, here]

/-- What one request that is served makes of a stage and of the design documents. -/
inductive Stage.Moves (h : Handle) (s : Designs) : Stage → Stage → Designs → Prop where
  | planned {drop : List String} {add : Entries Candidate}
      (missing : ∀ e ∈ h.candidates, s.Fits e.2 ∨ e ∈ add)
      (orphans : ∀ name ∉ Entries.keys h.candidates,
        s (h.indexDesign name) = none ∨ h.indexDesign name ∈ drop) :
      Moves h s .listing (.working drop add) s
  | waited {drop : List String} {add : Entries Candidate} :
      Moves h s (.working drop add) (.working drop add) s
  | dropped {design : String} {drop : List String} {add : Entries Candidate} {t : Designs}
      (gone : t design = none) (others : ∀ id, id ≠ design → t id = s id) :
      Moves h s (.working (design :: drop) add) (.working drop add) t
  | added {e : String × Candidate} {add : Entries Candidate} {t : Designs} (fits : t.Fits e.2)
      (others : ∀ id, id ≠ e.2.designId → t id = s id) :
      Moves h s (.working [] (e :: add)) (.working [] add) t
  | refused {stage : Stage} : Moves h s stage .failed s
  -- The store did what it was asked for, and its answer could not be read.
  | unread {drop : List String} {add : Entries Candidate} {stage : Stage} {t : Designs}
      (moves : Moves h s (.working drop add) stage t) : Moves h s (.working drop add) .failed t

namespace Stage

variable {h : Handle} {s t : Designs} {site : Site} {warnings : List Warning}
  {program : Program IndexPlan} {stage : Stage} {drop : List String} {add : Entries Candidate}

theorem designId_indexDesign (h : Handle) (name : String) :
    designId (h.indexDesign name) = h.indexDesign name := by
  have found : (Path.designName? (h.indexDesign name)).isSome = true := by
    rw [Path.designName?, Option.isSome_map, Option.isSome_iff_exists]
    exact ⟨(Naming.default.designName h.name name).toList,
      Text.afterLeading?_eq_some.2 (by rw [Handle.indexDesign, String.toList_append])⟩
  exact if_pos found

theorem designId_design {e : String × Candidate} (mem : e ∈ h.candidates) :
    designId e.2.design = e.2.designId := by
  obtain ⟨wanted, -, rfl⟩ := List.mem_map.1 mem
  have chars : (Naming.default.designName h.name wanted.1).toList =
      'L' :: ("BModel__" ++ h.name ++ "__LBIndex__" ++ wanted.1).toList := by
    simp [Naming.designName, Naming.modelStem, Naming.default, String.toList_append]
  have bare : (Path.designName? (Naming.default.designName h.name wanted.1)).isSome = false := by
    rw [Path.designName?, chars]
    rfl
  exact if_neg (by rw [Candidate.ofWanted, bare]; simp)

theorem ends_sought {p : IndexPlan} {design : String} {c : Call} :
    Program.Ends fun x => sought h p design drop add (x.value c) := by
  intro f other
  show (if f.isNotFound then _ else _) = _
  rw [other]
  rfl

theorem ends_deleted {p : IndexPlan} {c : Call} :
    Program.Ends fun x => deleted h p drop add (x.value c) := by
  intro f other
  show (if f.isNotFound then _ else _) = _
  rw [other]
  rfl

theorem ends_created {p : IndexPlan} {c : Call} :
    Program.Ends fun x => created h p add (x.value c) :=
  fun _ _ => rfl

theorem ends_listed {rebuild : Bool} {c : Call} :
    Program.Ends fun x => listed h rebuild (x.value c) :=
  fun _ _ => rfl

theorem At.ended (stands : At h stage program) {p : IndexPlan}
    (ends : program.settle (.ok site) = (warnings, .finished (.ok p))) :
    stage = .working [] [] := by
  induction stands generalizing warnings with
  | listing =>
    rw [migrate_eq] at ends
    obtain ⟨f, wrong⟩ := ends_listed.finished ends
    cases wrong
  | @finishing p' drop add owes =>
    cases drop with
    | cons design drop =>
      rw [finish_drop] at ends
      obtain ⟨f, wrong⟩ := ends_sought.finished ends
      cases wrong
    | nil =>
      cases add with
      | nil => rfl
      | cons e add =>
        rw [finish_add] at ends
        obtain ⟨f, wrong⟩ := ends_created.finished ends
        cases wrong
  | deleting owes =>
    obtain ⟨f, wrong⟩ := ends_deleted.finished ends
    cases wrong
  | @remark w rest stage stands ih =>
    obtain ⟨_, settled, -⟩ := Program.settle_remark.1 ends
    exact ih settled
  | failed => cases ends

theorem At.remarks (stands : At h stage program) (warnings : List Warning) :
    At h stage (warnings.foldr .remark program) := by
  induction warnings with
  | nil => exact stands
  | cons w rest ih => exact .remark ih

theorem exists_table (readable : s.Readable h) (rebuild : Bool) {fields : Fields}
    {entries : List Value} (listing : Entries.get? fields "indexes" = some (.array entries))
    (lists : s.Lists entries) :
    ∃ table p, s.Counts h table ∧
      ListedIndex.listOwned Naming.default h.name entries = .ok (h.ownListing table) ∧
      p = IndexPlan.of h.candidates (h.ownListing table) rebuild ∧
      listed h rebuild (.ok (.object fields)) =
        (Candidate.all Naming.default h.definition h.discriminator).warnings.foldr .remark
          (finish h p (designs p.drop) p.add) := by
  obtain ⟨table, owned, counts⟩ := lists.listOwned readable
  refine ⟨table, _, counts, owned, rfl, ?_⟩
  have read : ((Entries.get? fields "indexes").getD (.array [])).members = .ok entries := by
    rw [listing]
    rfl
  show (Program.ofExcept ((Entries.get? fields "indexes").getD (.array [])).members >>= _) = _
  rw [read]
  show (Program.ofExcept (ListedIndex.listOwned Naming.default h.name entries) >>= _) = _
  rw [owned]
  show (Program.ofNoted (Candidate.all Naming.default h.definition h.discriminator) >>= _) = _
  rw [Program.ofNoted_bind, h.outcome_all]
  show List.foldr _ (Program.ofExcept (IndexPlan.make h.candidates (h.ownListing table) rebuild) >>=
    _) _ = _
  rw [IndexPlan.make_ownListing h.nodup_candidates]
  rfl

/-- A listing that was read makes a plan: what does not fit is added, and what does not
belong is dropped. -/
theorem exists_listed (tidy : s.Tidy h) {fields : Fields} {entries : List Value}
    (listing : Entries.get? fields "indexes" = some (.array entries)) (lists : s.Lists entries) :
    ∃ drop add, At h (.working drop add) (listed h false (.ok (.object fields))) ∧
      Moves h s .listing (.working drop add) s := by
  obtain ⟨table, p, counts, -, plan, rest⟩ := exists_table tidy.readable false listing lists
  rw [IndexPlan.of_ownListing h.nodup_candidates] at plan
  subst plan
  have owes : h.Owes (designs (h.ownListing (IndexPlan.dropped h.candidates table)))
      (h.candidates.filter (IndexPlan.lacks table)) := by
    refine ⟨fun e mem => (List.mem_filter.1 mem).1, fun design mem => ?_⟩
    obtain ⟨⟨name, i⟩, gone, rfl⟩ := Listing.mem_designs.1 mem
    have held := IndexPlan.get?_of_mem_dropped counts.distinct gone
    have place : i.place = name := ((counts.tidy tidy).1 held).1
    refine ⟨name, congrArg h.indexDesign place, fun c wanted => List.mem_filter.2 ⟨wanted, ?_⟩⟩
    exact IndexPlan.lacks_of_mem_dropped h.nodup_candidates gone wanted
  refine ⟨designs (h.ownListing (IndexPlan.dropped h.candidates table)),
    h.candidates.filter (IndexPlan.lacks table), rest ▸ (At.finishing owes).remarks _,
    .planned ?_ ?_⟩
  · intro e mem
    cases missing : IndexPlan.lacks table e with
    | true => exact .inr (List.mem_filter.2 ⟨mem, missing⟩)
    | false =>
      obtain ⟨old, here, same⟩ := IndexPlan.lacks_eq_false.1 missing
      exact .inl (((counts.tidy tidy).1 here).2.fits mem same)
  · intro name unwanted
    cases here : s (h.indexDesign name) with
    | none => exact .inl rfl
    | some d =>
      obtain ⟨fields, kept⟩ := tidy name d here
      have here : Entries.get? table name = some ⟨name, fields⟩ :=
        (counts.tidy tidy).2 ⟨rfl, kept⟩
      have gone : (name, ⟨name, fields⟩) ∈ IndexPlan.dropped h.candidates table :=
        IndexPlan.mem_dropped.2 (.inr ⟨Entries.mem_of_get? here, unwanted⟩)
      exact .inr (Listing.mem_designs.2 ⟨_, gone, rfl⟩)

theorem served_listed {db path : String} {a : Answer} (tidy : s.Tidy h)
    (served : s.Serves (.listIndexes db) a t) :
    ∃ stage', At h stage' (listed h false ((Exchange.answered path a).value (.listIndexes db))) ∧
      Moves h s .listing stage' t := by
  cases served with
  | listed sound body listing lists =>
    rw [Exchange.value_of_body sound body]
    obtain ⟨drop, add, stands, moves⟩ := exists_listed tidy listing lists
    exact ⟨_, stands, moves⟩
  | failed failed other =>
    rw [Exchange.value_of_failed failed]
    exact ⟨.failed, .failed, .refused⟩

theorem sought_cases {db design : String} {a : Answer} (served : s.Serves (.get db design) a t)
    (path : String) (h : Handle) (p : IndexPlan) (drop : List String) (add : Entries Candidate) :
    let next := sought h p design drop add ((Exchange.answered path a).value (.get db design))
    t = s ∧ ((∃ rev, next = deleting h p design rev drop add) ∨
      (s design = none ∧ next = finish h p drop add) ∨ ∃ f, next = .fail f) := by
  intro next
  cases served with
  | @found _ _ _ d fields here sound body dated =>
    have required : (Value.object fields).required "_rev" = .ok (.str d.rev) := by
      simp only [Value.required, dated]
    refine ⟨rfl, .inl ⟨.str d.rev, ?_⟩⟩
    simp only [next, Exchange.value_of_body sound body, sought, required]
  | missing absent status =>
    refine ⟨rfl, .inr ?_⟩
    simp only [next, Exchange.value_of_failed (Answer.isError_of_missing status), sought]
    split
    · exact .inl ⟨absent, rfl⟩
    · exact .inr ⟨_, rfl⟩
  | failed failed other =>
    refine ⟨rfl, .inr (.inr ⟨a.failure (Call.get db design).method path, ?_⟩)⟩
    simp only [next, Exchange.value_of_failed failed, sought]
    exact if_neg (by simp [Answer.isNotFound_failure other])

theorem deleted_cases {db design : String} {rev : Value} {a : Answer}
    (served : s.Serves (.delete db design rev) a t) (path : String) (h : Handle) (p : IndexPlan)
    (drop : List String) (add : Entries Candidate) :
    let next := deleted h p drop add ((Exchange.answered path a).value (.delete db design rev))
    (t design = none ∧ (∀ id, id ≠ design → t id = s id) ∧ next = finish h p drop add) ∨
      (t = s ∨ t design = none ∧ ∀ id, id ≠ design → t id = s id) ∧ ∃ f, next = .fail f := by
  intro next
  have refused (failed : a.isError = true) (other : a.status ≠ 404) :
      next = .fail (a.failure (Call.delete db design rev).method path) := by
    simp only [next, Exchange.value_of_failed failed, deleted]
    exact if_neg (by simp [Answer.isNotFound_failure other])
  cases served with
  | @deleted _ _ _ d here sound =>
    have gone : s.put design none design = none := if_pos rfl
    have others : ∀ id, id ≠ design → s.put design none id = s id := fun id other => if_neg other
    cases answer : (Exchange.answered path a).value (.delete db design (.str d.rev)) with
    | ok v =>
      refine .inl ⟨gone, others, ?_⟩
      simp only [next, answer, deleted]
    | error f =>
      have other := Exchange.isNotFound_of_value sound answer
      refine .inr ⟨.inr ⟨gone, others⟩, f, ?_⟩
      simp only [next, answer, deleted]
      exact if_neg (by simp [other])
  | gone absent status =>
    have answer : next = deleted h p drop add
        (.error (a.failure (Call.delete db design rev).method path)) :=
      congrArg (deleted h p drop add) (Exchange.value_of_failed (Answer.isError_of_missing status))
    rw [answer, deleted]
    split
    · exact .inl ⟨absent, fun _ _ => rfl, rfl⟩
    · exact .inr ⟨.inl rfl, _, rfl⟩
  | stale here other status =>
    have failed : a.isError = true := by simp [Answer.isError, status]
    exact .inr ⟨.inl rfl, _, refused failed (by simp [status])⟩
  | failed failed other => exact .inr ⟨.inl rfl, _, refused failed other⟩

theorem created_cases {db : String} {e : String × Candidate} {a : Answer}
    (served : s.Serves (.createIndex db e.2.toRequest) a t) (path : String) (h : Handle)
    (p : IndexPlan) (add : Entries Candidate) :
    let next := created h p add ((Exchange.answered path a).value (.createIndex db e.2.toRequest))
    (∃ rev, t = s.put (designId e.2.design) (some ⟨rev,
        Entries.set (s.indexes (designId e.2.design)) e.2.name
          (.array (e.2.fields.map IndexField.toValue))⟩) ∧
      (next = finish h p [] add ∨ ∃ f, next = .fail f)) ∨
      t = s ∧ ∃ f, next = .fail f := by
  intro next
  cases served with
  | @created _ design name rev _ raw _ asks sound =>
    obtain ⟨definition, place, named, given, found⟩ := asks
    cases place
    cases named
    cases given
    cases found
    refine .inl ⟨rev, rfl, ?_⟩
    cases answer : (Exchange.answered path a).value (.createIndex db e.2.toRequest) with
    | ok v =>
      refine .inl ?_
      simp only [next, answer, created]
    | error f =>
      refine .inr ⟨f, ?_⟩
      simp only [next, answer, created]
  | failed failed other =>
    refine .inr ⟨rfl, a.failure (Call.createIndex db e.2.toRequest).method path, ?_⟩
    simp only [next, Exchange.value_of_failed failed, created]

theorem served_sought {db design path : String} {p : IndexPlan} {a : Answer}
    (owes : h.Owes (design :: drop) add) (served : s.Serves (.get db design) a t) :
    ∃ stage', At h stage'
        (sought h p design drop add ((Exchange.answered path a).value (.get db design))) ∧
      Moves h s (.working (design :: drop) add) stage' t := by
  have owes' : h.Owes drop add :=
    ⟨owes.wanted, fun other mem => owes.restored other (List.mem_cons_of_mem _ mem)⟩
  obtain ⟨rfl, ⟨rev, next⟩ | ⟨absent, next⟩ | ⟨f, next⟩⟩ := sought_cases served path h p drop add
  · exact ⟨_, next ▸ .deleting owes, .waited⟩
  · exact ⟨_, next ▸ .finishing owes', .dropped absent fun _ _ => rfl⟩
  · exact ⟨.failed, next ▸ .failed, .refused⟩

theorem served_deleting {db design path : String} {rev : Value} {p : IndexPlan} {a : Answer}
    (owes : h.Owes (design :: drop) add) (served : s.Serves (.delete db design rev) a t) :
    ∃ stage', At h stage'
        (deleted h p drop add ((Exchange.answered path a).value (.delete db design rev))) ∧
      Moves h s (.working (design :: drop) add) stage' t := by
  have owes' : h.Owes drop add :=
    ⟨owes.wanted, fun other mem => owes.restored other (List.mem_cons_of_mem _ mem)⟩
  obtain ⟨gone, others, next⟩ | ⟨rfl | ⟨gone, others⟩, f, next⟩ :=
    deleted_cases served path h p drop add
  · exact ⟨_, next ▸ .finishing owes', .dropped gone others⟩
  · exact ⟨.failed, next ▸ .failed, .refused⟩
  · exact ⟨.failed, next ▸ .failed, .unread (.dropped gone others)⟩

theorem served_created {db path : String} {e : String × Candidate} {p : IndexPlan} {a : Answer}
    (owes : h.Owes [] (e :: add)) (tidy : s.Tidy h)
    (served : s.Serves (.createIndex db e.2.toRequest) a t) :
    ∃ stage', At h stage' (created h p add
        ((Exchange.answered path a).value (.createIndex db e.2.toRequest))) ∧
      Moves h s (.working [] (e :: add)) stage' t := by
  have mem := owes.wanted e List.mem_cons_self
  have owes' : h.Owes [] add :=
    ⟨fun d mem => owes.wanted d (List.mem_cons_of_mem _ mem), fun design mem => nomatch mem⟩
  obtain ⟨key, own⟩ := Handle.of_mem_candidates mem
  have alone : Entries.set (s.indexes e.2.designId) e.2.name
      (.array (e.2.fields.map IndexField.toValue)) =
      [(e.2.name, .array (e.2.fields.map IndexField.toValue))] := by
    cases here : s e.2.designId with
    | none =>
      rw [Designs.indexes, here]
      rfl
    | some d =>
      obtain ⟨fields, rev, raw, kept, -⟩ := tidy e.1 d (own ▸ here)
      rw [Designs.indexes, own, kept, key]
      exact if_pos rfl
  obtain ⟨rev, rfl, next⟩ | ⟨rfl, f, next⟩ := created_cases served path h p add
  · rw [designId_design mem, alone]
    have moves : Moves h s (.working [] (e :: add)) (.working [] add) (s.put e.2.designId
        (some ⟨rev, [(e.2.name, .array (e.2.fields.map IndexField.toValue))]⟩)) :=
      .added ⟨rev, _, e.2.fields, if_pos rfl, ⟨_, rfl, IndexField.mapM_ofValue _⟩, fun _ => .rfl⟩
        fun id other => if_neg other
    obtain next | ⟨f, next⟩ := next
    · exact ⟨_, next ▸ .finishing owes', moves⟩
    · exact ⟨.failed, next ▸ .failed, .unread moves⟩
  · exact ⟨.failed, next ▸ .failed, .refused⟩

/-- A program whose request is served goes on to what comes of its stage. -/
theorem At.served (stands : At h stage program) (tidy : s.Tidy h) {q : Request}
    {go : Reply → Program IndexPlan}
    (sends : program.settle (.ok site) = (warnings, .sending q go)) {a : Answer}
    (served : s.Serves q.call a t) {reply : Reply} {path : String}
    (arrives : q.exchange reply = .answered path a) :
    ∃ stage', At h stage' (go reply) ∧ Moves h s stage stage' t := by
  induction stands generalizing warnings with
  | listing =>
    rw [migrate_eq] at sends
    obtain ⟨form, next⟩ := ends_listed.sending sends
    rw [← Except.ok.inj form] at served
    rw [next, arrives]
    exact served_listed tidy served
  | @finishing p drop add owes =>
    cases drop with
    | cons design drop =>
      rw [finish_drop] at sends
      obtain ⟨form, next⟩ := ends_sought.sending sends
      rw [← Except.ok.inj form] at served
      rw [next, arrives]
      obtain ⟨name, rfl, -⟩ := owes.restored design List.mem_cons_self
      rw [designId_indexDesign] at served ⊢
      exact served_sought owes served
    | nil =>
      cases add with
      | nil => cases sends
      | cons e add =>
        rw [finish_add] at sends
        obtain ⟨form, next⟩ := ends_created.sending sends
        rw [← Except.ok.inj ((Candidate.encode_toRequest _ _).symm.trans form)] at served
        rw [next, arrives]
        exact served_created owes tidy served
  | @deleting p design rev drop add owes =>
    obtain ⟨form, next⟩ := ends_deleted.sending sends
    rw [← Except.ok.inj form] at served
    rw [next, arrives]
    obtain ⟨name, rfl, -⟩ := owes.restored design List.mem_cons_self
    rw [designId_indexDesign] at served ⊢
    exact served_deleting owes served
  | @remark w rest stage stands ih =>
    obtain ⟨_, settled, -⟩ := Program.settle_remark.1 sends
    exact ih settled
  | failed => cases sends

theorem At.owes (stands : At h (.working drop add) program) : h.Owes drop add := by
  generalize same : Stage.working drop add = stage at stands
  induction stands with
  | listing => cases same
  | finishing owes =>
    cases same
    exact owes
  | deleting owes =>
    cases same
    exact owes
  | remark stands ih => exact ih same
  | failed => cases same

theorem Moves.tidy {stage' : Stage} (moves : Moves h s stage stage' t) (tidy : s.Tidy h)
    (stands : At h stage program) : t.Tidy h := by
  induction moves with
  | planned missing orphans => exact tidy
  | waited => exact tidy
  | @dropped design drop add t gone others =>
    intro name d here
    have other : h.indexDesign name ≠ design := by
      rintro rfl
      rw [gone] at here
      cases here
    rw [others _ other] at here
    obtain ⟨fields, rev, raw, kept, reads⟩ := tidy name d here
    exact ⟨fields, rev, raw, (others _ other).trans kept, reads⟩
  | @added e add t fits others =>
    obtain ⟨key, own⟩ := Handle.of_mem_candidates (stands.owes.wanted e List.mem_cons_self)
    intro name d here
    by_cases same : h.indexDesign name = e.2.designId
    · obtain ⟨rev, raw, fields, kept, reads, -⟩ := fits
      have named : name = e.1 := Handle.indexDesign_inj.1 (same.trans own)
      refine ⟨fields, rev, raw, ?_, reads⟩
      rw [same, kept, key, named]
    · rw [others _ same] at here
      obtain ⟨fields, rev, raw, kept, reads⟩ := tidy name d here
      exact ⟨fields, rev, raw, (others _ same).trans kept, reads⟩
  | refused => exact tidy
  | unread moves ih => exact ih stands

variable {stage' : Stage} {e : String × Candidate} {name : String}

theorem Moves.fits (moves : Moves h s stage stage' t) (stands : At h stage program)
    (sound : stage' ≠ .failed) (mem : e ∈ h.candidates) (fits : s.Fits e.2) :
    t.Fits e.2 ∨ ∃ drop add, stage' = .working drop add ∧ e ∈ add := by
  obtain ⟨-, own⟩ := Handle.of_mem_candidates mem
  cases moves with
  | planned missing orphans => exact .inl fits
  | waited => exact .inl fits
  | @dropped design drop add t gone others =>
    by_cases same : e.2.designId = design
    · obtain ⟨name, there, restored⟩ := stands.owes.restored design List.mem_cons_self
      have named : e.1 = name := Handle.indexDesign_inj.1 (own.symm.trans (same.trans there))
      subst named
      exact .inr ⟨drop, add, rfl, restored e.2 mem⟩
    · exact .inl (fits.of_eq (others _ same))
  | @added d add t made others =>
    obtain ⟨-, own'⟩ := Handle.of_mem_candidates (stands.owes.wanted d List.mem_cons_self)
    by_cases same : e.2.designId = d.2.designId
    · have named : e.1 = d.1 := Handle.indexDesign_inj.1 (own.symm.trans (same.trans own'))
      have both : some e.2 = some d.2 := by
        rw [← Handle.get?_candidates mem, named,
          Handle.get?_candidates (stands.owes.wanted d List.mem_cons_self)]
      exact .inl (Option.some.inj both ▸ made)
    · exact .inl (fits.of_eq (others _ same))
  | refused => exact absurd rfl sound
  | unread moves => exact absurd rfl sound

theorem Moves.to_add (moves : Moves h s (.working drop add) stage' t) (sound : stage' ≠ .failed)
    (mem : e ∈ add) : t.Fits e.2 ∨ ∃ drop add, stage' = .working drop add ∧ e ∈ add := by
  cases moves with
  | waited => exact .inr ⟨_, _, rfl, mem⟩
  | dropped gone others => exact .inr ⟨_, _, rfl, mem⟩
  | added made others =>
    rcases List.mem_cons.1 mem with rfl | mem
    · exact .inl made
    · exact .inr ⟨_, _, rfl, mem⟩
  | refused => exact absurd rfl sound
  | unread moves => exact absurd rfl sound

theorem Moves.absent (moves : Moves h s stage stage' t) (stands : At h stage program)
    (sound : stage' ≠ .failed) (unwanted : name ∉ Entries.keys h.candidates)
    (absent : s (h.indexDesign name) = none) : t (h.indexDesign name) = none := by
  cases moves with
  | planned missing orphans => exact absent
  | waited => exact absent
  | @dropped design drop add t gone others =>
    by_cases same : h.indexDesign name = design
    · rw [same, gone]
    · rw [others _ same, absent]
  | @added d add t made others =>
    have wanted := stands.owes.wanted d List.mem_cons_self
    have other : h.indexDesign name ≠ d.2.designId := by
      rw [(Handle.of_mem_candidates wanted).2]
      intro same
      exact unwanted (List.mem_map.2 ⟨d, wanted, (Handle.indexDesign_inj.1 same).symm⟩)
    rw [others _ other, absent]
  | refused => exact absurd rfl sound
  | unread moves => exact absurd rfl sound

theorem Moves.to_drop {design : String} (moves : Moves h s (.working drop add) stage' t)
    (sound : stage' ≠ .failed) (mem : design ∈ drop) :
    t design = none ∨ ∃ drop add, stage' = .working drop add ∧ design ∈ drop := by
  cases moves with
  | waited => exact .inr ⟨_, _, rfl, mem⟩
  | dropped gone others =>
    rcases List.mem_cons.1 mem with rfl | mem
    · exact .inl gone
    · exact .inr ⟨_, _, rfl, mem⟩
  | added made others => cases mem
  | refused => exact absurd rfl sound
  | unread moves => exact absurd rfl sound

end Stage

end ModelStore
