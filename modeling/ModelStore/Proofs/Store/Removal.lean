import ModelStore.Proofs.Store.Addressing
import ModelStore.Proofs.Store.Concurrency
import ModelStore.Proofs.Store.Gathering
import ModelStore.Store.Remove

/-! Removal of all documents that a filter finds. Each document is deleted by a program of its
own, and these run side by side. However their deletes are answered and in whatever order, each
sends its one request, and the removal tells what became of every one of them. -/

namespace ModelStore

open Relation (ReflTransGen)

namespace Remove

def deleted (outcomes : List (Except Fault Value)) : Nat :=
  outcomes.countP fun r => r.toOption.any fun v => (Value.ofOption (v.get? "ok")).truthy

def faults (outcomes : List (Except Fault Value)) : List Fault :=
  outcomes.filterMap fun
    | .ok _ => none
    | .error f => some f

theorem tally_eq {outcomes : List (Except Fault Value)}
    (objects : ∀ v, .ok v ∈ outcomes → ∃ fields, v = .object fields) :
    tally outcomes = .ok ⟨deleted outcomes, faults outcomes⟩ := by
  induction outcomes with
  | nil => rfl
  | cons r rest ih =>
    have others := ih fun v mem => objects v (List.mem_cons_of_mem _ mem)
    cases r with
    | error f =>
      rw [tally, others]
      simp [Except.map, deleted, faults, Except.toOption]
    | ok v =>
      obtain ⟨fields, rfl⟩ := objects v List.mem_cons_self
      have here : confirms (.object fields) =
          .ok (Value.ofOption (Entries.get? fields "ok")).truthy := rfl
      rw [tally, here, others]
      cases sure : (Value.ofOption (Entries.get? fields "ok")).truthy <;>
        simp [bind, Except.bind, deleted, faults, Except.toOption, Value.get?, sure]

theorem failures_of_tally {outcomes : List (Except Fault Value)} {t : Tally}
    (h : tally outcomes = .ok t) : t.failures = faults outcomes := by
  induction outcomes generalizing t with
  | nil =>
    cases h
    rfl
  | cons r rest ih =>
    cases r with
    | error f =>
      obtain ⟨u, others, rfl⟩ := Except.map_eq_ok.1 h
      exact congrArg (f :: ·) (ih others)
    | ok v =>
      obtain ⟨confirmed, -, h⟩ := Except.bind_eq_ok.1 h
      obtain ⟨u, others, h⟩ := Except.bind_eq_ok.1 h
      cases h
      have same : u.failures = faults rest := ih others
      cases confirmed <;> exact same

def verdict (model : String) (outcomes : List (Except Fault Value)) : Except Fault Nat :=
  if faults outcomes = [] then .ok (deleted outcomes)
  else .error (.deletesFailed model (faults outcomes) (deleted outcomes))

theorem settled_eq (model : String) (outcomes : List (Except Fault Value)) :
    settled model ⟨deleted outcomes, faults outcomes⟩ = verdict model outcomes := by
  simp [settled, verdict, List.isEmpty_iff]

variable {h : Handle} {id : String} {rev d : Value}

/-- What the deletion of a document ends with, by what comes of its request. -/
structure Outcome (h : Handle) (id : String) (x : Exchange) (r : Except Fault Value) : Prop where
  value : ∀ path a v, x = .answered path a → a.isError = false → a.body = .ok v → r = .ok v
  refusal : ∀ path a, x = .answered path a → a.status = 404 ∨ a.status = 409 →
    a.body ≠ .error .tooDeep → ∃ e, r = .error (.http e) ∧ e.kind = .ofStatus a.status ∧
      e.status = a.status ∧ e.model = some h.name ∧ e.docId = some id
  error : ∀ path a, x = .answered path a → a.isError = true → a.status ≠ 404 → a.status ≠ 409 →
    r = .error (a.failure "DELETE" path)
  silence : ∀ f, x = .failed f → r = .error (.transport f)

/-- A fault of a deletion, told for the document if it is the document's. -/
def blamed (h : Handle) (id : String) : Except Fault Value → Except Fault Value
  | .error (.http e) =>
    .error (.http (if e.kind = .notFound ∨ e.kind.isConflict then
      e.withContext (some h.name) (.str id) none "" else e))
  | r => r

theorem outcome_blamed (h : Handle) (id : String) (rev : Value) (x : Exchange) :
    Outcome h id x (blamed h id (x.value (.delete h.database id rev))) where
  value := by
    rintro path a v rfl sound body
    rw [Exchange.value_of_body sound body]
    rfl
  refusal := by
    rintro path a rfl status readable
    have failed : a.isError = true := by
      rcases status with status | status <;> simp [Answer.isError, status]
    have told : a.failure "DELETE" path = .http (a.fault "DELETE" path) := by
      unfold Answer.failure
      split
      · rename_i deep
        exact absurd deep readable
      · rfl
    have value : (Exchange.answered path a).value (.delete h.database id rev) =
        .error (.http (a.fault "DELETE" path)) :=
      (Exchange.value_of_failed failed).trans (congrArg Except.error told)
    have kind : (a.fault "DELETE" path).kind = .ofStatus a.status := rfl
    have own : (a.fault "DELETE" path).kind = .notFound ∨
        (a.fault "DELETE" path).kind.isConflict = true := by
      rw [kind]
      rcases status with status | status <;> simp [HttpKind.ofStatus, HttpKind.isConflict, status]
    rw [value]
    refine ⟨_, rfl, ?_⟩
    rw [if_pos own]
    exact ⟨kind, rfl, rfl, rfl⟩
  error := by
    rintro path a rfl failed missing conflict
    rw [Exchange.value_of_failed failed]
    show blamed h id (.error (a.failure "DELETE" path)) = _
    unfold Answer.failure
    split
    · rfl
    · simp [blamed, Answer.fault, HttpKind.ofStatus, HttpKind.isConflict, missing, conflict]
  silence := by
    rintro f rfl
    rfl

theorem required_of_get? {key : String} {v : Value} (has : d.get? key = some v) :
    d.required key = .ok v := by
  cases d with
  | object fields =>
    have here : Entries.get? fields key = some v := has
    rw [Value.required, here]
  | _ => cases has

theorem document_eq (named : d.get? "_id" = some (.str id)) (dated : d.get? "_rev" = some rev) :
    document h d = .ask (.delete h.database id rev) fun x =>
      .done (blamed h id (x.value (.delete h.database id rev))) := by
  unfold document
  rw [required_of_get? named, required_of_get? dated]
  show (Program.request (.delete h.database id rev)).retell _ = _
  unfold Program.request Program.retell Program.rescue
  simp only [Program.andThen]
  congr 1
  funext x
  cases x.value (.delete h.database id rev) with
  | ok v => rfl
  | error f => cases f <;> rfl

/-- The strand of a document's deletion when it is over. It asked once for the document to be
deleted under its own id and revision, unless no request can be made of that. The request goes
to the path of the document if that has no dot segment. -/
inductive Settles (site : Site) (h : Handle) (d : Value) : Strand Value → Prop where
  | sent {id : String} {rev : Value} {q : Request} {reply : Reply} {r : Except Fault Value}
      (named : d.get? "_id" = some (.str id)) (dated : d.get? "_rev" = some rev)
      (request : site.request (.delete h.database id rev) = .ok q)
      (revision : q.url.query = some (UrlQuery.encode (Call.paramFields "rev" rev)))
      (path : q.url.path = site.documentPath h.database id ↔ ¬Path.HasDots h.database id)
      (outcome : Outcome h id (q.exchange reply) r) : Settles site h d ⟨[q], [reply], .ended r⟩
  | unsent {id : String} {rev : Value} {f : Fault} (named : d.get? "_id" = some (.str id))
      (dated : d.get? "_rev" = some rev)
      (request : site.request (.delete h.database id rev) = .error f) :
      Settles site h d ⟨[], [], .ended (.error f)⟩

variable {site : Site}

theorem exists_url_of_request {db : String} {f : Fault}
    (unsent : site.request (.delete db id rev) = .error f) : ∃ e, f = .url e := by
  unfold Site.request at unsent
  cases address : site.address (.delete db id rev) with
  | error e =>
    rw [address] at unsent
    cases unsent
    exact ⟨e, rfl⟩
  | ok url =>
    rw [address] at unsent
    cases unsent

theorem settles_of_reaches (plain : site.Plain) (placed : h.database ≠ "")
    (whole : ∃ id rev, d.get? "_id" = some (.str id) ∧ d.get? "_rev" = some rev)
    {s : Strand Value} {r : Except Fault Value}
    (reaches : (Strand.start (document h d)).Reaches (.ok site) s) (ended : s.phase = .ended r) :
    Settles site h d s := by
  obtain ⟨id, rev, named, dated⟩ := whole
  let c : Call := .delete h.database id rev
  have settled := Program.settle.eq_3 (.ok site) c fun x => .done (blamed h id (x.value c))
  rw [← document_eq named dated] at settled
  cases request : site.request c with
  | error f =>
    simp only [Except.bind, request] at settled
    obtain ⟨rfl, rfl⟩ := Strand.Reaches.of_finished settled reaches ended
    obtain ⟨e, rfl⟩ := exists_url_of_request request
    exact .unsent named dated request
  | ok q =>
    simp only [Except.bind, request] at settled
    obtain ⟨reply, later⟩ := Strand.Reaches.of_sending settled reaches ended
    obtain ⟨rfl, rfl⟩ := Strand.Reaches.of_finished rfl later ended
    obtain ⟨revision, path⟩ := plain.address_delete placed request
    exact .sent named dated request revision path (outcome_blamed h id rev _)

theorem settles_of_each (plain : site.Plain) (placed : h.database ≠ "") {docs : List Value}
    (whole : ∀ d ∈ docs, ∃ id rev, d.get? "_id" = some (.str id) ∧ d.get? "_rev" = some rev)
    {strands : List (Strand Value)} {outcomes : List (Except Fault Value)}
    (each : List.Forall₂ (Strand.Reaches (.ok site))
      (docs.map fun d => .start (document h d)) strands)
    (ended : List.Forall₂ (fun s r => s.phase = .ended r) strands outcomes) :
    List.Forall₂ (Settles site h) docs strands := by
  induction docs generalizing strands outcomes with
  | nil =>
    cases each
    exact .nil
  | cons d rest ih =>
    cases each with
    | cons first others =>
      cases ended with
      | cons last lasts =>
        obtain ⟨here, there⟩ := List.forall_mem_cons.1 whole
        exact .cons (settles_of_reaches plain placed here first last) (ih there others lasts)

/-- The removal asks what its search and its deletions ask, and goes on to its verdict. -/
theorem run_all {pageSize : Nat} {limit : Option Nat} {filter : Value}
    {search : Strand (List Value)} {docs : List Value}
    (found : (Strand.start (Query.resolve pageSize h filter limit)).Reaches (.ok site) search)
    (resolved : search.phase = .ended (.ok docs)) {strands : List (Strand Value)}
    {outcomes : List (Except Fault Value)}
    (each : List.Forall₂ (Strand.Reaches (.ok site))
      (docs.map fun d => .start (document h d)) strands)
    (ended : List.Forall₂ (fun s r => s.phase = .ended r) strands outcomes)
    (objects : ∀ v, .ok v ∈ outcomes → ∃ fields, v = .object fields) :
    ((all pageSize limit h filter).run (.ok site)
      (search.told ++ strands.flatMap Strand.told)).Continues
      (search.asked ++ strands.flatMap Strand.asked) (.ended 0 (verdict h.name outcomes)) := by
  let conclude (outcomes : List (Except Fault Value)) : Program Nat := do
    let t ← Program.ofExcept (tally outcomes)
    Program.ofExcept (settled h.name t)
  have concluded : (conclude outcomes).run (.ok site) [] = .ended 0 (verdict h.name outcomes) := by
    rw [← settled_eq]
    show Program.run (Program.ofExcept (tally outcomes) >>= _) _ _ = _
    rw [tally_eq objects]
    rfl
  rw [← Function.comp_def Strand.start, ← List.map_map] at each
  have deletions := Program.run_collect_bind each ended conclude []
  rw [concluded, List.append_nil] at deletions
  exact (found.run_bind resolved (fun docs => Program.collect (docs.map (document h)) >>= conclude)
    _).trans deletions

def couple : List Value :=
  [.object [("_id", .str "5"), ("_rev", .str "1-a")],
    .object [("_id", .str "7"), ("_rev", .str "1-b")]]

/-- A removal accounts for every document that its search resolves. The deletions can always come
to their end, whatever happened so far. In whatever order they came there, each asked once for
its own document, and the removal, told the same of its documents, asked nothing else. It tells
the number of confirmed deletions, unless one has failed; then it tells all faults in the order
of the documents. -/
theorem all_accounts (plain : site.Plain) (placed : h.database ≠ "") {pageSize : Nat}
    {limit : Option Nat} {filter : Value}
    {search : Strand (List Value)} {docs : List Value}
    (found : (Strand.start (Query.resolve pageSize h filter limit)).Reaches (.ok site) search)
    (resolved : search.phase = .ended (.ok docs))
    (whole : ∀ d ∈ docs, ∃ id rev, d.get? "_id" = some (.str id) ∧ d.get? "_rev" = some rev)
    {strands : List (Strand Value)}
    (gathered : Strands.Reach (.ok site) (docs.map fun d => .start (document h d)) strands) :
    (∃ later, Strands.Reach (.ok site) strands later ∧ ∀ s ∈ later, s.IsOver) ∧
      ∀ outcomes, List.Forall₂ (fun s r => s.phase = .ended r) strands outcomes →
        List.Forall₂ (Settles site h) docs strands ∧
        ((∀ v, .ok v ∈ outcomes → ∃ fields, v = .object fields) →
          ∃ run, run = (all pageSize limit h filter).run (.ok site)
              (search.told ++ strands.flatMap Strand.told) ∧
            run.requests = search.asked ++ strands.flatMap Strand.asked ∧ run.unused = 0 ∧
            run.result = if faults outcomes = [] then .ok (deleted outcomes)
              else .error (.deletesFailed h.name (faults outcomes) (deleted outcomes))) := by
  refine ⟨Strands.exists_reach_over _ _, fun outcomes ended => ?_⟩
  refine ⟨settles_of_each plain placed whole gathered.each ended, fun objects => ?_⟩
  obtain ⟨requests, unused, result⟩ := run_all found resolved gathered.each ended objects
  refine ⟨_, rfl, ?_, unused, result⟩
  rw [requests]
  exact List.append_nil _

/-- Two customers are to be deleted, and the second one, which is not as it was any more, is
answered first. -/
theorem all_accounts_couple :
    ∃ (search : Strand (List Value)) (strands : List (Strand Value))
      (outcomes : List (Except Fault Value)) (e : HttpFault),
      (Strand.start (Query.resolve 200 Shop.unmarked .null none)).Reaches (.ok Shop.site)
        search ∧ search.phase = .ended (.ok couple) ∧
      Strands.Reach (.ok Shop.site)
        (couple.map fun d => .start (document Shop.unmarked d)) strands ∧
      List.Forall₂ (fun s r => s.phase = .ended r) strands outcomes ∧
      faults outcomes = [.http e] ∧ e.kind = .conflict ∧ e.docId = some "7" ∧
      ((all 200 none Shop.unmarked .null).run (.ok Shop.site)
          (search.told ++ strands.flatMap Strand.told)).result =
        .error (.deletesFailed "Customer" [.http e] 1) := by
  let page : Reply := .answered (.listing couple)
  let confirmed : Reply := .answered .confirming
  let refused : Reply := .answered .refusing
  obtain ⟨q, go, ws, sends, ends⟩ : ∃ q go ws,
      (Query.resolve 200 Shop.unmarked .null none).settle (.ok Shop.site) =
        ([], .sending q go) ∧
      (go page).settle (.ok Shop.site) = (ws, .finished (.ok couple)) :=
    ⟨_, _, _, rfl, rfl⟩
  obtain ⟨r, go₁, sends₁, ends₁⟩ : ∃ r go₁,
      (document Shop.unmarked couple[0]).settle (.ok Shop.site) = ([], .sending r go₁) ∧
      (go₁ confirmed).settle (.ok Shop.site) =
        ([], .finished (.ok (.object [("ok", .bool true)]))) :=
    ⟨_, _, rfl, rfl⟩
  obtain ⟨r', go₂, e, sends₂, ends₂, kind, own⟩ : ∃ r' go₂ e,
      (document Shop.unmarked couple[1]).settle (.ok Shop.site) = ([], .sending r' go₂) ∧
      (go₂ refused).settle (.ok Shop.site) = ([], .finished (.error (.http e))) ∧
      e.kind = .conflict ∧ e.docId = some "7" :=
    ⟨_, _, _, rfl, rfl, rfl, rfl⟩
  let site : Except Fault Site := .ok Shop.site
  have found : (Strand.start (Query.resolve 200 Shop.unmarked .null none)).Reaches site
      ⟨[q], [page], .ended (.ok couple)⟩ :=
    ((ReflTransGen.single (.send sends)).tail (.hear page)).tail (.finish ends)
  let first : Strand Value := ⟨[r], [confirmed], .ended (.ok (.object [("ok", .bool true)]))⟩
  let second : Strand Value := ⟨[r'], [refused], .ended (.error (.http e))⟩
  have asked : Strands.Reach site (couple.map fun d => .start (document Shop.unmarked d))
      [⟨[r], [], .waiting go₁⟩, ⟨[r'], [], .waiting go₂⟩] :=
    (ReflTransGen.single (.here (.send sends₁) _)).tail (.there _ (.here (.send sends₂) _))
  have refusedFirst : Strands.Reach site [⟨[r], [], .waiting go₁⟩, ⟨[r'], [], .waiting go₂⟩]
      [⟨[r], [], .waiting go₁⟩, second] :=
    (ReflTransGen.single (.there _ (.here (.hear refused) _))).tail
      (.there _ (.here (.finish ends₂) _))
  have deletedLast : Strands.Reach site [⟨[r], [], .waiting go₁⟩, second] [first, second] :=
    (ReflTransGen.single (.here (.hear confirmed) _)).tail (.here (.finish ends₁) _)
  have whole : ∀ d ∈ couple, ∃ id rev, d.get? "_id" = some (.str id) ∧ d.get? "_rev" = some rev :=
    List.forall_mem_cons.2 ⟨⟨"5", .str "1-a", rfl, rfl⟩,
      List.forall_mem_cons.2 ⟨⟨"7", .str "1-b", rfl, rfl⟩, nofun⟩⟩
  have ended : List.Forall₂ (fun (s : Strand Value) r => s.phase = .ended r) [first, second]
      [.ok (.object [("ok", .bool true)]), .error (.http e)] :=
    .cons rfl (.cons rfl .nil)
  have gathered := (asked.trans refusedFirst).trans deletedLast
  obtain ⟨-, account⟩ := all_accounts Shop.site_plain (by decide) found rfl whole gathered
  obtain ⟨run, rfl, -, -, result⟩ := (account _ ended).2 (by simp)
  exact ⟨_, _, _, e, found, rfl, gathered, ended, rfl, kind, own, result⟩

/-- A document whose id is a dot is taken for the database, which is deleted in its place. -/
theorem all_deletes_database :
    let dotted : Value := .object [("_id", .str "."), ("_rev", .str "1-a")]
    let replies : List Reply := [.answered (.listing [dotted]), .answered .confirming]
    ∃ run r q, run = (all 200 none Shop.unmarked .null).run (.ok Shop.site) replies ∧
      run.result = .ok 1 ∧ run.requests = [r, q] ∧ q.call = .delete "shop" "." (.str "1-a") ∧
      q.path = "/shop" ∧ q.url.path ≠ Shop.site.documentPath "shop" "." :=
  ⟨_, _, _, rfl, rfl, rfl, rfl, rfl, by decide⟩

end Remove

end ModelStore
