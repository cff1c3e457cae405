import ModelStore.Proofs.Store.Overlay
import ModelStore.Proofs.Store.Running
import ModelStore.Proofs.Store.Safety
import ModelStore.Proofs.Store.Shop
import Mathlib.Data.List.Forall2

/-! What an update of many documents sends. Its search comes first, and then one request at most,
with one document for each that was found, in their order. Each is the document that was
found but for keys of the patch. Nothing holds the patch off the fields by which a document
is known, its id property apart: under `_id`, `_rev` or the mark of the model the patch is
written like any other field. -/

namespace ModelStore

namespace Handle

variable {h : Handle} {patch found sent : Fields}

/-- A field by which a document is known: its id, its revision, or the mark of the model. -/
def Reserves (h : Handle) (key : String) : Prop :=
  key = "_id" ∨ key = "_rev" ∨ h.mark? = some key

/-- A patch that leaves a field of a document as it is: it is the id property, or the patch does
not name it, or gives what is there. -/
def Leaves (h : Handle) (patch found : Fields) (key : String) : Prop :=
  key = h.idName ∨ ∀ v, Entries.get? patch key = some v →
    (if v.isNull then none else some v.stored) = Entries.get? found key

/-- A document that is sent for one that was found. -/
structure Amends (h : Handle) (patch found sent : Fields) : Prop where
  others : ∀ key, key ∉ Entries.keys patch → Entries.get? sent key = Entries.get? found key
  identity : ∀ key, h.Reserves key →
    (Entries.get? sent key = Entries.get? found key ↔ h.Leaves patch found key)

theorem Patches.amends (patches : h.Patches patch (Entries.get? found) sent) :
    h.Amends patch found sent := by
  have kept : ∀ key, Entries.get? sent key = Entries.get? found key ↔
      h.Leaves patch found key := by
    intro key
    rw [patches, Leaves]
    by_cases own : key = h.idName
    · simp [own]
    · cases named : Entries.get? patch key with
      | none => simp
      | some v => simp [own]
  refine ⟨fun key absent => (kept key).2 (.inr fun v named => ?_), fun key _ => kept key⟩
  rw [Entries.get?_eq_none.2 absent] at named
  cases named

end Handle

namespace Bulk

variable {h : Handle} {data : Value} {patch : Fields} {docs : List Value}

def amended (h : Handle) (data : Value) (docs : List Value) : Except Fault (List Value) := do
  let patch ← patchOf h data
  docs.mapM (patched patch)

def written (h : Handle) (docs : List Value) : Program Nat := do
  let entries ← send h docs
  pure entries.length

def amend (h : Handle) (data : Value) (docs : List Value) : Program Nat :=
  if docs.isEmpty then pure 0 else Program.ofExcept (amended h data docs) >>= written h

theorem update_eq (pageSize : Nat) (filter : Value) :
    update pageSize h filter data = Query.resolve pageSize h filter none >>= amend h data := by
  have same : (fun docs : List Value =>
      if docs.isEmpty then (pure 0 : Program Nat)
      else Program.ofExcept (patchOf h data) >>= fun patch =>
        Program.ofExcept (docs.mapM (patched patch)) >>= written h) = amend h data := by
    funext docs
    unfold amend amended
    cases patchOf h data <;> rfl
  rw [← same]
  rfl

/-- The request by which documents that were found go back, if there are any and they can be
sent. -/
def amending? (h : Handle) (data : Value) (site : Except Fault Site) (docs : List Value) :
    Option Request :=
  if docs.isEmpty then none
  else
    (amended h data docs >>= fun back =>
      site >>= fun site => site.request (.bulk h.database back)).toOption

theorem requests_written (site : Except Fault Site) (replies : List Reply) :
    ((written h docs).run site replies).requests =
      (site.bind (·.request (.bulk h.database docs))).toOption.toList := by
  refine Program.requests_run_ask (fun x => ?_) replies
  refine (Program.Over.bind ⟨_, rfl⟩ fun v => ?_).bind fun entries => ⟨_, rfl⟩
  cases v <;> exact ⟨_, rfl⟩

theorem requests_amend (site : Except Fault Site) (replies : List Reply) :
    ((amend h data docs).run site replies).requests =
      (amending? h data site docs).toList := by
  unfold amend amending?
  split
  · exact Program.Over.requests_run ⟨_, rfl⟩ replies
  cases amended h data docs with
  | error f => exact Program.Over.requests_run ⟨_, rfl⟩ replies
  | ok back => exact requests_written site replies

theorem patches_of_mapM {stored : Fields} {back coded : List Value}
    (plain : Mapper.plainData data = .ok patch) (distinct : (Entries.keys patch).Nodup)
    (made : patchOf h data = .ok stored)
    (tables : ∀ d ∈ docs, ∃ fields, d = .object fields ∧ Json.Table fields)
    (each : docs.mapM (patched stored) = .ok back) (form : Json.encodeItems back = .ok coded) :
    List.Forall₂ (fun d w => ∃ found sent, d = .object found ∧ w = .object sent ∧
      h.Patches patch (Entries.get? found) sent) docs coded := by
  induction docs generalizing back coded with
  | nil =>
    cases each
    cases form
    exact .nil
  | cons d rest ih =>
    rw [List.mapM_cons] at each
    obtain ⟨v, first, each⟩ := Except.bind_eq_ok.1 each
    obtain ⟨vs, others, each⟩ := Except.bind_eq_ok.1 each
    cases each
    obtain ⟨w, ws, first', others', rfl⟩ := Json.encodeItems_cons.1 form
    obtain ⟨⟨found, rfl, table⟩, tables'⟩ := List.forall_mem_cons.1 tables
    have distinct_ : (Entries.keys stored).Nodup := by
      rw [patchOf_ok plain made, Value.keys_storedFields]
      exact Entries.nodup_erase distinct h.idName
    obtain ⟨doc, rfl, -⟩ := patched_ok distinct_ first
    obtain ⟨sent, -, rfl⟩ := Except.map_eq_ok.1 first'
    have patches := patches_of_patched table distinct plain made first first'
    exact .cons ⟨found, sent, rfl, rfl, patches⟩ (ih tables' others others')

theorem patches_of_amended {back coded : List Value}
    (plain : Mapper.plainData data = .ok patch) (distinct : (Entries.keys patch).Nodup)
    (tables : ∀ d ∈ docs, ∃ fields, d = .object fields ∧ Json.Table fields)
    (made : amended h data docs = .ok back) (form : Json.encodeItems back = .ok coded) :
    List.Forall₂ (fun d w => ∃ found sent, d = .object found ∧ w = .object sent ∧
      h.Patches patch (Entries.get? found) sent) docs coded := by
  obtain ⟨stored, patch_, each⟩ := Except.bind_eq_ok.1 made
  exact patches_of_mapM plain distinct patch_ tables each form

/-- The request for documents that were found has them, each amended, in their order. -/
theorem amends_of_amending? {site : Site} {q : Request}
    (plain : Mapper.plainData data = .ok patch) (distinct : (Entries.keys patch).Nodup)
    (tables : ∀ d ∈ docs, ∃ fields, d = .object fields ∧ Json.Table fields)
    (asked : amending? h data (.ok site) docs = some q) :
    ∃ sent, q.call = .bulk h.database sent ∧
      List.Forall₂ (fun d w => ∃ found amended, d = .object found ∧ w = .object amended ∧
        h.Amends patch found amended) docs sent := by
  unfold amending? at asked
  split at asked
  · cases asked
  obtain ⟨back, made, sent⟩ := Except.bind_eq_ok.1 (Except.toOption_eq_some.1 asked)
  obtain ⟨_, ⟨⟩, request⟩ := Except.bind_eq_ok.1 sent
  obtain ⟨coded, form, call⟩ := Except.map_eq_ok.1 (Site.request_ok request)
  have each := patches_of_amended plain distinct tables made (Except.mapError_eq_ok.1 form)
  exact ⟨coded, call.symm, each.imp fun _ _ ⟨found, amended, same, same', patches⟩ =>
    ⟨found, amended, same, same', patches.amends⟩⟩

theorem requests_update_eq (pageSize : Nat) (filter : Value) (site : Except Fault Site)
    (replies : List Reply) :
    ((update pageSize h filter data).run site replies).requests =
      ((Query.resolve pageSize h filter none).run site replies).requests ++
        (((Query.resolve pageSize h filter none).run site replies).result.toOption.bind
          (amending? h data site)).toList := by
  obtain ⟨later, split⟩ := Program.requests_run_bind site
    (Query.resolve pageSize h filter none) (amend h data) replies
  rw [update_eq, split]
  congr 1
  cases ((Query.resolve pageSize h filter none).run site replies).result.toOption with
  | none => rfl
  | some docs => exact requests_amend site later

/-- Whatever it is answered, an update of many sends the requests of its search and then, if that
found documents, one more: these documents, each amended, in their order. -/
theorem requests_update (h : Handle) (pageSize : Nat) (filter : Value) {data : Value}
    {patch : Fields} (plain : Mapper.plainData data = .ok patch)
    (distinct : (Entries.keys patch).Nodup) (site : Site) (replies : List Reply)
    (tables : ∀ docs, ((Query.resolve pageSize h filter none).run (.ok site) replies).result =
      .ok docs → ∀ d ∈ docs, ∃ fields, d = .object fields ∧ Json.Table fields) :
    let search := (Query.resolve pageSize h filter none).run (.ok site) replies
    let write? := search.result.toOption.bind (amending? h data (.ok site))
    ((update pageSize h filter data).run (.ok site) replies).requests =
        search.requests ++ write?.toList ∧
      ∀ q, write? = some q → ∃ docs sent, search.result = .ok docs ∧
        q.call = .bulk h.database sent ∧
        List.Forall₂ (fun d w => ∃ found amended, d = .object found ∧ w = .object amended ∧
          h.Amends patch found amended) docs sent := by
  intro search write?
  refine ⟨requests_update_eq pageSize filter (.ok site) replies, fun q asked => ?_⟩
  obtain ⟨docs, ended, written⟩ := Option.bind_eq_some_iff.1 asked
  have found : search.result = .ok docs := Except.toOption_eq_some.1 ended
  obtain ⟨sent, call, each⟩ := amends_of_amending? plain distinct (tables docs found) written
  exact ⟨docs, sent, found, call, each⟩

open Shop (customers)

def shopper : Fields :=
  [("_id", .str "5"), ("_rev", .str "1-a"), ("kind", .str "Customer"), ("age", .int 1),
    ("note", .str "new")]

def takings : List Reply :=
  [.answered (.listing [.object shopper]),
    .answered (.telling 201 (.array [.object [("ok", .bool true)]]))]

theorem requests_update_birthday :
    let patch : Fields := [("id", .int 9), ("age", .int 2), ("note", .null)]
    ∃ site q sent, Site.ofText "http://db:5984" none = .ok site ∧
      ((update 10 customers .null (.object patch)).run (.ok site) takings).requests.tail = [q] ∧
      q.call = .bulk "shop" sent ∧
      List.Forall₂ (fun d w => ∃ found amended, d = .object found ∧ w = .object amended ∧
        customers.Amends patch found amended) [Value.object shopper] sent := by
  intro patch
  obtain ⟨site, first, q, named, ended, search, asked⟩ : ∃ site first q,
      Site.ofText "http://db:5984" none = .ok site ∧
      ((Query.resolve 10 customers .null none).run (.ok site) takings).result =
        .ok [.object shopper] ∧
      ((Query.resolve 10 customers .null none).run (.ok site) takings).requests = [first] ∧
      amending? customers (.object patch) (.ok site) [.object shopper] = some q :=
    ⟨_, _, _, rfl, rfl, rfl, rfl⟩
  have distinct : (Entries.keys patch).Nodup := by decide
  have table : Json.Table shopper := ⟨by decide, rfl⟩
  have plain : Mapper.plainData (.object patch) = .ok patch := rfl
  obtain ⟨whole, each⟩ := requests_update customers 10 .null plain distinct site takings
    fun docs found => by
      cases ended.symm.trans found
      exact List.forall_mem_singleton.2 ⟨shopper, rfl, table⟩
  rw [ended] at whole each
  obtain ⟨docs, sent, found, call, amends⟩ := each q asked
  cases found
  refine ⟨site, q, sent, named, ?_, call, amends⟩
  rw [whole, search]
  show (amending? customers (.object patch) (.ok site) [.object shopper]).toList = [q]
  rw [asked]
  rfl

/-- A patch with an `_id` sends the document that was found under another id. -/
theorem update_renames :
    let data : Value := .object [("_id", .str "6")]
    ∃ site first second, Site.ofText "http://db:5984" none = .ok site ∧
      ((Query.resolve 10 customers .null none).run (.ok site) takings).result =
        .ok [.object shopper] ∧
      ((update 10 customers .null data).run (.ok site) takings).requests = [first, second] ∧
      second.call = .bulk "shop" [.object (Entries.set shopper "_id" (.str "6"))] ∧
      Entries.get? (Entries.set shopper "_id" (.str "6")) "_id" ≠ Entries.get? shopper "_id" :=
  ⟨_, _, _, rfl, rfl, rfl, rfl, by simp [shopper, Entries.get?]⟩

end Bulk

end ModelStore
