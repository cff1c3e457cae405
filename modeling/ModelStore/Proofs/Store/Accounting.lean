import ModelStore.Proofs.Store.Amending
import ModelStore.Proofs.Store.Concurrency
import ModelStore.Proofs.Store.Sending

/-! Bulk writes, document by document. The store takes some documents of a bulk call and leaves
others, in any pattern, and its answer has one entry for each of them, with an error if the
document was left. What is taken stays, also where other documents of the call are left. The
caller is told of all entries with an error, in their order, and how many others there were; only
if there are none the call has a result. -/

namespace ModelStore

theorem Except.forall₂_of_mapM {α β ε : Type} {f : α → Except ε β} {as : List α} {bs : List β}
    (each : as.mapM f = .ok bs) : List.Forall₂ (fun a b => f a = .ok b) as bs := by
  induction as generalizing bs with
  | nil =>
    cases each
    exact .nil
  | cons a rest ih =>
    rw [List.mapM_cons] at each
    obtain ⟨b, first, each⟩ := Except.bind_eq_ok.1 each
    obtain ⟨others, tail, each⟩ := Except.bind_eq_ok.1 each
    cases each
    exact .cons first (ih tail)

theorem Json.length_encodeItems {items ws : List Value} (form : encodeItems items = .ok ws) :
    ws.length = items.length := by
  induction items generalizing ws with
  | nil =>
    cases form
    rfl
  | cons v rest ih =>
    obtain ⟨w, others, -, tail, rfl⟩ := encodeItems_cons.1 form
    rw [List.length_cons, List.length_cons, ih tail]

/-- A document of a bulk call: its entry in the answer, and the id and the revision under which the
store has taken it, if it has. Of the documents that it left it says so. -/
structure Filing where
  doc : Fields
  entry : Fields
  kept? : Option (String × String)
  told : (Value.ofOption (Entries.get? entry "error")).truthy = kept?.isNone
  placed : ∀ id rev, kept? = some (id, rev) → ∀ v, Entries.get? doc "_id" = some v → v = .str id

namespace Filing

def document (f : Filing) : Value := .object f.doc

def answer (f : Filing) : Value := .object f.entry

/-- The entry has an error that is not empty. -/
def fails (f : Filing) : Bool := (Value.ofOption (Entries.get? f.entry "error")).truthy

def place? (f : Filing) (db : String) : Option Place := f.kept?.map fun kept => ⟨db, kept.1⟩

end Filing

namespace Documents

variable {s t : Documents} {db : String} {f : Filing} {filings : List Filing} {p : Place}

def take (s : Documents) (db : String) (f : Filing) : Documents :=
  match f.kept? with
  | some (id, rev) => s.put ⟨db, id⟩ f.doc rev
  | none => s

def takeAll (s : Documents) (db : String) (filings : List Filing) : Documents :=
  filings.foldl (fun s f => s.take db f) s

/-- A store files the documents of a request, and its answer, one entry for each document in their
order, arrives. -/
structure Files (s : Documents) (q : Request) (reply : Reply) (db : String)
    (filings : List Filing) (t : Documents) : Prop where
  call : q.call = .bulk db (filings.map Filing.document)
  answered : ∃ path a, q.exchange reply = .answered path a ∧ a.isError = false ∧
    a.body = .ok (.array (filings.map Filing.answer))
  docs : t = s.takeAll db filings

theorem current_take {id rev : String} (kept_ : f.kept? = some (id, rev)) :
    (s.take db f).current ⟨db, id⟩ = some (kept f.doc id rev) := by
  simp [take, kept_, put]

theorem current_take_of_ne (elsewhere : f.place? db ≠ some p) :
    (s.take db f).current p = s.current p := by
  unfold take
  cases kept_ : f.kept? with
  | none => rfl
  | some kept =>
    have other : p ≠ ⟨db, kept.1⟩ := by
      rintro rfl
      exact elsewhere (by rw [Filing.place?, kept_]; rfl)
    exact if_neg other

theorem current_takeAll_of_ne (elsewhere : ∀ f ∈ filings, f.place? db ≠ some p) :
    (s.takeAll db filings).current p = s.current p := by
  induction filings generalizing s with
  | nil => rfl
  | cons f rest ih =>
    obtain ⟨first, others⟩ := List.forall_mem_cons.1 elsewhere
    exact (ih others).trans (current_take_of_ne first)

/-- The last document that has gone to a place is there, and none of it is lost. -/
theorem current_takeAll {before after : List Filing} {id rev : String}
    (kept_ : f.kept? = some (id, rev)) (last : ∀ g ∈ after, g.place? db ≠ some ⟨db, id⟩) :
    (s.takeAll db (before ++ f :: after)).current ⟨db, id⟩ = some (kept f.doc id rev) := by
  rw [takeAll, List.foldl_append, List.foldl_cons]
  exact (current_takeAll_of_ne last).trans (current_take kept_)

theorem Writes.takes {doc : Fields} {entry : Value} {w : Attempt} (write : s.Writes db doc w t)
    (told : w.Reported entry) :
    ∃ f : Filing, f.document = .object doc ∧ f.answer = entry ∧ t = s.take db f := by
  obtain ⟨fields, rfl, error⟩ := told
  cases write with
  | @put id rev named current fresh =>
    refine ⟨⟨doc, fields, some (id, rev), error, ?_⟩, rfl, rfl, rfl⟩
    rintro _ _ ⟨⟩ v here
    exact Option.some.inj (here.symm.trans named)
  | conflict named stale => exact ⟨⟨doc, fields, none, error, nofun⟩, rfl, rfl, rfl⟩
  | @created id rev unnamed undated free fresh =>
    refine ⟨⟨doc, fields, some (id, rev), error, ?_⟩, rfl, rfl, rfl⟩
    intro _ _ _ v here
    cases unnamed.symm.trans here
  | improper unnamed given => exact ⟨⟨doc, fields, none, error, nofun⟩, rfl, rfl, rfl⟩

theorem WritesAll.takes {docs entries : List Value} {ws : List Attempt}
    (writes : WritesAll db s docs ws t) (told : List.Forall₂ Attempt.Reported ws entries) :
    ∃ filings, filings.map Filing.document = docs ∧ filings.map Filing.answer = entries ∧
      t = s.takeAll db filings := by
  induction writes generalizing entries with
  | nil s =>
    cases told
    exact ⟨[], rfl, rfl, rfl⟩
  | cons first rest ih =>
    obtain ⟨entry, others, here, tail, rfl⟩ := List.forall₂_cons_left_iff.1 told
    obtain ⟨f, sent, answered, rfl⟩ := first.takes here
    obtain ⟨filings, sent', answered', rfl⟩ := ih tail
    refine ⟨f :: filings, ?_, ?_, rfl⟩
    · rw [List.map_cons, sent, sent']
    · rw [List.map_cons, answered, answered']

/-- So what is said of all stores that file documents holds of one that goes by revisions. -/
theorem Serves.files {q : Request} {reply : Reply} {path : String} {a : Answer}
    {ws : List Attempt} {docs : List Value} (serves : s.Serves q.call a ws t)
    (call : q.call = .bulk db docs) (arrives : q.exchange reply = .answered path a) :
    ∃ filings, s.Files q reply db filings t := by
  rw [call] at serves
  cases serves with
  | wroteAll writes sound body told =>
    obtain ⟨filings, rfl, rfl, rfl⟩ := writes.takes told
    exact ⟨filings, call, ⟨path, a, arrives, sound, body⟩, rfl⟩

end Documents

/-! Faults that do not tell of some of many. -/

namespace Mapper

variable {data : Value} {f : Fault}

theorem plainData_error (refused : plainData data = .error f) : f = .notModelData data := by
  unfold plainData at refused
  split at refused <;> cases refused
  rfl

theorem succeeded?_of_guarded {signals : Fields → Bool} {out : Fields → Fields}
    (refused : (plainData data >>= fun source =>
      if signals source then .error (.shape .wrongValue) else .ok (out source)) = .error f) :
    f.succeeded? = none := by
  cases plain : plainData data with
  | error e =>
    rw [plain] at refused
    cases refused
    rw [plainData_error plain]
    rfl
  | ok source =>
    rw [plain] at refused
    change (if _ then _ else _) = _ at refused
    split at refused <;> cases refused
    rfl

theorem succeeded?_of_toDoc {m : Mapper} (refused : m.toDoc data = .error f) :
    f.succeeded? = none :=
  succeeded?_of_guarded refused

end Mapper

theorem Site.succeeded?_of_request {site : Site} {c : Call} {f : Fault}
    (refused : site.request c = .error f) : f.succeeded? = none := by
  rcases fault_of_request refused with ⟨e, rfl⟩ | ⟨e, rfl⟩ <;> rfl

namespace Bulk

variable {h : Handle} {site : Site} {data : Value} {f : Fault}

theorem succeeded?_of_patched {patch : Fields} {doc : Value}
    (refused : patched patch doc = .error f) : f.succeeded? = none := by
  induction patch generalizing doc with
  | nil => cases refused
  | cons e rest ih =>
    rw [patched, List.foldlM_cons] at refused
    cases first : patchField doc e with
    | ok d =>
      rw [first] at refused
      exact ih refused
    | error e' =>
      rw [first] at refused
      cases refused
      unfold patchField at first
      split at first
      · cases first
      · cases first
        rfl
      · split at first <;> cases first <;> rfl

theorem succeeded?_of_amended {docs : List Value} (refused : amended h data docs = .error f) :
    f.succeeded? = none := by
  unfold amended at refused
  cases patch : patchOf h data with
  | error e =>
    rw [patch] at refused
    cases refused
    exact Mapper.succeeded?_of_guarded patch
  | ok stored =>
    rw [patch] at refused
    obtain ⟨d, -, failed⟩ := Except.exists_of_mapM_error refused
    exact succeeded?_of_patched failed

def failing (filings : List Filing) : List Filing := filings.filter Filing.fails

theorem failures_answers (filings : List Filing) :
    failures (filings.map Filing.answer) = .ok ((failing filings).map Filing.answer) := by
  induction filings with
  | nil => rfl
  | cons f rest ih =>
    rw [List.map_cons, failures, ih]
    simp only [failing, List.filter_cons]
    show Except.ok (if f.fails = true then _ else _) = _
    cases f.fails <;> rfl

theorem accepted_answers (model : String) (filings : List Filing) :
    accepted model (filings.map Filing.answer) =
      if failing filings = [] then .ok (filings.map Filing.answer)
      else .error (.writesFailed model ((failing filings).map Filing.answer)
        (filings.map Filing.answer)) := by
  rw [accepted, failures_answers]
  show (if _ then _ else _) = _
  simp only [List.isEmpty_map, List.isEmpty_iff]

def received (model : String) : Value → Except Fault (List Value)
  | .array entries => accepted model entries
  | _ => .error (.protocol .bulkNotList none)

variable {α : Type}

theorem send_eq (docs : List Value) (result : List Value → α) :
    (send h docs >>= fun entries => pure (result entries)) =
      .ask (.bulk h.database docs) fun x =>
        .done ((x.value (.bulk h.database docs) >>= received h.name).map result) := by
  show Program.ask _ _ = _
  refine congrArg _ (funext fun x => ?_)
  cases value : x.value (.bulk h.database docs) with
  | error e => simp only [value]; rfl
  | ok v =>
    simp only [value]
    cases v with
    | array entries =>
      show Program.bind (Program.ofExcept (accepted h.name entries)) _ =
        .done ((accepted h.name entries).map result)
      cases accepted h.name entries <;> rfl
    | _ => rfl

/-- What becomes of a bulk write whose documents are filed. It has a result just if no entry has an
error. A document that is taken is in its place, unless a later one of the same id is; where none
has gone, nothing has changed. -/
structure Filed (h : Handle) (result : List Value → α) (s : Documents) (filings : List Filing)
    (t : Documents) (r : Except Fault α) : Prop where
  accepted : failing filings = [] → r = .ok (result (filings.map Filing.answer))
  refused : failing filings ≠ [] → ∃ f n, r = .error f ∧
    f = .writesFailed h.name ((failing filings).map Filing.answer) (filings.map Filing.answer) ∧
    f.succeeded? = some n ∧ n + (failing filings).length = filings.length
  stored : ∀ before f after id rev, filings = before ++ f :: after → f.kept? = some (id, rev) →
    (∀ g ∈ after, g.place? h.database ≠ some ⟨h.database, id⟩) →
      t.current ⟨h.database, id⟩ = some (Documents.kept f.doc id rev)
  left : ∀ p, (∀ f ∈ filings, f.place? h.database ≠ some p) → t.current p = s.current p

theorem filed_of_files {s t : Documents} {q : Request} {reply : Reply} {filings : List Filing}
    (files : s.Files q reply h.database filings t) (c : Call) (result : List Value → α) :
    Filed h result s filings t
      (((q.exchange reply).value c >>= received h.name).map result) := by
  obtain ⟨path, a, arrives, sound, body⟩ := files.answered
  have told : ((q.exchange reply).value c >>= received h.name) =
      Bulk.accepted h.name (filings.map Filing.answer) := by
    rw [arrives, Exchange.value_of_body sound body]
    rfl
  have bound : (failing filings).length ≤ filings.length := List.length_filter_le _ _
  rw [told, accepted_answers, files.docs]
  refine ⟨fun none_ => by rw [if_pos none_]; rfl, fun some_ => ?_, ?_, fun p elsewhere => ?_⟩
  · rw [if_neg some_]
    refine ⟨_, _, rfl, rfl, rfl, ?_⟩
    rw [List.length_map, List.length_map]
    omega
  · rintro before f after id rev rfl kept last
    exact Documents.current_takeAll kept last
  · exact Documents.current_takeAll_of_ne elsewhere

/-- A bulk write of documents, if there are any to send. Either no request is sent, and the fault is
not one of some of many; or one is sent, with the documents in their order, and whatever the store
takes and leaves of them is accounted for. -/
def Accounts (h : Handle) (site : Site) (docs? : Except Fault (List Value))
    (result : List Value → α) (p : Program α) : Prop :=
  (∃ f, (docs? >>= fun docs => site.request (.bulk h.database docs)) = .error f ∧
    p.settle (.ok site) = ([], .finished (.error f)) ∧ f.succeeded? = none) ∨
  ∃ docs sent q go, docs? = .ok docs ∧ Json.encodeItems docs = .ok sent ∧
    p.settle (.ok site) = ([], .sending q go) ∧ q.call = .bulk h.database sent ∧
    ∀ s reply filings t, s.Files q reply h.database filings t →
      filings.map Filing.document = sent ∧ filings.length = docs.length ∧
        ∃ r, go reply = .done r ∧ Filed h result s filings t r

theorem accounts_of_send {docs? : Except Fault (List Value)}
    (plainly : ∀ f, docs? = .error f → f.succeeded? = none) (result : List Value → α) :
    Accounts h site docs? result
      (Program.ofExcept docs? >>= fun docs => send h docs >>= fun entries =>
        pure (result entries)) := by
  cases docs? with
  | error f => exact .inl ⟨f, rfl, rfl, plainly f rfl⟩
  | ok docs =>
    show Accounts h site (.ok docs) result (send h docs >>= _)
    rw [send_eq]
    rcases Program.settle_ask_at site (.bulk h.database docs) _ with
      ⟨f, refused, settled⟩ | ⟨q, sent, settled⟩
    · exact .inl ⟨f, (pure_bind docs _).trans refused, settled,
        Site.succeeded?_of_request refused⟩
    obtain ⟨coded, encoded, call⟩ := Except.map_eq_ok.1 (Site.request_ok sent)
    have form := Except.mapError_eq_ok.1 encoded
    refine .inr ⟨docs, coded, q, _, rfl, form, settled, call.symm,
      fun s reply filings t files => ?_⟩
    have whole : filings.map Filing.document = coded := by
      cases files.call.symm.trans call.symm
      rfl
    refine ⟨whole, ?_, _, rfl, filed_of_files files _ result⟩
    rw [← Json.length_encodeItems form, ← whole, List.length_map]

theorem Accounts.congr {docs? : Except Fault (List Value)} {result result' : List Value → α}
    {p : Program α} (accounts : Accounts h site docs? result p)
    (same : ∀ docs, docs? = .ok docs → ∀ entries : List Value, entries.length = docs.length →
      result entries = result' entries) :
    Accounts h site docs? result' p := by
  rcases accounts with unsent | ⟨docs, sent, q, go, made, form, settled, call, filed⟩
  · exact .inl unsent
  refine .inr ⟨docs, sent, q, go, made, form, settled, call, fun s reply filings t files => ?_⟩
  obtain ⟨whole, count, r, ends, filed⟩ := filed s reply filings t files
  have entries : result (filings.map Filing.answer) = result' (filings.map Filing.answer) :=
    same docs made _ (by rw [List.length_map, count])
  exact ⟨whole, count, r, ends, { filed with accepted := entries ▸ filed.accepted }⟩

def replacements (h : Handle) (items : List Value) : Except Fault (List Value) :=
  (items.mapM (Mapper.ofHandle h).toDoc).map (List.map .object)

variable {items docs sent back : List Value}

theorem replace_eq (given : data.members = .ok items) :
    replace h data = Program.ofExcept (replacements h items) >>= fun docs =>
      send h docs >>= fun entries => pure (id entries) := by
  simp only [replace, replacements, given, id, bind_pure]
  show (Program.ofExcept (items.mapM (Mapper.ofHandle h).toDoc) >>= fun docs =>
    send h (docs.map .object)) = _
  cases items.mapM (Mapper.ofHandle h).toDoc <;> rfl

theorem succeeded?_of_replacements (refused : replacements h items = .error f) :
    f.succeeded? = none := by
  unfold replacements at refused
  cases made : items.mapM (Mapper.ofHandle h).toDoc with
  | error e =>
    rw [made] at refused
    cases refused
    obtain ⟨item, -, failed⟩ := Except.exists_of_mapM_error made
    exact Mapper.succeeded?_of_toDoc failed
  | ok docs =>
    rw [made] at refused
    cases refused

theorem eq_of_replacements (made : replacements h items = .ok docs)
    (form : Json.encodeItems docs = .ok sent) : sent = docs := by
  obtain ⟨fields, each, rfl⟩ := Except.map_eq_ok.1 made
  refine Json.eq_of_encodeItems (fun doc mem coded encoded => ?_) form
  obtain ⟨item, -, whole⟩ := Except.mem_of_mapM each mem
  exact Mapper.toDoc_coded whole encoded

theorem replacements_ne_ok {item : Value} (mem : item ∈ items)
    (unfit : ∀ fields, Mapper.plainData item ≠ .ok fields) : replacements h items ≠ .ok docs := by
  intro made
  obtain ⟨fields, each, -⟩ := Except.map_eq_ok.1 made
  have each := Except.forall₂_of_mapM each
  obtain ⟨i, rfl⟩ := List.mem_iff_get.1 mem
  have whole := each.get i.isLt (each.length_eq ▸ i.isLt)
  obtain ⟨source, plain, -⟩ := Except.bind_eq_ok.1 whole
  exact unfit source plain

theorem length_of_amended (made : amended h data docs = .ok back) : back.length = docs.length := by
  obtain ⟨patch, -, each⟩ := Except.bind_eq_ok.1 made
  exact (Except.forall₂_of_mapM each).length_eq.symm

/-- Every bulk write is accounted for, document by document: a replacement with items of model
data, which has all entries for its result, and an update of what a search has found, which has
the number of these. A replacement with an item that is no model data sends nothing, and an
update sends what was found with the patch in it. -/
theorem accounted (h : Handle) (site : Site) :
    (∀ data items, data.members = .ok items →
      Accounts h site (replacements h items) id (replace h data) ∧
      (∀ docs sent, replacements h items = .ok docs → Json.encodeItems docs = .ok sent →
        sent = docs) ∧
      ((∃ item ∈ items, ∀ fields, Mapper.plainData item ≠ .ok fields) →
        ∃ f, (replace h data).settle (.ok site) = ([], .finished (.error f)) ∧
          f.succeeded? = none)) ∧
    ∀ pageSize filter data,
      update pageSize h filter data = Query.resolve pageSize h filter none >>= amend h data ∧
      ∀ found, found ≠ [] →
        Accounts h site (amended h data found) (fun _ => found.length) (amend h data found) ∧
        ∀ patch back sent, Mapper.plainData data = .ok patch → (Entries.keys patch).Nodup →
          (∀ d ∈ found, ∃ fields, d = .object fields ∧ Json.Table fields) →
          amended h data found = .ok back → Json.encodeItems back = .ok sent →
            List.Forall₂ (fun d w => ∃ old new, d = .object old ∧ w = .object new ∧
              h.Patches patch (Entries.get? old) new) found sent := by
  refine ⟨fun data items given => ?_, fun pageSize filter data => ⟨update_eq pageSize filter,
    fun found some_ => ⟨?_, fun patch back sent plain distinct tables made form =>
      patches_of_amended plain distinct tables made form⟩⟩⟩
  · have accounts : Accounts h site (replacements h items) id (replace h data) := by
      rw [replace_eq given]
      exact accounts_of_send (fun f => succeeded?_of_replacements) id
    refine ⟨accounts, fun docs sent => eq_of_replacements, ?_⟩
    rintro ⟨item, mem, unfit⟩
    rcases accounts with ⟨f, -, settled, plainly⟩ | ⟨docs, -, -, -, made, -⟩
    · exact ⟨f, settled, plainly⟩
    · exact absurd made (replacements_ne_ok mem unfit)
  · have accounts : Accounts h site (amended h data found) List.length (amend h data found) := by
      rw [amend, if_neg (by simpa using some_)]
      exact accounts_of_send (fun f => succeeded?_of_amended) List.length
    exact accounts.congr fun docs made entries count => count.trans (length_of_amended made)

open World (shop)
open Shop (unmarked)

def stale : Filing :=
  ⟨[("name", .str "x"), ("_id", .str "5")], [("id", .str "5"), ("error", .str "conflict")], none,
    rfl, nofun⟩

def added : Filing where
  doc := [("name", .str "y"), ("_id", .str "6")]
  entry := [("ok", .bool true), ("id", .str "6"), ("rev", .str "1-c")]
  kept? := some ("6", "1-c")
  told := rfl
  placed := by
    rintro _ _ ⟨⟩ v ⟨⟩
    rfl

def aged : Filing where
  doc := [("_id", .str "5"), ("_rev", .str "1-a"), ("age", .int 2)]
  entry := [("ok", .bool true), ("id", .str "5"), ("rev", .str "2-b")]
  kept? := some ("5", "2-b")
  told := rfl
  placed := by
    rintro _ _ ⟨⟩ v ⟨⟩
    rfl

def entries (filings : List Filing) : Answer :=
  .telling 201 (.array (filings.map Filing.answer))

/-- Of two customers one is taken; a customer that was found is sent with a new age; and a number
among customers keeps them from being sent. -/
theorem accounted_customers :
    let x : Value := .object [("id", .str "5"), ("name", .str "x")]
    let y : Value := .object [("id", .str "6"), ("name", .str "y")]
    let found : Value := .object [("_id", .str "5"), ("_rev", .str "1-a"), ("age", .int 1)]
    (∃ q go t,
      (replace unmarked (.array [x, y])).settle (.ok Shop.site) = ([], .sending q go) ∧
      shop.Files q (.answered (entries [stale, added])) "shop" [stale, added] t ∧
      go (.answered (entries [stale, added])) =
        .done (.error (.writesFailed "Customer" [stale.answer] [stale.answer, added.answer])) ∧
      t.current ⟨"shop", "5"⟩ = shop.current ⟨"shop", "5"⟩ ∧
      t.current ⟨"shop", "6"⟩ = some (Documents.kept added.doc "6" "1-c")) ∧
    (∃ q go t sent,
      (amend unmarked (.object [("age", .int 2)]) [found]).settle (.ok Shop.site) =
        ([], .sending q go) ∧
      shop.Files q (.answered (entries [aged])) "shop" [aged] t ∧
      go (.answered (entries [aged])) = .done (.ok 1) ∧
      t.current ⟨"shop", "5"⟩ = some (Documents.kept aged.doc "5" "2-b") ∧
      q.call = .bulk "shop" sent ∧
      List.Forall₂ (fun d w => ∃ old new, d = .object old ∧ w = .object new ∧
        unmarked.Patches [("age", .int 2)] (Entries.get? old) new) [found] sent) ∧
    ∃ f, (replace unmarked (.array [x, .int 3, y])).settle (.ok Shop.site) =
      ([], .finished (.error f)) := by
  intro x y found
  obtain ⟨replaced, updated⟩ := accounted unmarked Shop.site
  refine ⟨?_, ?_, ?_⟩
  · obtain ⟨accounts, same, -⟩ := replaced (.array [x, y]) [x, y] rfl
    rcases accounts with ⟨f, unsent, -⟩ | ⟨docs, sent, q, go, made, form, sends, call, filed⟩
    · cases unsent
    cases same docs sent made form
    cases made
    obtain ⟨q', go', path, sends', arrives⟩ : ∃ q go path,
        (replace unmarked (.array [x, y])).settle (.ok Shop.site) = ([], .sending q go) ∧
        q.exchange (.answered (entries [stale, added])) =
          .answered path (entries [stale, added]) := ⟨_, _, _, rfl, rfl⟩
    cases sends.symm.trans sends'
    have files : shop.Files q (.answered (entries [stale, added])) "shop" [stale, added] _ :=
      ⟨call, ⟨path, _, arrives, rfl, rfl⟩, rfl⟩
    obtain ⟨-, -, r, ends, filed⟩ := filed shop _ _ _ files
    obtain ⟨f, n, rfl, rfl, -⟩ := filed.refused (by decide)
    exact ⟨q, go, _, sends, files, ends, filed.left _ (by decide),
      filed.stored [stale] added [] "6" "1-c" rfl rfl nofun⟩
  · obtain ⟨accounts, patches⟩ := (updated 10 .null (.object [("age", .int 2)])).2 [found] nofun
    rcases accounts with ⟨f, unsent, -⟩ | ⟨docs, sent, q, go, made, form, sends, call, filed⟩
    · cases unsent
    have table : ∀ d ∈ [found], ∃ fields, d = .object fields ∧ Json.Table fields :=
      List.forall_mem_singleton.2 ⟨_, rfl, by decide, rfl⟩
    have each := patches _ docs sent rfl (by decide) table made form
    cases made
    cases form
    obtain ⟨q', go', path, sends', arrives⟩ : ∃ q go path,
        (amend unmarked (.object [("age", .int 2)]) [found]).settle (.ok Shop.site) =
          ([], .sending q go) ∧
        q.exchange (.answered (entries [aged])) = .answered path (entries [aged]) :=
      ⟨_, _, _, rfl, rfl⟩
    cases sends.symm.trans sends'
    have files : shop.Files q (.answered (entries [aged])) "shop" [aged] _ :=
      ⟨call, ⟨path, _, arrives, rfl, rfl⟩, rfl⟩
    obtain ⟨-, -, r, ends, filed⟩ := filed shop _ _ _ files
    rw [filed.accepted (by decide)] at ends
    exact ⟨q, go, _, _, sends, files, ends, filed.stored [] aged [] "5" "2-b" rfl rfl nofun, call,
      each⟩
  · obtain ⟨-, -, unfit⟩ := replaced (.array [x, .int 3, y]) [x, .int 3, y] rfl
    obtain ⟨f, settled, -⟩ := unfit ⟨.int 3, by simp, nofun⟩
    exact ⟨f, settled⟩

end Bulk

end ModelStore
