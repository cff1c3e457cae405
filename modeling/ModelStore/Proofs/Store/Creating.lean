import ModelStore.Proofs.Store.Concurrency

/-! Creating a document under an id that is taken. An insert is sent like every other write, so the
store takes it for an update if the data carries the revision that is current, as data does that
was read before. In all other cases the caller is told of a duplicate and nothing changes, neither
the documents nor the caller's data. -/

namespace ModelStore

/-- The store serves a request, and its answer arrives. -/
def Documents.Hears (s : Documents) (q : Request) (reply : Reply) (t : Documents) : Prop :=
  ∃ path a ws, s.Serves q.call a ws t ∧ q.exchange reply = .answered path a

theorem Documents.Hears.of_insert {s t : Documents} {q : Request} {db path : String} {doc : Fields}
    {w : Attempt} {a : Answer} {reply : Reply} (call : q.call = .insert db doc)
    (write : s.Writes db doc w t) (told : w.Answered a)
    (arrives : q.exchange reply = .answered path a) : s.Hears q reply t :=
  ⟨path, a, [w], call ▸ .wrote write told, arrives⟩

namespace Receipt

/-- The caller of an insert is told that there is a document of this id. -/
def Duplicate (receipt : Receipt) : Prop :=
  ∃ f, receipt.outcome = .error (.http f) ∧ f.kind = .duplicate

def ofResult (m : Mapper) (data : Value) : Except Fault Value → Receipt
  | .ok answer => ofAnswer m data answer
  | .error f => refused data f

end Receipt

theorem Value.required_error {v : Value} {key : String} {f : Fault}
    (missing : v.required key = .error f) : ∃ e, f = .shape e := by
  unfold required at missing
  split at missing
  · split at missing <;> cases missing
    exact ⟨_, rfl⟩
  · cases missing
    exact ⟨_, rfl⟩

namespace Write

variable {h : Handle} {site : Site} {s t : Documents} {data : Value} {doc : Fields}

theorem create_eq (made : (Mapper.ofHandle h).toDoc data = .ok doc) :
    create h data = .ask (.insert h.database doc) fun x =>
      .done (.ok (Receipt.ofResult (Mapper.ofHandle h) data
        ((x.value (.insert h.database doc)).mapError
          (Fault.retold (telling h doc .duplicate "(duplicate?)"))))) := by
  simp only [create, made]
  show Program.ask _ _ = _
  refine congrArg _ (funext fun x => ?_)
  cases value : x.value (.insert h.database doc) with
  | ok v =>
    simp only [value]
    rfl
  | error f =>
    simp only [value]
    cases f <;> rfl

theorem not_duplicate {a : Answer} (taken : a.isError = false) (m : Mapper) (data : Value)
    (path : String) (c : Call) (g : HttpFault → HttpFault) :
    ¬(Receipt.ofResult m data
      (((Exchange.answered path a).value c).mapError (Fault.retold g))).Duplicate := by
  rintro ⟨f, told, -⟩
  cases body : a.body with
  | error unread =>
    simp only [Exchange.value, Exchange.accepted, taken, Bool.false_eq_true, if_false, bind,
      Except.bind, body] at told
    cases unread <;> cases told
  | ok answer =>
    rw [Exchange.value_of_body taken body] at told
    change (Receipt.ofAnswer m data answer).outcome = _ at told
    unfold Receipt.ofAnswer at told
    cases id : answer.required "id" with
    | error e =>
      obtain ⟨e, rfl⟩ := Value.required_error id
      rw [id] at told
      cases told
    | ok stored =>
      rw [id] at told
      cases rev : answer.required "rev" with
      | error e =>
        obtain ⟨e, rfl⟩ := Value.required_error rev
        simp only [rev] at told
        cases told
      | ok v =>
        simp only [rev] at told
        cases told

/-- A write that is refused is told as a duplicate, and the caller's data stays as it is. -/
theorem duplicate_of_refused (h : Handle) (data : Value) (doc : Fields) {w : Attempt} {a : Answer}
    (refused : w.accepted = false) (placed : w.place.isSome) (told : w.Answered a) (path : String)
    (c : Call) :
    ∃ f, Receipt.ofResult (Mapper.ofHandle h) data (((Exchange.answered path a).value c).mapError
      (Fault.retold (telling h doc .duplicate "(duplicate?)"))) = ⟨data, .error (.http f)⟩ ∧
        f.kind = .duplicate := by
  have posted : w.Posted .duplicate (((Exchange.answered path a).value c).mapError
      (Fault.retold (telling h doc .duplicate "(duplicate?)"))) :=
    posted_of_answered rfl told c path
  obtain ⟨f, same, kind⟩ := posted.stale refused placed
  exact ⟨f, by rw [same]; rfl, kind⟩

/-- Inserts of data with an id. Either the data makes no document that can be sent, and the fault
tells so; or one request is sent. When the store has answered it, the caller is told of a duplicate
and nothing has changed, unless the document carried the revision that was current in its place:
then the store has taken it for an update. The place is that of the id and the revision that of the
data, where the discriminator and the id have other names. -/
theorem create_duplicates_iff (h : Handle) (site : Site) (s : Documents) {data : Value}
    {source : Fields} {id : Value} (plain : Mapper.plainData data = .ok source)
    (distinct : (Entries.keys source).Nodup) (named : Entries.get? source h.idName = some id)
    (given : id.isNull = false) :
    (∃ f, ((Mapper.ofHandle h).toDoc data >>= fun doc => site.request (.insert h.database doc)) =
        .error f ∧ (create h data).settle (.ok site) = ([], .finished (.ok ⟨data, .error f⟩))) ∨
    ∃ doc q go, (Mapper.ofHandle h).toDoc data = .ok doc ∧
      (h.mark? ≠ some "_rev" → h.idName ≠ "_rev" → Entries.get? doc "_rev" =
        ((Entries.get? source "_rev").filter fun v => !v.isNull).map Value.stored) ∧
      (create h data).settle (.ok site) = ([], .sending q go) ∧
      ∀ reply t, s.Hears q reply t → ∃ receipt, go reply = .done (.ok receipt) ∧
        (receipt.Duplicate ∧ receipt.data = data ∧ t = s ↔
          Entries.get? doc "_rev" ≠
            s.revision? ⟨h.database, if h.mark? = some "_id" then h.name else id.text⟩) := by
  cases made : (Mapper.ofHandle h).toDoc data with
  | error f => exact .inl ⟨f, rfl, by simp only [create, made]; rfl⟩
  | ok doc =>
    have object : (Mapper.ofHandle h).toDoc (.object source) = .ok doc := by
      rw [← made, Mapper.toDoc, Mapper.toDoc, plain]
      rfl
    have id_ := Mapper.get?_id_toDoc object named given
    rw [create_eq made]
    rcases Program.settle_ask_at site (.insert h.database doc) _ with
      ⟨f, refused, settled⟩ | ⟨q, sent, settled⟩
    · refine .inl ⟨f, (pure_bind doc _).trans refused, settled.trans ?_⟩
      -- Such a fault is no status of the store, so nothing of it is told in other words.
      rcases Site.fault_of_request refused with ⟨e, rfl⟩ | ⟨e, rfl⟩ <;> rfl
    · refine .inr ⟨doc, q, _, rfl, fun mark other => ?_, settled, fun reply t hears =>
        ⟨_, rfl, ?_⟩⟩
      · exact Mapper.get?_toDoc_field object distinct mark (by decide) (Ne.symm other)
      · obtain ⟨path, a, ws, serves, arrives⟩ := hears
        obtain ⟨coded, form, call⟩ := Except.map_eq_ok.1 (Site.request_ok sent)
        cases Mapper.toDoc_coded made (Except.mapError_eq_ok.1 form)
        rw [← call] at serves
        rw [arrives]
        cases serves with
        | wrote write told =>
          cases write with
          | put named' current fresh =>
            cases named'.symm.trans id_
            exact ⟨fun ends => absurd ends.1 (not_duplicate told _ data path _ _),
              fun stale => absurd current stale⟩
          | conflict named' stale =>
            cases named'.symm.trans id_
            obtain ⟨f, same, kind⟩ := duplicate_of_refused h data doc rfl rfl told path
              (.insert h.database doc)
            rw [same]
            exact ⟨fun _ => stale, fun _ => ⟨⟨f, rfl, kind⟩, rfl, rfl⟩⟩
          | created unnamed => cases unnamed.symm.trans id_
          | improper unnamed => exact absurd id_ (unnamed _)

open World (shop)
open Shop (unmarked)

/-- Data of its own for a customer that is there is a duplicate. -/
theorem create_duplicates_customer :
    let data : Value := .object [("id", .str "5"), ("name", .str "x")]
    shop.revision? ⟨"shop", "5"⟩ = some (.str "1-a") ∧ ∃ q go,
      (create unmarked data).settle (.ok Shop.site) = ([], .sending q go) ∧
      (∃ reply, shop.Hears q reply shop) ∧
      ∀ reply t, shop.Hears q reply t → ∃ receipt, go reply = .done (.ok receipt) ∧
        receipt.Duplicate ∧ receipt.data = data ∧ t = shop := by
  intro data
  have there : shop.revision? ⟨"shop", "5"⟩ = some (.str "1-a") := rfl
  have plain : Mapper.plainData data = .ok [("id", .str "5"), ("name", .str "x")] := rfl
  rcases create_duplicates_iff unmarked Shop.site shop plain (by decide) rfl rfl with
    ⟨f, failed, -⟩ | ⟨doc, q, go, made, -, sends, hears⟩
  · cases failed
  · cases made
    obtain ⟨q', go', path, sends', call, arrives⟩ : ∃ q go path,
        (create unmarked data).settle (.ok Shop.site) = ([], .sending q go) ∧
        q.call = .insert "shop" [("name", .str "x"), ("_id", .str "5")] ∧
        q.exchange (.answered .refusing) = .answered path .refusing := ⟨_, _, _, rfl, rfl, rfl⟩
    cases sends.symm.trans sends'
    have stale : Entries.get? [("name", Value.str "x"), ("_id", Value.str "5")] "_rev" ≠
        shop.revision? ⟨"shop", "5"⟩ := by
      rw [there]
      exact nofun
    have refused : shop.Hears q (.answered .refusing) shop :=
      Documents.Hears.of_insert (a := .refusing) call (.conflict rfl stale) ⟨rfl, nofun⟩ arrives
    refine ⟨there, q, go, sends, ⟨_, refused⟩, fun reply t heard => ?_⟩
    obtain ⟨receipt, ends, told⟩ := hears reply t heard
    exact ⟨receipt, ends, told.2 stale⟩

/-- A customer that was read before is written over, under a receipt for a new one. -/
theorem create_overwrites_customer :
    let data : Value := .object [("id", .str "5"), ("_rev", .str "1-a"), ("name", .str "x")]
    ∃ q go reply t receipt, (create unmarked data).settle (.ok Shop.site) = ([], .sending q go) ∧
      shop.Hears q reply t ∧ go reply = .done (.ok receipt) ∧
      receipt.outcome = .ok ⟨.str "5", .str "2-b"⟩ ∧ shop.Sound ∧
      (shop.current ⟨"shop", "5"⟩).bind (fun c => c "age") = some (.int 1) ∧
      (t.current ⟨"shop", "5"⟩).bind (fun c => c "age") = none := by
  intro data
  let doc : Fields := [("_rev", .str "1-a"), ("name", .str "x"), ("_id", .str "5")]
  obtain ⟨q, go, path, receipt, sends, call, arrives, ends, outcome⟩ : ∃ q go path receipt,
      (create unmarked data).settle (.ok Shop.site) = ([], .sending q go) ∧
      q.call = .insert "shop" doc ∧
      q.exchange (.answered (.taking "5" "2-b")) = .answered path (.taking "5" "2-b") ∧
      go (.answered (.taking "5" "2-b")) = .done (.ok receipt) ∧
      receipt.outcome = .ok ⟨.str "5", .str "2-b"⟩ := ⟨_, _, _, _, rfl, rfl, rfl, rfl, rfl⟩
  have wrote : shop.Writes "shop" doc _ (shop.put ⟨"shop", "5"⟩ doc "2-b") :=
    .put rfl rfl (by simp [shop])
  have heard : shop.Hears q (.answered (.taking "5" "2-b")) _ :=
    Documents.Hears.of_insert (a := .taking "5" "2-b") call wrote rfl arrives
  exact ⟨q, go, _, _, receipt, sends, heard, ends, outcome, World.shop_sound, rfl, rfl⟩

end Write

end ModelStore
