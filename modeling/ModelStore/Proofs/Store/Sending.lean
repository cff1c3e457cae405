import ModelStore.Proofs.Mapper
import ModelStore.Proofs.Store.Amending
import ModelStore.Proofs.Store.Sessions
import ModelStore.Store.Save

/-! What the writing calls of a model send. Whatever they are answered, they read documents by
their ids and send documents that they make from their data, or from their data and documents
that they have read. So what is permitted to them need only be looked at document by document. -/

namespace ModelStore

open Selector (Search)

namespace Program

variable {α β : Type} {search : Search} {held : Documents → Prop} {permit : Call → Prop}

def Makes (search : Search) (held : Documents → Prop) (permit : Call → Prop) (p : Program α) :
    Prop :=
  p.Sends search held permit fun _ => True

theorem Makes.andThen {p : Program α} (makes : p.Makes search held permit)
    {f : Except Fault α → Program β} (next : ∀ r, (f r).Makes search held permit) :
    (p.andThen f).Makes search held permit :=
  sends_andThen.2 (makes.mono fun r _ => next r)

theorem Makes.bind {p : Program α} (makes : p.Makes search held permit) {f : α → Program β}
    (next : ∀ a, (f a).Makes search held permit) : (p >>= f).Makes search held permit :=
  Sends.bind makes (fun a _ => next a) fun _ _ => trivial

theorem makes_ofExcept_bind {r : Except Fault α} {f : α → Program β}
    (next : ∀ a, r = .ok a → (f a).Makes search held permit) :
    (ofExcept r >>= f).Makes search held permit :=
  sends_ofExcept_bind next fun _ _ => trivial

theorem makes_request {c : Call} (permitted : ∀ coded, c.encode = .ok coded → permit coded) :
    (request c).Makes search held permit :=
  ⟨permitted, fun _ => trivial⟩

theorem Makes.retell {p : Program α} (makes : p.Makes search held permit)
    (f : HttpFault → HttpFault) : (p.retell f).Makes search held permit := by
  refine makes.andThen fun r => ?_
  cases r with
  | ok a => trivial
  | error e => cases e <;> trivial

end Program

variable {search : Search} {held : Documents → Prop} {permit : Call → Prop} {h : Handle}
  {data id : Value} {values : Fields}

namespace Write

theorem makes_post {doc : Fields} (sends : permit (.insert h.database doc))
    (coded : ∀ coded, Json.encodeFields doc = .ok coded → coded = doc) (kind : HttpKind)
    (suffix : String) : (post h doc kind suffix).Makes search held permit := by
  refine (Program.makes_request fun call form => ?_).retell _
  obtain ⟨fields, encoded, rfl⟩ := Except.map_eq_ok.1 form
  rwa [coded fields (Except.mapError_eq_ok.1 encoded)]

theorem makes_create (sends : ∀ doc, (Mapper.ofHandle h).toDoc data = .ok doc →
    permit (.insert h.database doc)) : (create h data).Makes search held permit := by
  have posted : Program.Makes search held permit (Program.ofExcept ((Mapper.ofHandle h).toDoc data)
      >>= fun doc => post h doc .duplicate "(duplicate?)") :=
    Program.makes_ofExcept_bind fun doc made =>
      makes_post (sends doc made) (fun _ => Mapper.toDoc_coded made) _ _
  refine posted.andThen fun r => ?_
  cases r <;> trivial

theorem makes_replace (looks : ∀ c : Call, c.IsLook → permit c)
    (sends : ∀ fields doc, Mapper.plainData data = .ok fields →
      (Mapper.ofHandle h).toDoc (.object (Entries.set fields h.idName (.str id.text))) = .ok doc →
        permit (.insert h.database doc)) : (replace h id data).Makes search held permit := by
  refine Program.makes_ofExcept_bind fun fields plain => ?_
  refine Program.makes_ofExcept_bind fun doc made => ?_
  refine (makes_post (sends fields doc plain made) (fun _ => Mapper.toDoc_coded made) _ _).bind
    fun answer => ?_
  refine Program.makes_ofExcept_bind fun stored _ => ?_
  refine (Program.makes_request fun call form => ?_).bind fun found => trivial
  cases form
  exact looks _ trivial

theorem makes_current (looks : ∀ c : Call, c.IsLook → permit c) :
    (current h id).Makes search held permit := by
  refine (Program.makes_request fun call form => ?_).retell _
  cases form
  exact looks _ trivial

def mergeInto (h : Handle) (id data found : Value) : Program Fields := do
  let m := Mapper.ofHandle h
  let stored ← Program.ofExcept found.asTable
  let patch ← Program.ofExcept (Mapper.plainData data)
  let doc ← Program.ofExcept (m.toDoc (.object (merged h id stored.named patch)))
  let answer ← post h doc .stale ""
  let rev ← Program.ofExcept (answer.required "rev")
  Program.ofExcept (m.fromDoc .null (.object (Entries.set doc "_rev" rev)))

theorem merge_eq (h : Handle) (id data : Value) :
    merge h id data = current h id >>= mergeInto h id data :=
  rfl

theorem makes_mergeInto {found : Value} (sends : ∀ stored patch doc, found.asTable = .ok stored →
      Mapper.plainData data = .ok patch →
      (Mapper.ofHandle h).toDoc (.object (merged h id stored.named patch)) = .ok doc →
        permit (.insert h.database doc)) :
    (mergeInto h id data found).Makes search held permit := by
  refine Program.makes_ofExcept_bind fun stored table => ?_
  refine Program.makes_ofExcept_bind fun patch plain => ?_
  refine Program.makes_ofExcept_bind fun doc made => ?_
  refine (makes_post (sends stored patch doc table plain made) (fun _ => Mapper.toDoc_coded made)
    _ _).bind fun answer => ?_
  exact Program.makes_ofExcept_bind fun rev _ => trivial

end Write

namespace Save

theorem makes_inserted (sends : ∀ doc, (Mapper.ofHandle h).toDoc (.object values) = .ok doc →
    permit (.insert h.database doc)) : (inserted h values).Makes search held permit := by
  have written : (Write.insert h (.object values)).Makes search held permit :=
    (Write.makes_create sends).bind fun receipt => trivial
  exact written.bind fun w => trivial

theorem makes_created (sends : ∀ doc, (Mapper.ofHandle h).toDoc (.object values) = .ok doc →
    permit (.insert h.database doc)) : (created h values).Makes search held permit :=
  (makes_inserted sends).bind fun _ => trivial

/-- Whether the documents are permitted that are made from data as it is, or under another id. -/
def Permits (permit : Call → Prop) (h : Handle) (values : Fields) : Prop :=
  ∀ source doc, source = values ∨ (∃ id, source = Entries.set values h.idName (.str id)) →
    (Mapper.ofHandle h).toDoc (.object source) = .ok doc → permit (.insert h.database doc)

theorem makes_save (looks : ∀ c : Call, c.IsLook → permit c)
    (sends : ∀ values, Mapper.plainData data = .ok values → Permits permit h values) :
    (save h data).Makes search held permit := by
  refine Program.makes_ofExcept_bind fun values plain => ?_
  show Program.Makes search held permit (if (idOf h values).isNull then _ else _)
  split
  · exact makes_inserted fun doc => sends values plain values doc (.inl rfl)
  · refine Write.makes_replace looks fun fields doc same => ?_
    cases same
    exact sends values plain _ doc (.inr ⟨_, rfl⟩)

theorem makes_replace (looks : ∀ c : Call, c.IsLook → permit c)
    (sends : ∀ values, Mapper.plainData data = .ok values → Permits permit h values) :
    (replace h data).Makes search held permit := by
  refine Program.makes_ofExcept_bind fun values plain => ?_
  have made : (created h values).Makes search held permit :=
    makes_created fun doc => sends values plain values doc (.inl rfl)
  have written : ∀ rev : Option String, Program.Makes search held permit
      (if rev.isSome then do
        let fields ← Write.replace h (idOf h values) (.object values)
        pure ⟨fields, false⟩
      else created h values) := by
    intro rev
    split
    · have replaced :
          (Write.replace h (idOf h values) (.object values)).Makes search held permit := by
        refine Write.makes_replace looks fun fields doc same => ?_
        cases same
        exact sends values plain _ doc (.inr ⟨_, rfl⟩)
      exact replaced.bind fun _ => trivial
    · exact made
  have asked : (Program.answer (.head h.database (idOf h values).text)).Makes search held
      permit := by
    refine ⟨fun call form => ?_, fun x => trivial⟩
    cases form
    exact looks _ trivial
  have read : (revision h (idOf h values)).Makes search held permit := asked.bind fun _ => trivial
  have looked : ((revision h (idOf h values)).rescue noDocument).Makes search held permit := by
    refine read.andThen fun r => ?_
    cases r with
    | ok rev => trivial
    | error f =>
      show Program.Makes search held permit (noDocument f)
      unfold noDocument
      split <;> trivial
  show Program.Makes search held permit (if (idOf h values).isNull then _ else _)
  split
  · exact written none
  · exact looked.bind written

end Save

theorem Json.eq_of_encodeItems {docs : List Fields} {coded : List Value}
    (own : ∀ doc ∈ docs, ∀ fields, encodeFields doc = .ok fields → fields = doc)
    (form : encodeItems (docs.map .object) = .ok coded) : coded = docs.map .object := by
  induction docs generalizing coded with
  | nil =>
    cases form
    rfl
  | cons doc rest ih =>
    obtain ⟨here, there⟩ := List.forall_mem_cons.1 own
    obtain ⟨w, ws, first, others, rfl⟩ := encodeItems_cons.1 form
    obtain ⟨fields, encoded, rfl⟩ := Except.map_eq_ok.1 first
    rw [here fields encoded, ih there others, List.map_cons]

namespace Bulk

theorem makes_send {docs : List Value}
    (sends : ∀ coded, Json.encodeItems docs = .ok coded → permit (.bulk h.database coded)) :
    (send h docs).Makes search held permit := by
  refine (Program.makes_request fun call form => ?_).bind fun v => ?_
  · obtain ⟨coded, encoded, rfl⟩ := Except.map_eq_ok.1 form
    exact sends coded (Except.mapError_eq_ok.1 encoded)
  · split <;> trivial

theorem makes_replace (sends : ∀ items docs, data.members = .ok items →
      items.mapM (Mapper.ofHandle h).toDoc = .ok docs →
        permit (.bulk h.database (docs.map .object))) :
    (replace h data).Makes search held permit := by
  refine Program.makes_ofExcept_bind fun items given => ?_
  refine Program.makes_ofExcept_bind fun docs made => ?_
  refine makes_send fun coded form => ?_
  have own : ∀ doc ∈ docs, ∀ fields, Json.encodeFields doc = .ok fields → fields = doc := by
    intro doc mem fields encoded
    obtain ⟨item, -, whole⟩ := Except.mem_of_mapM made mem
    exact Mapper.toDoc_coded whole encoded
  rw [Json.eq_of_encodeItems own form]
  exact sends items docs given made

theorem makes_amend {docs : List Value} (sends : ∀ back coded, amended h data docs = .ok back →
      Json.encodeItems back = .ok coded → permit (.bulk h.database coded)) :
    (amend h data docs).Makes search held permit := by
  unfold amend
  split
  · trivial
  refine Program.makes_ofExcept_bind fun back made => ?_
  exact (makes_send fun coded form => sends back coded made form).bind fun entries => trivial

end Bulk

end ModelStore
