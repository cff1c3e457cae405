import ModelStore.Proofs.Mapper.Projection
import ModelStore.Proofs.Store.Answering
import ModelStore.Proofs.Store.Calling
import ModelStore.Proofs.Store.Identity
import ModelStore.Proofs.Store.Yielding

/-! What is found after an update. The call that writes a document returns the instance that it
makes of what it has posted and of the answer to that, and a later call looks the document up.
Where a look-up goes decides what it is answered with: one that does not go to the path of its
document may be answered with anything. -/

namespace ModelStore

open Selector (Search)

namespace Documents

/-- An accepted insert is answered with the id of the document and the revision that it now
has. -/
def Tells (t : Documents) (c : Call) (a : Answer) : Prop :=
  ∀ db doc name, c = .insert db doc → a.isError = false →
    Entries.get? doc "_id" = some (.str name) → ∃ fields rev, a.body = .ok (.object fields) ∧
      Entries.get? fields "id" = some (.str name) ∧ Entries.get? fields "rev" = some (.str rev) ∧
      t.revision? ⟨db, name⟩ = some (.str rev)

/-- How a store serves the requests of a site. What a look-up is answered with is the store's own
if it goes to the path of its document. -/
inductive Stores (search : Search) (site : Site) (s : Documents) (q : Request) (reply : Reply) :
    Documents → Prop where
  | performed {a : Answer} {t : Documents} (performs : s.Performs search q.call a t)
      (tells : t.Tells q.call a)
      (told : ∀ path b, q.exchange reply = .answered path b → b.isError = false → b = a) :
      Stores search site s q reply t
  | elsewhere {db name : String} (look : q.call = .get db name)
      (off : q.url.path ≠ site.documentPath db name) : Stores search site s q reply s

/-- A look-up that goes to the path of its document is answered from the documents. -/
def Answers (t : Documents) (site : Site) (q : Request) (reply : Reply) : Prop :=
  ∀ db name, q.call = .get db name → q.url.path = site.documentPath db name →
    ∃ a path, t.Serves q.call a [] t ∧ q.exchange reply = .answered path a

end Documents

variable {search : Search} {site : Site} {h : Handle} {s t : Documents} {qs : List Request}
  {id data : Value} {fields doc : Fields} {name mark : String}

namespace Documents

variable {q : Request} {path : String}

theorem stores_showing (search : Search) (site : Site) {db id : String} (call : q.call = .get db id)
    (there : s.Shows ⟨db, id⟩ (.object fields))
    (arrives : q.exchange (.answered (.showing fields)) = .answered path (.showing fields)) :
    s.Stores search site q (.answered (.showing fields)) s := by
  refine .performed ?_ ?_ (Request.told_of_exchange arrives)
  · rw [call]
    exact .served (serves_showing there) fun _ _ _ _ no => nomatch no
  · rw [call]
    exact fun _ _ _ no => nomatch no

theorem stores_taking (search : Search) (site : Site) {db id rev : String}
    (call : q.call = .insert db doc) (named : Entries.get? doc "_id" = some (.str id))
    (current : Entries.get? doc "_rev" = s.revision? ⟨db, id⟩) (fresh : rev ∉ s.issued)
    (arrives : q.exchange (.answered (.taking id rev)) = .answered path (.taking id rev)) :
    s.Stores search site q (.answered (.taking id rev)) (s.put ⟨db, id⟩ doc rev) := by
  refine .performed ?_ ?_ (Request.told_of_exchange arrives)
  · rw [call]
    exact .served (serves_taking named current fresh) fun _ _ _ _ no => nomatch no
  · rw [call]
    rintro _ _ name ⟨⟩ - named'
    cases named.symm.trans named'
    refine ⟨_, rev, rfl, rfl, rfl, ?_⟩
    simp [revision?, put, kept]

end Documents

namespace Mapper

variable {m : Mapper} {whole part next : Fields}

theorem fromDoc_congr (same : ∀ key, Entries.get? part key = Entries.get? whole key)
    (read : m.fromDoc .null (.object whole) = .ok next) :
    ∃ found, m.fromDoc .null (.object part) = .ok found ∧
      ∀ key, Entries.get? found key = Entries.get? next key := by
  obtain ⟨id, named⟩ := exists_id_of_fromDoc read
  obtain ⟨returned, data, returns, parsed, rfl⟩ := (fromDoc_ok named).1 read
  cases returns
  have alike : Entries.Restricts (fun _ => True) whole part :=
    fun key => ⟨fun _ => same key, fun left => absurd trivial left⟩
  obtain ⟨found, parsed', restricts⟩ :=
    restricts_foldlM_parseDate ((alike.erase "_id").set trivial (m.parseId id)) parsed
  refine ⟨_, (fromDoc_ok ((same "_id").trans named)).2 ⟨true, found, rfl, parsed', rfl⟩, ?_⟩
  exact fun key => (restricts_unstamp restricts key).1 trivial

theorem get?_mark_toDoc {source : Fields} (made : m.toDoc (.object source) = .ok doc)
    (marked : m.mark? = some mark) : Entries.get? doc mark = some (.str m.model) := by
  rw [toDoc_ok made, Value.get?_storedFields, layOut, get?_stamp, if_pos marked]
  rfl

end Mapper

namespace Program

theorem Served.of_look {v : Value} (plain : site.Plain) {db : String} (placed : db ≠ "")
    (undotted : ¬Path.HasDots db name)
    (served : (request (.get db name)).Served (.ok site) (Documents.Stores search site) s qs t
      (.ok v)) :
    (∃ q, site.request (.get db name) = .ok q) ∧ t = s ∧ s.Shows ⟨db, name⟩ v := by
  rcases of_ask served with ⟨f, -, rest⟩ | ⟨q, reply, u, later, sent, rfl, serve, rest⟩
  · obtain ⟨-, -, wrong⟩ := of_done rest
    cases wrong
  · obtain ⟨-, rfl, value⟩ := of_done rest
    have call : Call.get db name = q.call := Except.ok.inj (Site.request_ok sent)
    obtain ⟨path, b, arrived, sound, body⟩ := Exchange.value_eq_ok value.symm
    cases serve with
    | performed performs tells told =>
      rw [← call] at performs
      cases told path b arrived sound
      exact ⟨⟨q, sent⟩, performs.of_get.1, performs.of_get.2 v sound body⟩
    | elsewhere look off =>
      cases call.trans look
      exact absurd ((plain.address_get placed sent).2 undotted) off

end Program

namespace Write

/-- A document that is posted under an id and accepted was posted under the revision of the
document before it. It is kept, and the answer tells the id and the new revision. -/
theorem served_post {kind : HttpKind} {suffix : String} {answer : Value}
    (named : Entries.get? doc "_id" = some (.str name))
    (coded : ∀ coded, Json.encodeFields doc = .ok coded → coded = doc)
    (served : (post h doc kind suffix).Served (.ok site) (Documents.Stores search site) s qs t
      (.ok answer)) :
    Entries.get? doc "_rev" = s.revision? ⟨h.database, name⟩ ∧
      ∃ rev, t.current ⟨h.database, name⟩ = some (Documents.kept doc name rev) ∧
        answer.required "id" = .ok (.str name) ∧ answer.required "rev" = .ok (.str rev) := by
  rcases Program.Served.of_ask served.of_retell_ok with ⟨f, -, rest⟩ |
    ⟨q, reply, u, later, sent, rfl, serve, rest⟩
  · obtain ⟨-, -, wrong⟩ := rest.of_done
    cases wrong
  · obtain ⟨-, rfl, value⟩ := rest.of_done
    obtain ⟨path, b, arrived, sound, body⟩ := Exchange.value_eq_ok value.symm
    obtain ⟨posted, form, call⟩ := Except.map_eq_ok.1 (Site.request_ok sent)
    rw [coded posted (Except.mapError_eq_ok.1 form)] at call
    cases serve with
    | elsewhere look off => cases call.trans look
    | performed performs tells told =>
      cases told path b arrived sound
      rw [← call] at performs tells
      obtain ⟨told, rev, body', own, revision, dated⟩ := tells _ _ _ rfl sound named
      cases body.symm.trans body'
      have answered : (Value.object told).required "id" = .ok (.str name) ∧
          (Value.object told).required "rev" = .ok (.str rev) := by
        simp only [Value.required, own, revision, and_self]
      obtain ⟨current, rev', here⟩ := performs.of_insert sound named
      have same : some (Value.str rev') = some (.str rev) := by
        rw [← dated, Documents.revision?_of_current here]
        rfl
      cases same
      exact ⟨current, rev, here, answered⟩

/-- An update whose result is told leaves a document of its id that carries the mark of the model,
and the result is what a document of the same fields is read as. -/
structure Revises (site : Site) (h : Handle) (id : Value) (t : Documents) (fields : Fields) :
    Prop where
  reachable : ∃ q, site.request (.get h.database id.text) = .ok q
  kept : ∃ whole, t.current ⟨h.database, id.text⟩ = some (Entries.get? whole) ∧
    (Mapper.ofHandle h).fromDoc .null (.object whole) = .ok fields ∧
    ∀ mark, h.mark? = some mark → Entries.get? whole mark = some (.str h.name)

theorem kept_eq_set (named : Entries.get? doc "_id" = some (.str name)) (rev : String) :
    Documents.kept doc name rev = Entries.get? (Entries.set doc "_rev" (.str rev)) := by
  funext key
  by_cases own : key = "_id"
  · subst own
    rw [Documents.kept, if_pos rfl, Entries.get?_set_ne _ _ (by decide), named]
  · by_cases dated : key = "_rev"
    · subst dated
      rw [Documents.kept, if_neg own, if_pos rfl, Entries.get?_set_self]
    · rw [Documents.kept, if_neg own, if_neg dated, Entries.get?_set_ne _ _ (Ne.symm dated)]

theorem get?_id_toDoc {source : Fields} (made : (Mapper.ofHandle h).toDoc
      (.object (Entries.set source h.idName (.str id.text))) = .ok doc)
    (apart : h.mark? ≠ some "_id") : Entries.get? doc "_id" = some (.str id.text) := by
  have given := Mapper.get?_id_toDoc made (Entries.get?_set_self _ _ _) rfl
  rwa [if_neg (show (Mapper.ofHandle h).mark? ≠ some "_id" from apart)] at given

theorem get?_mark_set {source : Fields} {rev : String}
    (made : (Mapper.ofHandle h).toDoc (.object source) = .ok doc) (marked : h.mark? = some mark)
    (dated : h.mark? = some "_rev" → Entries.get? doc "_rev" ≠ some (.str h.name)) :
    Entries.get? (Entries.set doc "_rev" (.str rev)) mark = some (.str h.name) := by
  have there : Entries.get? doc mark = some (.str h.name) :=
    Mapper.get?_mark_toDoc (m := .ofHandle h) made marked
  by_cases revision : mark = "_rev"
  · subst revision
    exact absurd there (dated marked)
  · rw [Entries.get?_set_ne _ _ (Ne.symm revision), there]

section Updates

variable (plain : site.Plain) (placed : h.database ≠ "")
  (undotted : ¬Path.HasDots h.database id.text) (apart : h.mark? ≠ some "_id")
  (dated : h.mark? = some "_rev" → s.revision? ⟨h.database, id.text⟩ ≠ some (.str h.name))

include plain placed undotted apart dated

theorem revises_merge
    (served : (merge h id data).Served (.ok site) (Documents.Stores search site) s qs t
      (.ok fields)) : Revises site h id t fields := by
  obtain ⟨_, _, u, found, -, looked, rest₁⟩ := Program.Served.of_bind served
  obtain ⟨reachable, rfl, -⟩ := looked.of_retell_ok.of_look plain placed undotted
  obtain ⟨stored, -, rest₂⟩ := Program.Served.of_ofExcept_bind rest₁
  obtain ⟨patch, -, rest₃⟩ := Program.Served.of_ofExcept_bind rest₂
  obtain ⟨doc, made, rest₄⟩ := Program.Served.of_ofExcept_bind rest₃
  obtain ⟨_, _, v, answer, -, posted, rest₅⟩ := Program.Served.of_bind rest₄
  obtain ⟨rev, told, rest₆⟩ := Program.Served.of_ofExcept_bind rest₅
  obtain ⟨-, rfl, read⟩ := rest₆.of_done
  have named := get?_id_toDoc made apart
  obtain ⟨current, rev', here, -, told'⟩ :=
    served_post named (fun _ => Mapper.toDoc_coded made) posted
  cases told.symm.trans told'
  exact ⟨reachable, _, by rw [here, kept_eq_set named], read.symm,
    fun mark marked => get?_mark_set made marked fun same => current ▸ dated same⟩

theorem revises_replace
    (served : (replace h id data).Served (.ok site) (Documents.Stores search site) s qs t
      (.ok fields)) : Revises site h id t fields := by
  obtain ⟨source, -, rest₁⟩ := Program.Served.of_ofExcept_bind served
  obtain ⟨doc, made, rest₂⟩ := Program.Served.of_ofExcept_bind rest₁
  obtain ⟨_, _, v, answer, -, posted, rest₃⟩ := Program.Served.of_bind rest₂
  obtain ⟨stored, own, rest₄⟩ := Program.Served.of_ofExcept_bind rest₃
  obtain ⟨_, _, u, found, -, looked, rest₅⟩ := Program.Served.of_bind rest₄
  obtain ⟨-, rfl, read⟩ := rest₅.of_done
  have named := get?_id_toDoc made apart
  obtain ⟨current, rev, here, told, -⟩ :=
    served_post named (fun _ => Mapper.toDoc_coded made) posted
  rw [told] at own
  cases own
  obtain ⟨reachable, rfl, whole, rfl, -, there⟩ := looked.of_look plain placed undotted
  refine ⟨reachable, whole, there, read.symm, fun mark marked => ?_⟩
  rw [here, kept_eq_set named, Option.some_inj] at there
  rw [← there]
  exact get?_mark_set made marked fun same => current ▸ dated same

end Updates

end Write

namespace Read

theorem yields_look {db : String} {q : Request} (sent : site.request (.get db name) = .ok q)
    (path : q.url.path = site.documentPath db name) {c : Content}
    (there : t.current ⟨db, name⟩ = some c) :
    (Program.request (.get db name)).Yields (.ok site) (t.Answers site) fun r =>
      ∃ v, r = .ok v ∧ t.Shows ⟨db, name⟩ v := by
  have call : Call.get db name = q.call := Except.ok.inj (Site.request_ok sent)
  have sends : (Program.request (.get db name)).settle (.ok site) =
      ([], .sending q fun reply => .done ((q.exchange reply).value (.get db name))) := by
    simp only [Program.request, Program.settle, Except.bind, sent]
  refine .sending sends fun reply answers => ?_
  obtain ⟨a, path, serves, arrived⟩ := answers db name call.symm path
  rw [← call] at serves
  cases serves with
  | found sound body shown =>
    refine .finished rfl ⟨_, ?_, shown⟩
    simp [Exchange.value, Exchange.accepted, arrived, sound, body, bind, Except.bind]
  | missing absent =>
    rw [there] at absent
    cases absent

theorem marked_eq {found : Fields} (discriminated : h.discriminator = some mark)
    (carries : Entries.get? found mark = some (.str h.name)) :
    marked h (.object found) = ((Mapper.ofHandle h).fromDoc .null (.object found)).map some := by
  have same : (Value.ofOption (h.discriminator.bind (Entries.get? found))).same (.str h.name) =
      true := by
    rw [discriminated, Option.bind_some, carries, Value.ofOption, Value.same_str, beq_self_eq_true]
  exact if_pos same

/-- After an update the document of the id is found, and read as the update has told. -/
theorem yields_revised (plain : site.Plain) (placed : h.database ≠ "")
    (undotted : ¬Path.HasDots h.database id.text) (own : h.modelSelector = none)
    (discriminated : h.discriminator = some mark) (filled : mark ≠ "")
    (revises : Write.Revises site h id t fields) (settings : Settings) :
    (byId settings h id).Yields (.ok site) (t.Answers site) fun r =>
      ∃ back, r = .ok (some back) ∧ ∀ key, Entries.get? back key = Entries.get? fields key := by
  obtain ⟨q, sent⟩ := revises.reachable
  obtain ⟨whole, there, read, carries⟩ := revises.kept
  have marked : h.mark? = some mark := by simp [Handle.mark?, discriminated, filled]
  have looked := yields_look sent ((plain.address_get placed sent).2 undotted) there
  have direct : byId settings h id = byKey h id := by simp [byId, own]
  rw [direct]
  refine looked.andThen ?_
  rintro _ ⟨_, rfl, found, rfl, -, here⟩
  have same : Entries.get? found = Entries.get? whole := Option.some.inj (here.symm.trans there)
  obtain ⟨back, reads, alike⟩ := Mapper.fromDoc_congr (congrFun same) read
  have carried : Entries.get? found mark = some (.str h.name) := by
    rw [same, carries mark marked]
  refine .finished (p := .ofExcept (Read.marked h (.object found))) rfl ⟨back, ?_, alike⟩
  rw [marked_eq discriminated carried, reads]
  rfl

end Read

theorem Action.served_onModel {α σ : Type} {c c' c₁ : Client} {p : Settings → Handle → Program α}
    {x : α} {outset : Except Fault Site} {serves : σ → Request → Reply → σ → Prop} {a b : σ}
    (handled : handle name c = pure ⟨.ok h, c'⟩)
    (served : (onModel name p c).Served outset serves a qs b (.ok ⟨.ok x, c₁⟩)) :
    (p c'.settings h).Served outset serves a qs b (.ok x) ∧ c₁ = c' := by
  rw [onModel_of_handle handled] at served
  obtain ⟨first, later, u, r, rfl, ran, ended⟩ := served.of_andThen
  obtain ⟨rfl, rfl, same⟩ := ended.of_done
  cases same
  exact ⟨(List.append_nil first).symm ▸ ran, rfl⟩

namespace Client

variable {c c₁ : Client} {update : Action Fields}

/-- After an update whose result is told, nothing else being written, the instance that is found
by the id is the result. The look-ups must reach the document, and a mark under `_rev` must not
read like the revision that the document had: the one written then would be no mark any more. -/
theorem finds_updated (known : c.resolve name = .ok h)
    (kept : ∀ h', Entries.get? c.handles name = some h' → h' = h) (own : h.modelSelector = none)
    (apart : h.discriminator ≠ some "_id")
    (dated : h.discriminator = some "_rev" →
      s.revision? ⟨h.database, id.text⟩ ≠ some (.str h.name))
    (plain : site.Plain) (undotted : ¬Path.HasDots h.database id.text)
    (updates : update = updateAttributes name id data ∨ update = replaceById name id data)
    (served : (update c).Served (.ok site) (Documents.Stores search site) s qs t
      (.ok ⟨.ok fields, c₁⟩)) :
    (findById name id c₁).Yields (.ok site) (t.Answers site) fun r =>
      ∃ back c₂, r = .ok ⟨.ok (some back), c₂⟩ ∧
        ∀ key, Entries.get? back key = Entries.get? fields key := by
  obtain ⟨placed, discriminated⟩ := resolve_ok known
  obtain ⟨mark, discriminated, filled⟩ := discriminated own
  have marked : h.mark? = h.discriminator := by simp [Handle.mark?, discriminated, filled]
  rw [← marked] at apart dated
  obtain ⟨c', -, handled⟩ := Action.handle_eq known kept
  have revises : Write.Revises site h id t fields ∧ c₁ = c' := by
    rcases updates with rfl | rfl
    · obtain ⟨merged, same⟩ := Action.served_onModel handled served
      exact ⟨Write.revises_merge plain placed undotted apart dated merged, same⟩
    · obtain ⟨replaced, same⟩ := Action.served_onModel handled served
      exact ⟨Write.revises_replace plain placed undotted apart dated replaced, same⟩
  obtain ⟨revises, rfl⟩ := revises
  rw [findById, Action.onModel_of_handle (Action.handle_again handled)]
  refine (Read.yields_revised plain placed undotted own discriminated filled revises _).andThen ?_
  rintro _ ⟨back, rfl, same⟩
  exact .finished rfl ⟨back, c₁, rfl, same⟩

section Stall

open Documents (stores_showing stores_taking)
open Mutation (customer market)
open Shop (customers)

def stall : Client := Shop.client (some "kind") none [("Customer", Shop.customerModel)]

def christening : Value := .object [("name", .str "x")]

def christened : Fields :=
  [("_rev", .str "1-a"), ("kind", .str "Customer"), ("age", .int 1), ("name", .str "x"),
    ("_id", .str "5")]

def christenedData : Fields :=
  [("_rev", .str "2-c"), ("age", .int 1), ("name", .str "x"), ("id", .str "5")]

def christenedFound : Answer := .showing (Entries.set christened "_rev" (.str "2-c"))

/-- A customer gets a name and is found with it. -/
theorem finds_updated_market :
    ∃ qs t q go back,
      (updateAttributes "Customer" (.str "5") christening stall).Served (.ok Shop.site)
        (Documents.Stores (fun _ _ => false) Shop.site) market qs t
        (.ok ⟨.ok christenedData, stall.keep "Customer" customers⟩) ∧
      (findById "Customer" (.str "5") (stall.keep "Customer" customers)).settle (.ok Shop.site) =
        ([], .sending q go) ∧
      t.Answers Shop.site q (.answered christenedFound) ∧
      (go (.answered christenedFound)).settle (.ok Shop.site) =
        ([], .finished (.ok ⟨.ok (some back), stall.keep "Customer" customers⟩)) ∧
      ∀ key, Entries.get? back key = Entries.get? christenedData key := by
  obtain ⟨q, go, q', go', path, path', sends, sends', ends, call, call', arrives, arrives'⟩ :
      ∃ q go q' go' path path',
        (updateAttributes "Customer" (.str "5") christening stall).settle (.ok Shop.site) =
          ([], .sending q go) ∧
        (go (.answered (.showing customer))).settle (.ok Shop.site) = ([], .sending q' go') ∧
        (go' (.answered (.taking "5" "2-c"))).settle (.ok Shop.site) =
          ([], .finished (.ok ⟨.ok christenedData, stall.keep "Customer" customers⟩)) ∧
        q.call = .get "shop" "5" ∧ q'.call = .insert "shop" christened ∧
        q.exchange (.answered (.showing customer)) = .answered path (.showing customer) ∧
        q'.exchange (.answered (.taking "5" "2-c")) = .answered path' (.taking "5" "2-c") :=
    ⟨_, _, _, _, _, _, rfl, rfl, rfl, rfl, rfl, rfl, rfl⟩
  have here : market.current ⟨"shop", "5"⟩ = some (Entries.get? customer) := by simp [market]
  have looked := stores_showing (fun _ _ => false) Shop.site call
    ⟨customer, rfl, ⟨by simp [customer, Entries.keys], rfl⟩, here⟩ arrives
  have current : Entries.get? christened "_rev" = market.revision? ⟨"shop", "5"⟩ := by
    rw [Documents.revision?_of_current here]
    rfl
  have posted := stores_taking (fun _ _ => false) Shop.site call' rfl current (by simp [market])
    arrives'
  have served := Program.Served.told sends looked (.told sends' posted (.ended ends))
  have undotted : ¬Path.HasDots customers.database (Value.str "5").text := by
    have name : Path.name (Value.str "5").text = "5" := rfl
    rw [Path.HasDots, name]
    decide
  have unkept : ∀ h', Entries.get? stall.handles "Customer" = some h' → h' = customers := by
    intro h' held
    cases held
  have finds := finds_updated (c := stall) (h := customers) rfl unkept rfl
    (show some "kind" ≠ some "_id" by decide)
    (fun same => absurd (show some "kind" = some "_rev" from same) (by decide))
    Shop.site_plain undotted (.inl rfl) served
  obtain ⟨r, go₁, back, path₁, sends₁, ends₁, call₁, arrives₁⟩ : ∃ r go₁ back path₁,
      (findById "Customer" (.str "5") (stall.keep "Customer" customers)).settle (.ok Shop.site) =
        ([], .sending r go₁) ∧
      (go₁ (.answered christenedFound)).settle (.ok Shop.site) =
        ([], .finished (.ok ⟨.ok (some back), stall.keep "Customer" customers⟩)) ∧
      r.call = .get "shop" "5" ∧
      r.exchange (.answered christenedFound) = .answered path₁ christenedFound :=
    ⟨_, _, _, _, rfl, rfl, rfl, rfl⟩
  have answers : (market.put ⟨"shop", "5"⟩ christened "2-c").Answers Shop.site r
      (.answered christenedFound) := by
    intro db name get _
    cases call₁.symm.trans get
    refine ⟨christenedFound, path₁, ?_, arrives₁⟩
    rw [call₁]
    refine .found rfl rfl ⟨_, rfl, ⟨by simp [christened, Entries.set, Entries.keys], rfl⟩, ?_⟩
    rw [← Write.kept_eq_set rfl]
    simp [Documents.put]
  obtain ⟨_, _, same, alike⟩ := (finds.of_sending sends₁ _ answers).of_finished ends₁
  cases same
  exact ⟨_, _, r, go₁, back, served, sends₁, answers, ends₁, alike⟩

/-- The customer whose id is a dot, as sent and as told: the look-up was answered with the
database. -/
def dotted : Fields :=
  [("db_name", .str "shop"), ("name", .str "x"), ("_id", .str "."), ("kind", .str "Customer")]

def dottedData : Fields :=
  [("db_name", .str "shop"), ("name", .str "x"), ("_rev", .str "2-c"), ("id", .str ".")]

def databaseShown : Answer := .showing [("db_name", .str "shop")]

/-- A customer whose id is a dot gets a name and is not found, as the look-up goes to the
database. -/
theorem loses_dotted :
    ∃ qs t q go,
      (updateAttributes "Customer" (.str ".") christening stall).Served (.ok Shop.site)
        (Documents.Stores (fun _ _ => false) Shop.site) market qs t
        (.ok ⟨.ok dottedData, stall.keep "Customer" customers⟩) ∧
      (findById "Customer" (.str ".") (stall.keep "Customer" customers)).settle (.ok Shop.site) =
        ([], .sending q go) ∧
      t.Answers Shop.site q (.answered databaseShown) ∧ q.path = "/shop" ∧
      (go (.answered databaseShown)).settle (.ok Shop.site) =
        ([], .finished (.ok ⟨.ok none, stall.keep "Customer" customers⟩)) := by
  obtain ⟨q, go, q', go', path', sends, sends', ends, call, astray, call', arrives'⟩ :
      ∃ q go q' go' path',
        (updateAttributes "Customer" (.str ".") christening stall).settle (.ok Shop.site) =
          ([], .sending q go) ∧
        (go (.answered databaseShown)).settle (.ok Shop.site) = ([], .sending q' go') ∧
        (go' (.answered (.taking "." "2-c"))).settle (.ok Shop.site) =
          ([], .finished (.ok ⟨.ok dottedData, stall.keep "Customer" customers⟩)) ∧
        q.call = .get "shop" "." ∧ q.url.path = "/shop".toList ∧
        q'.call = .insert "shop" dotted ∧
        q'.exchange (.answered (.taking "." "2-c")) = .answered path' (.taking "." "2-c") :=
    ⟨_, _, _, _, _, rfl, rfl, rfl, rfl, rfl, rfl, rfl⟩
  have off : "/shop".toList ≠ Shop.site.documentPath "shop" "." := by decide
  have free : market.revision? ⟨"shop", "."⟩ = none := by simp [Documents.revision?, market]
  have posted := stores_taking (s := market) (fun _ _ => false) Shop.site call' rfl free.symm
    (by simp [market]) arrives'
  have served := Program.Served.told sends (.elsewhere call (astray ▸ off))
    (.told sends' posted (.ended ends))
  obtain ⟨r, go₁, sends₁, ends₁, call₁, astray₁, path₁⟩ : ∃ r go₁,
      (findById "Customer" (.str ".") (stall.keep "Customer" customers)).settle (.ok Shop.site) =
        ([], .sending r go₁) ∧
      (go₁ (.answered databaseShown)).settle (.ok Shop.site) =
        ([], .finished (.ok ⟨.ok none, stall.keep "Customer" customers⟩)) ∧
      r.call = .get "shop" "." ∧ r.url.path = "/shop".toList ∧ r.path = "/shop" :=
    ⟨_, _, rfl, rfl, rfl, rfl, rfl⟩
  refine ⟨_, _, r, go₁, served, sends₁, ?_, path₁, ends₁⟩
  intro db name get own
  cases call₁.symm.trans get
  exact absurd (astray₁.symm.trans own) off

end Stall

end Client

end ModelStore
