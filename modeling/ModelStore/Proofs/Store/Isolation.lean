import ModelStore.Proofs.Store.Concurrency
import ModelStore.Proofs.Store.Ownership

/-! Writes of a model among the documents of others. A document that does not carry the name of
the model stays as it is, whatever the model's calls come to. An update goes by the id alone
and does not ask whose document it is; a patch can bring in the `_id` of another document,
but also has to meet its revision. A deletion of a document whose id is a dot segment goes to the
database, and is left out. -/

namespace ModelStore

open Selector (Search isDotted isOperator)

inductive Mutation where
  | create (data : Value)
  | write (op : Operation)
  | bulkReplace (data : Value)
  | destroy (pageSize : Nat) (id : Value)
  | destroyAll (pageSize : Nat) (limit : Option Nat) (filter : Value)

namespace Handle

/-- The mark of the model is not read as the name of a field: it has dots, or a dollar sign in
front. -/
def Misread (h : Handle) : Prop :=
  ∃ mark, h.mark? = some mark ∧ (isDotted mark = true ∨ isOperator mark = true)

/-- A patch that moves documents to a place, by an `_id` that is not the id of the model. -/
def Moves (h : Handle) (p : Place) (data : Value) : Prop :=
  ∃ source v, Mapper.plainData data = .ok source ∧ ("_id", v) ∈ source ∧ h.idName ≠ "_id" ∧
    v.stored = .str p.id ∧ h.database = p.database

end Handle

theorem Program.Makes.void {α : Type} {search : Search} {held : Documents → Prop}
    {permit : Call → Prop} {p : Program α} (makes : p.Makes search held permit) :
    p.void.Makes search held permit :=
  makes.andThen fun _ => trivial

namespace Mutation

open Shop (customers)

def program (h : Handle) : Mutation → Program Unit
  | create data => (Write.create h data).void
  | write op => op.program h
  | bulkReplace data => (Bulk.replace h data).void
  | destroy pageSize id => (Remove.one pageSize h id).void
  | destroyAll pageSize limit filter => (Remove.all pageSize limit h filter).void

def Brings (fields : Fields) : Mutation → Prop
  | create data => Mapper.plainData data = .ok fields
  | write op => Mapper.plainData op.data = .ok fields
  | bulkReplace data => ∃ items item, data.members = .ok items ∧ item ∈ items ∧
      Mapper.plainData item = .ok fields
  | destroy _ _ => False
  | destroyAll _ _ _ => False

def Undated (h : Handle) (op : Mutation) : Prop := ∀ fields, op.Brings fields → h.Undated fields

/-- Whether a call can reach the document of a place without being the model's. An update of
one document is addressed to it; an update of many moves there a document of the model
with the same revision, or it goes by a selector that cannot be relied on. -/
def Reaches (h : Handle) (s : Documents) (p : Place) (c : Content) : Mutation → Prop
  | write (.updateAttributes id _) => p = ⟨h.database, id.text⟩
  | write (.updateOrCreate data) => ∃ fields, Mapper.plainData data = .ok fields ∧
      (Save.idOf h fields).isNull = false ∧ p = ⟨h.database, (Save.idOf h fields).text⟩
  | write (.updateAll _ _ data) => h.Misread ∨ h.Moves p data ∧
      ∃ id own, s.current ⟨h.database, id⟩ = some own ∧ h.Owns own ∧ own "_rev" = c "_rev"
  | destroy _ _ => h.Misread
  | destroyAll _ _ _ => h.Misread
  | _ => False

variable {search : Search} {h : Handle} {mark : String} {p : Place} {c : Content} {s : Documents}

theorem readable_of_not_misread (marked : h.mark? = some mark) (read : ¬h.Misread) :
    isDotted mark = false ∧ isOperator mark = false := by
  constructor
  · cases dotted : isDotted mark with
    | false => rfl
    | true => exact absurd ⟨mark, marked, .inl dotted⟩ read
  · cases operator : isOperator mark with
    | false => rfl
    | true => exact absurd ⟨mark, marked, .inr operator⟩ read

/-- Every call spares a document that is none of the model's and that it does not reach. -/
theorem spares (op : Mutation) (own : h.modelSelector = none) (marked : h.mark? = some mark)
    (undated : op.Undated h) (foreign : h.Foreign p c) (sound : s.Sound)
    (here : s.current p = some c) (apart : ¬op.Reaches h s p c) :
    ∃ aimed, s.Keeping h p c aimed ∧
      (op.program h).Spares search (Documents.Keeping h p c aimed) p c := by
  have keeping : s.Keeping h p c False := ⟨sound, here, nofun⟩
  cases op with
  | create data =>
    exact ⟨False, keeping, Program.Makes.void (Write.spares_create foreign undated)⟩
  | bulkReplace data =>
    refine ⟨False, keeping, Program.Makes.void (Bulk.spares_replace foreign ?_)⟩
    exact fun items item fields given mem plain => undated fields ⟨items, item, given, mem, plain⟩
  | destroy pageSize id =>
    obtain ⟨undotted, field⟩ := readable_of_not_misread marked apart
    exact ⟨False, keeping,
      Program.Makes.void (Remove.spares_one own marked undotted field foreign.other pageSize id)⟩
  | destroyAll pageSize limit filter =>
    obtain ⟨undotted, field⟩ := readable_of_not_misread marked apart
    exact ⟨False, keeping, Program.Makes.void
      (Remove.spares_all own marked undotted field foreign.other pageSize limit filter)⟩
  | write op =>
    cases op with
    | replaceById id data =>
      exact ⟨False, keeping, Program.Makes.void (Write.spares_replace foreign undated)⟩
    | save data => exact ⟨False, keeping, Program.Makes.void (Save.spares_save foreign undated)⟩
    | replaceOrCreate data =>
      exact ⟨False, keeping, Program.Makes.void (Save.spares_replace foreign undated)⟩
    | updateAttributes id data =>
      exact ⟨False, keeping, Program.Makes.void (Write.spares_merge foreign apart)⟩
    | updateOrCreate data =>
      refine ⟨False, keeping, Program.Makes.void (Save.spares_update foreign undated ?_)⟩
      exact fun fields plain given same => apart ⟨fields, plain, given, same⟩
    | updateAll pageSize filter data =>
      obtain ⟨undotted, field⟩ := readable_of_not_misread marked fun misread => apart (.inl misread)
      refine ⟨h.Moves p data, ⟨sound, here, ?_⟩, Program.Makes.void (Bulk.spares_update own marked
        undotted field foreign undated ?_ pageSize filter)⟩
      · exact fun moves id own there owned same =>
          apart (.inr ⟨moves, id, own, there, owned, same⟩)
      · exact fun source v plain mem other text place =>
          ⟨source, v, plain, mem, other, text, place⟩

/-- Writes stay inside their model. Among whatever documents a call of a model is made, and
whatever it is answered, a document that does not carry the name of the model stays as it is
from the first request to the last, unless the call reaches it. -/
theorem stays_inside (h : Handle) {mark : String} (own : h.modelSelector = none)
    (marked : h.mark? = some mark) {s : Documents} (sound : s.Sound) (op : Mutation)
    (undated : op.Undated h) {p : Place} {c : Content} (here : s.current p = some c)
    (other : ¬h.Owns c) (apart : ¬op.Reaches h s p c) {search : Search} {site : Site}
    {w : Session}
    (run : Relation.ReflTransGen (Session.Step search site) ⟨op.program h, s⟩ w) :
    w.store.current p = some c := by
  have dated : ∃ rev, c "_rev" = some (.str rev) := by
    obtain ⟨rev, -, dated⟩ := sound.dated p c here
    exact ⟨rev, dated⟩
  have foreign : h.Foreign p c := ⟨sound.named p c here, dated, other⟩
  obtain ⟨aimed, keeping, spares⟩ : ∃ aimed, s.Keeping h p c aimed ∧
      (op.program h).Spares search (Documents.Keeping h p c aimed) p c :=
    op.spares own marked undated foreign sound here apart
  have kept := Session.held_of_run (v := ⟨op.program h, s⟩) (fun _ _ => trivial)
    (fun _ _ _ _ keeping permit performs => keeping.performs permit performs) spares keeping run
  exact kept.1.here

def customer : Fields :=
  [("_id", .str "5"), ("_rev", .str "1-a"), ("kind", .str "Customer"), ("age", .int 1)]

def order : Fields :=
  [("_id", .str "7"), ("_rev", .str "1-b"), ("kind", .str "Order"), ("total", .int 3)]

def market : Documents where
  current p :=
    if p = ⟨"shop", "5"⟩ then some (Entries.get? customer)
    else if p = ⟨"shop", "7"⟩ then some (Entries.get? order)
    else none
  issued := ["1-a", "1-b"]

theorem market_sound : market.Sound := by
  have each : ∀ p c, market.current p = some c →
      (p = ⟨"shop", "5"⟩ ∧ c = Entries.get? customer) ∨
        (p = ⟨"shop", "7"⟩ ∧ c = Entries.get? order) := by
    intro p c here
    simp only [market] at here
    split at here
    · cases here
      exact .inl ⟨‹_›, rfl⟩
    · split at here
      · cases here
        exact .inr ⟨‹_›, rfl⟩
      · cases here
  constructor
  · intro p c here
    rcases each p c here with ⟨rfl, rfl⟩ | ⟨rfl, rfl⟩ <;> rfl
  · intro p c here
    rcases each p c here with ⟨-, rfl⟩ | ⟨-, rfl⟩
    · exact ⟨"1-a", by simp [market], rfl⟩
    · exact ⟨"1-b", by simp [market], rfl⟩

theorem market_lists {query selector : Fields}
    (asked : Entries.get? query "selector" = some (.object selector))
    (met : Selector.meets search selector customer = true) :
    market.Performs search (.find "shop" query) (.listing [.object customer]) market := by
  refine .served (Documents.serves_listing ?_) ?_
  · exact List.forall_mem_singleton.2
      ⟨"5", customer, rfl, ⟨by simp [customer, Entries.keys], rfl⟩, by simp [market]⟩
  · rintro db query' fields docs ⟨⟩ ⟨⟩ ⟨⟩
    exact List.forall_mem_singleton.2 ⟨selector, customer, asked, rfl, met⟩

theorem market_drops : market.Performs search (.delete "shop" "5" (.str "1-a")) .confirming
    (market.drop ⟨"shop", "5"⟩) :=
  .deleted (by simp [Documents.revision?, market]; rfl) rfl

theorem order_other : ¬customers.Owns (Entries.get? order) := by
  rintro ⟨mark, marked, named⟩
  cases marked
  exact absurd (show some (Value.str "Order") = some (Value.str "Customer") from named) (by simp)

theorem customers_read : ¬customers.Misread := by
  rintro ⟨mark, marked, misread⟩
  cases marked
  exact absurd misread (by decide)

/-- All customers are deleted, and the order is still there. -/
theorem stays_inside_market :
    ∃ w : Session, Relation.ReflTransGen (Session.Step (fun _ _ => false) Shop.site)
        ⟨(destroyAll 10 none (.object [])).program customers, market⟩ w ∧
      w.store.current ⟨"shop", "5"⟩ = none ∧
      w.store.current ⟨"shop", "7"⟩ = some (Entries.get? order) := by
  let query : Fields := [("selector", .object [("kind", .str "Customer")]), ("limit", .int 10)]
  obtain ⟨q, go, q', go', path, path', sends, sends', call, call', arrives, arrives'⟩ :
      ∃ q go q' go' path path',
        ((destroyAll 10 none (.object [])).program customers).settle (.ok Shop.site) =
          ([], .sending q go) ∧
        (go (.answered (.listing [.object customer]))).settle (.ok Shop.site) =
          ([], .sending q' go') ∧
        q.call = .find "shop" query ∧ q'.call = .delete "shop" "5" (.str "1-a") ∧
        q.exchange (.answered (.listing [.object customer])) =
          .answered path (.listing [.object customer]) ∧
        q'.exchange (.answered .confirming) = .answered path' .confirming :=
    ⟨_, _, _, _, _, _, rfl, rfl, rfl, rfl, rfl, rfl⟩
  have found : market.Performs (fun _ _ => false) q.call (.listing [.object customer]) market := by
    rw [call]
    refine market_lists rfl ?_
    rw [Selector.meets_single]
    exact (Selector.carries_iff (by decide)).2 rfl
  have deleted : market.Performs (fun _ _ => false) q'.call .confirming
      (market.drop ⟨"shop", "5"⟩) := by
    rw [call']
    exact market_drops
  have undotted : q'.call.Undotted := by
    rw [call']
    exact (by decide : ¬Path.HasDots "shop" "5")
  have run : Relation.ReflTransGen (Session.Step (fun _ _ => false) Shop.site)
      ⟨(destroyAll 10 none (.object [])).program customers, market⟩
      ⟨go' (.answered .confirming), market.drop ⟨"shop", "5"⟩⟩ :=
    (Relation.ReflTransGen.single (.answered sends (call ▸ trivial) found arrives)).tail
      (.answered sends' undotted deleted arrives')
  refine ⟨_, run, by simp [Documents.drop], ?_⟩
  exact stays_inside customers rfl rfl market_sound (destroyAll 10 none (.object []))
    (fun _ no => no.elim) (by simp [market]) order_other customers_read run

def christen : Mutation := .write (.updateAttributes (.str "7") (.object [("name", .str "x")]))

/-- The order becomes a customer. -/
theorem updateAttributes_crosses :
    ∃ w : Session, market.Sound ∧ customers.modelSelector = none ∧ customers.mark? = some "kind" ∧
      christen.Undated customers ∧ market.current ⟨"shop", "7"⟩ = some (Entries.get? order) ∧
      Entries.get? order "kind" = some (.str "Order") ∧
      Relation.ReflTransGen (Session.Step (fun _ _ => false) Shop.site)
        ⟨christen.program customers, market⟩ w ∧
      w.store.current ⟨"shop", "7"⟩ ≠ some (Entries.get? order) := by
  let doc : Fields := [("_rev", .str "1-b"), ("kind", .str "Customer"), ("total", .int 3),
    ("name", .str "x"), ("_id", .str "7")]
  obtain ⟨q, go, q', go', path, path', sends, sends', call, call', arrives, arrives'⟩ :
      ∃ q go q' go' path path',
        (christen.program customers).settle (.ok Shop.site) = ([], .sending q go) ∧
        (go (.answered (.showing order))).settle (.ok Shop.site) = ([], .sending q' go') ∧
        q.call = .get "shop" "7" ∧ q'.call = .insert "shop" doc ∧
        q.exchange (.answered (.showing order)) = .answered path (.showing order) ∧
        q'.exchange (.answered (.taking "7" "2-c")) = .answered path' (.taking "7" "2-c") :=
    ⟨_, _, _, _, _, _, rfl, rfl, rfl, rfl, rfl, rfl⟩
  have here : market.current ⟨"shop", "7"⟩ = some (Entries.get? order) := by simp [market]
  have read : market.Performs (fun _ _ => false) q.call (.showing order) market := by
    rw [call]
    refine .served (Documents.serves_showing ⟨order, rfl, ⟨by decide, rfl⟩, here⟩) ?_
    exact fun db query fields docs no => nomatch no
  have wrote : market.Performs (fun _ _ => false) q'.call (.taking "7" "2-c")
      (market.put ⟨"shop", "7"⟩ doc "2-c") := by
    rw [call']
    refine .served (Documents.serves_taking rfl ?_ (by simp [market])) ?_
    · rw [Documents.revision?_of_current here]
      rfl
    · exact fun db query fields docs no => nomatch no
  have undated : christen.Undated customers := by
    rintro fields ⟨⟩ - v mem
    simp at mem
  have undotted : q.call.Undotted := by
    rw [call]
    exact (by decide : ¬Path.HasDots "shop" "7")
  refine ⟨_, market_sound, rfl, rfl, undated, here, rfl,
    (Relation.ReflTransGen.single (.answered sends undotted read arrives)).tail
      (.answered sends' (call' ▸ trivial) wrote arrives'), fun same => ?_⟩
  have kind := congrFun (Option.some.inj same) "kind"
  exact absurd (show some (Value.str "Customer") = some (Value.str "Order") from kind) (by simp)

end Mutation

end ModelStore
