import ModelStore.Proofs.Selector.Matching
import ModelStore.Proofs.Store.Addressing
import ModelStore.Proofs.Store.Safety
import Mathlib.Logic.Relation

/-! A program that has a store to itself. The store finds for a query what its selector asks
for, deletes a document at its current revision only, and may fail at any time; what it
answers may be lost on the way, or an error may come in its place. What holds of the
documents from the start on is kept if every call that the program comes to keeps it. -/

namespace ModelStore

open Selector (Search meets)

namespace Documents

def drop (s : Documents) (p : Place) : Documents where
  current q := if q = p then none else s.current q
  issued := s.issued

/-- An answer to a query has only documents that the query's selector asks for. -/
def Matched (search : Search) (c : Call) (a : Answer) : Prop :=
  ∀ db query fields docs, c = .find db query → a.body = .ok (.object fields) →
    Entries.get? fields "docs" = some (.array docs) → ∀ d ∈ docs, ∃ selector doc,
      Entries.get? query "selector" = some (.object selector) ∧ d = .object doc ∧
        meets search selector doc = true

/-- What a store may answer to a call, and the documents afterwards. -/
inductive Performs (search : Search) (s : Documents) : Call → Answer → Documents → Prop where
  | served {c : Call} {a : Answer} {ws : List Attempt} {t : Documents}
      (served : s.Serves c a ws t) (matched : Matched search c a) : Performs search s c a t
  | deleted {db id : String} {rev : Value} {a : Answer}
      (current : s.revision? ⟨db, id⟩ = some rev) (sound : a.isError = false) :
      Performs search s (.delete db id rev) a (s.drop ⟨db, id⟩)
  | failed {c : Call} {a : Answer} (failed : a.isError = true) : Performs search s c a s

variable {search : Search} {s t : Documents} {c : Call} {a : Answer}

theorem drop_sound (sound : s.Sound) (p : Place) : (s.drop p).Sound := by
  have old : ∀ q c, (s.drop p).current q = some c → s.current q = some c := by
    intro q c here
    simp only [drop] at here
    split at here
    · cases here
    · exact here
  exact ⟨fun q c here => sound.named q c (old q c here),
    fun q c here => sound.dated q c (old q c here)⟩

theorem Performs.sound (performs : s.Performs search c a t) (sound : s.Sound) : t.Sound := by
  cases performs with
  | served served matched => exact served.evolves.sound sound
  | deleted current ok => exact drop_sound sound _
  | failed failed => exact sound

/-- A document as a query finds it. -/
def Finds (search : Search) (s : Documents) (db : String) (query : Fields) (d : Value) : Prop :=
  ∃ id v selector doc, s.Shows ⟨db, id⟩ d ∧ Entries.get? query "selector" = some v ∧
    Json.encode v = .ok (.object selector) ∧ d = .object doc ∧ meets search selector doc = true

theorem Finds.of_selector {db : String} {query query' : Fields} {d : Value}
    (found : s.Finds search db query d)
    (same : Entries.get? query "selector" = Entries.get? query' "selector") :
    s.Finds search db query' d := by
  obtain ⟨id, v, selector, doc, shown, asked, rest⟩ := found
  exact ⟨id, v, selector, doc, shown, same ▸ asked, rest⟩

theorem Performs.page {db : String} {query coded fields : Fields} {docs : List Value}
    (performs : s.Performs search (.find db coded) a t)
    (form : Json.encodeFields query = .ok coded) (sound : a.isError = false)
    (body : a.body = .ok (.object fields))
    (page : Entries.get? fields "docs" = some (.array docs)) :
    ∀ d ∈ docs, s.Finds search db query d := by
  intro d mem
  cases performs with
  | failed failed =>
    rw [sound] at failed
    cases failed
  | served served matched =>
    obtain ⟨selector, doc, asked, same, met⟩ := matched db coded fields docs rfl body page d mem
    cases served with
    | unlisted failed =>
      rw [sound] at failed
      cases failed
    | listed _ body' page' shown =>
      rw [body] at body'
      cases body'
      rw [page] at page'
      cases page'
      obtain ⟨id, here⟩ := shown d mem
      obtain ⟨v, given, sent⟩ := Json.of_get?_encodeFields form asked
      exact ⟨id, v, selector, doc, here, given, sent, same, met⟩

end Documents

theorem Exchange.value_eq_ok {x : Exchange} {c : Call} {v : Value} (h : x.value c = .ok v) :
    ∃ path a, x = .answered path a ∧ a.isError = false ∧ a.body = .ok v := by
  obtain ⟨a, accepted, read⟩ := Except.bind_eq_ok.1 h
  cases x with
  | refused f => cases accepted
  | failed f => cases accepted
  | answered path b =>
    simp only [Exchange.accepted] at accepted
    split at accepted
    · cases accepted
    · rename_i sound
      cases accepted
      cases body : a.body with
      | ok w =>
        rw [body] at read
        cases read
        exact ⟨path, a, rfl, by simpa using sound, body⟩
      | error unread =>
        rw [body] at read
        cases unread <;> cases read

namespace Scan

variable {q : Scan} {v : Value} {p : Page}

theorem page_eq_ok (h : q.page v = .ok p) :
    ∃ fields, v = .object fields ∧ Entries.get? fields "docs" = some (.array p.docs) := by
  unfold page at h
  split at h
  · split at h
    · rename_i fields _ docs found
      cases h
      exact ⟨fields, rfl, found⟩
    · cases h
  · cases h

theorem selector_turn (p : Page) :
    Entries.get? (q.turn p).request "selector" = Entries.get? q.request "selector" := by
  show Entries.get? (Entries.erase (Entries.set (Entries.set q.request "limit" q.pageLimit)
    "bookmark" p.bookmark) "skip") "selector" = _
  rw [Entries.get?_erase_ne _ (by decide), Entries.get?_set_ne _ _ (by decide),
    Entries.get?_set_ne _ _ (by decide)]

end Scan

namespace Program

/-- Whatever comes of its calls, a program only makes calls that are permitted, and ends as it
is wanted. What its scans find, they find in documents of which something holds. -/
def Sends {α : Type} (search : Search) (held : Documents → Prop) (permit : Call → Prop)
    (goal : Except Fault α → Prop) : Program α → Prop
  | .done r => goal r
  | .remark _ rest => Sends search held permit goal rest
  | .ask c go => (∀ coded, c.encode = .ok coded → permit coded) ∧
      ∀ x, Sends search held permit goal (go x)
  | .scan q go => ∀ r : Except Fault (List Value),
      (∀ docs, r = .ok docs → ∃ more, docs = q.found ++ more ∧
        ∀ d ∈ more, ∃ s, held s ∧ s.Finds search q.database q.request d) →
      Sends search held permit goal (go r)

variable {α β : Type} {search : Search} {held : Documents → Prop} {permit : Call → Prop}
  {goal : Except Fault α → Prop} {goal' : Except Fault β → Prop}

theorem sends_andThen {p : Program α} {f : Except Fault α → Program β} :
    (p.andThen f).Sends search held permit goal' ↔
      p.Sends search held permit fun r => (f r).Sends search held permit goal' := by
  induction p with
  | done r => rfl
  | remark w rest ih => exact ih
  | ask c go ih => exact and_congr_right fun _ => forall_congr' ih
  | scan q go ih => exact forall_congr' fun r => imp_congr_right fun _ => ih r

theorem Sends.mono {p : Program α} (h : p.Sends search held permit goal)
    {goal' : Except Fault α → Prop} (weaker : ∀ r, goal r → goal' r) :
    p.Sends search held permit goal' := by
  induction p with
  | done r => exact weaker r h
  | remark w rest ih => exact ih h
  | ask c go ih => exact ⟨h.1, fun x => ih x (h.2 x)⟩
  | scan q go ih => exact fun r found => ih r (h r found)

theorem Sends.bind {p : Program α} {f : α → Program β} (h : p.Sends search held permit goal)
    (next : ∀ a, goal (.ok a) → (f a).Sends search held permit goal')
    (fault : ∀ e, goal (.error e) → goal' (.error e)) :
    (p >>= f).Sends search held permit goal' := by
  refine sends_andThen.2 (h.mono fun r known => ?_)
  cases r with
  | ok a => exact next a known
  | error e => exact fault e known

theorem sends_ofExcept_bind {r : Except Fault α} {f : α → Program β}
    (next : ∀ a, r = .ok a → (f a).Sends search held permit goal')
    (fault : ∀ e, r = .error e → goal' (.error e)) :
    (ofExcept r >>= f).Sends search held permit goal' := by
  cases r with
  | ok a => exact next a rfl
  | error e => exact fault e rfl

theorem sends_ofNoted {x : Noted α} :
    (ofNoted x).Sends search held permit goal ↔ goal x.outcome := by
  obtain ⟨warnings, r⟩ := x
  induction warnings with
  | nil => rfl
  | cons w rest ih => exact ih

theorem sends_collect {ps : List (Program α)}
    (each : ∀ p ∈ ps, p.Sends search held permit fun _ => True) :
    (collect ps).Sends search held permit fun _ => True := by
  induction ps with
  | nil => trivial
  | cons p rest ih =>
    obtain ⟨first, others⟩ := List.forall_mem_cons.1 each
    have tried : p.attempt.Sends search held permit fun _ => True :=
      sends_andThen.2 (first.mono fun r _ => trivial)
    exact tried.bind (fun r _ => (ih others).bind (fun rs _ => trivial) fun e _ => trivial)
      fun e _ => trivial

variable {s t : Documents} {a : Answer} {site : Site}

theorem sends_afterPage {q : Scan} {go : Except Fault (List Value) → Program α}
    (h : (Program.scan q go).Sends search held permit goal) (here : held s) (c : Call)
    {query : Fields} (form : Json.encodeFields q.body = .ok query)
    (performs : s.Performs search (.find q.database query) a t) {x : Exchange}
    (told : ∀ path b, x = .answered path b → b.isError = false → b = a) :
    (afterPage q c go x).Sends search held permit goal := by
  cases read : (x.value c).bind q.page with
  | error f =>
    rw [afterPage, Scan.receive, read]
    exact h (.error f) fun docs same => by cases same
  | ok p =>
    have found : ∀ d ∈ p.docs, ∃ s, held s ∧ s.Finds search q.database q.request d := by
      obtain ⟨v, value, paged⟩ := Except.bind_eq_ok.1 read
      obtain ⟨path, b, answered, sound, body⟩ := Exchange.value_eq_ok value
      obtain ⟨fields, rfl, docs⟩ := Scan.page_eq_ok paged
      cases told path b answered sound
      intro d mem
      refine ⟨s, here, (performs.page form sound body docs d mem).of_selector ?_⟩
      exact Entries.get?_set_ne _ _ (by decide)
    rw [afterPage, Scan.receive, read]
    cases last : q.isLast p with
    | true =>
      simp only [last, if_true]
      refine h _ fun docs same => ?_
      cases same
      exact ⟨p.docs, rfl, found⟩
    | false =>
      simp only [last, Bool.false_eq_true, if_false]
      intro r later
      refine h r fun docs same => ?_
      obtain ⟨more, rfl, found'⟩ := later docs same
      refine ⟨p.docs ++ more, List.append_assoc _ _ _, fun d mem => ?_⟩
      rcases List.mem_append.1 mem with mem | mem
      · exact found d mem
      · obtain ⟨s', here', met⟩ := found' d mem
        exact ⟨s', here', met.of_selector (Scan.selector_turn p)⟩

theorem carries_sends : Carries site (Sends search held permit goal) where
  remark _ _ h := h
  refused _ _ f h _ := h.2 (.refused f)
  ended c go h := h (.ok c.found) fun docs same => ⟨[], by cases same; simp, by simp⟩
  unscanned _ _ f h := h (.error f) fun docs same => by cases same

/-- A program whose request has been dealt with goes on as before, and what its calls keep is
kept. -/
theorem Sends.performed {p : Program α} (h : p.Sends search held permit goal) (here : held s)
    (reads : ∀ db query, permit (.find db query))
    (keeps : ∀ s c a t, held s → permit c → s.Performs search c a t → held t)
    {warnings : List Warning} {q : Request} {go : Reply → Program α}
    (sends : p.settle (.ok site) = (warnings, .sending q go))
    (performs : s.Performs search q.call a t) {reply : Reply}
    (told : ∀ path b, q.exchange reply = .answered path b → b.isError = false → b = a) :
    held t ∧ (go reply).Sends search held permit goal := by
  rcases carries_sends.sending h sends with
    ⟨c, next, safe, form, goes⟩ | ⟨c, next, asked, query, safe, form, call, goes⟩
  · rw [goes]
    exact ⟨keeps _ _ _ _ here (safe.1 _ form) performs, safe.2 _⟩
  · rw [call] at performs
    rw [goes]
    exact ⟨keeps _ _ _ _ here (reads _ _) performs,
      sends_afterPage safe here asked form performs told⟩

theorem Sends.looked {p : Program α} (h : p.Sends search held permit goal)
    {warnings : List Warning} {q : Request} {go : Reply → Program α}
    (sends : p.settle (.ok site) = (warnings, .sending q go)) (look : q.call.IsLook)
    (reply : Reply) : (go reply).Sends search held permit goal := by
  rcases carries_sends.sending h sends with
    ⟨c, next, safe, form, goes⟩ | ⟨c, next, asked, query, safe, form, call, goes⟩
  · rw [goes]
    exact safe.2 _
  · rw [call] at look
    cases look

end Program

theorem Request.told_of_exchange {q : Request} {reply : Reply} {path : String} {a : Answer}
    (arrives : q.exchange reply = .answered path a) :
    ∀ path b, q.exchange reply = .answered path b → b.isError = false → b = a := by
  intro path' b same _
  rw [arrives] at same
  cases same
  rfl

structure Session where
  program : Program Unit
  store : Documents

namespace Session

variable {search : Search} {site : Site} {held : Documents → Prop} {permit : Call → Prop}
  {goal : Except Fault Unit → Prop}

/-- The store deals with the request that the program has come to. The reply is what the store
answered, or else it is an error or no answer. A look-up whose path has dot segments goes
elsewhere and may be answered with anything. A deletion with such a path is that of no document,
and there is no step for it. -/
inductive Step (search : Search) (site : Site) (w : Session) : Session → Prop where
  | performed {warnings : List Warning} {q : Request} {go : Reply → Program Unit} {a : Answer}
      {t : Documents} {reply : Reply}
      (sends : w.program.settle (.ok site) = (warnings, .sending q go))
      (undotted : q.call.Undotted) (performs : w.store.Performs search q.call a t)
      (told : ∀ path b, q.exchange reply = .answered path b → b.isError = false → b = a) :
      Step search site w ⟨go reply, t⟩
  | elsewhere {warnings : List Warning} {q : Request} {go : Reply → Program Unit} {reply : Reply}
      (sends : w.program.settle (.ok site) = (warnings, .sending q go)) (look : q.call.IsLook)
      (dotted : ¬q.call.Undotted) : Step search site w ⟨go reply, w.store⟩

theorem Step.answered {w : Session} {warnings : List Warning} {q : Request}
    {go : Reply → Program Unit} {a : Answer} {t : Documents} {reply : Reply} {path : String}
    (sends : w.program.settle (.ok site) = (warnings, .sending q go))
    (undotted : q.call.Undotted) (performs : w.store.Performs search q.call a t)
    (arrives : q.exchange reply = .answered path a) : Step search site w ⟨go reply, t⟩ :=
  .performed sends undotted performs (Request.told_of_exchange arrives)

/-- What the permitted calls keep holds of the documents at any time. -/
theorem held_of_run (reads : ∀ db query, permit (.find db query))
    (keeps : ∀ s c a t, held s → permit c → s.Performs search c a t → held t) {v w : Session}
    (safe : v.program.Sends search held permit goal) (here : held v.store)
    (run : Relation.ReflTransGen (Step search site) v w) :
    held w.store ∧ w.program.Sends search held permit goal := by
  induction run with
  | refl => exact ⟨here, safe⟩
  | tail _ step ih =>
    obtain ⟨here, safe⟩ := ih
    cases step with
    | performed sends _ performs told => exact safe.performed here reads keeps sends performs told
    | elsewhere sends look _ => exact ⟨here, safe.looked sends look _⟩

end Session

end ModelStore
