import ModelStore.Proofs.Store.Posting
import ModelStore.Proofs.Store.Serving
import ModelStore.Proofs.Store.Sessions

/-! Runs of programs on a store with documents. It serves one request after the other, and an
answer that arrives without an error is the store's own. What is known of a program's calls,
whatever comes of them, is then known of what it has sent and of the documents at the end. -/

namespace ModelStore

open Selector (Search)

/-- How a store with documents serves a request: the reply is what the store answered, or else it
is an error or no answer. -/
def Documents.Replies (search : Search) (s : Documents) (q : Request) (reply : Reply)
    (t : Documents) : Prop :=
  ∃ a, s.Performs search q.call a t ∧
    ∀ path b, q.exchange reply = .answered path b → b.isError = false → b = a

/-- How it serves the requests that go to the paths of their documents. One whose path has dot
segments goes elsewhere, and is not served. -/
def Documents.Reached (search : Search) (s : Documents) (q : Request) (reply : Reply)
    (t : Documents) : Prop :=
  q.call.Undotted ∧ s.Replies search q reply t

def Call.IsFind : Call → Prop
  | .find _ _ => True
  | _ => False

theorem Documents.Replies.of_answered {search : Search} {s t : Documents} {q : Request} {a : Answer}
    {path : String} {reply : Reply} (performs : s.Performs search q.call a t)
    (arrives : q.exchange reply = .answered path a) : s.Replies search q reply t :=
  ⟨a, performs, Request.told_of_exchange arrives⟩

namespace Documents

variable {search : Search} {s t : Documents} {a : Answer} {c : Call}

theorem Performs.of_find (performs : s.Performs search c a t) (find : c.IsFind) : t = s := by
  cases performs with
  | served served matched => cases served <;> first | rfl | cases find
  | deleted current sound => cases find
  | failed failed => rfl

theorem Performs.of_get {db id : String} (performs : s.Performs search (.get db id) a t) :
    t = s ∧ ∀ v, a.isError = false → a.body = .ok v → s.Shows ⟨db, id⟩ v := by
  cases performs with
  | failed failed =>
    refine ⟨rfl, fun v sound _ => ?_⟩
    rw [sound] at failed
    cases failed
  | served served matched =>
    cases served with
    | found _ body shown =>
      refine ⟨rfl, fun v _ body' => ?_⟩
      cases body'.symm.trans body
      exact shown
    | missing absent status =>
      refine ⟨rfl, fun v sound _ => ?_⟩
      simp [Answer.isError, status] at sound

/-- An insert for an id that is accepted was sent under the current revision, and the document is
kept under a new one. -/
theorem Performs.of_insert {db id : String} {doc : Fields}
    (performs : s.Performs search (.insert db doc) a t) (sound : a.isError = false)
    (named : Entries.get? doc "_id" = some (.str id)) :
    Entries.get? doc "_rev" = s.revision? ⟨db, id⟩ ∧
      ∃ rev, t.current ⟨db, id⟩ = some (kept doc id rev) := by
  cases performs with
  | failed failed =>
    rw [sound] at failed
    cases failed
  | served served matched =>
    cases served with
    | wrote write answers =>
      cases write with
      | @put id' rev named' current fresh =>
        cases named.symm.trans named'
        exact ⟨current, rev, by simp [put]⟩
      | conflict named' stale =>
        have refused : a.status = 409 ∧ a.body ≠ .error .tooDeep := answers
        simp [Answer.isError, refused.1] at sound
      | created unnamed undated free fresh =>
        rw [unnamed] at named
        cases named
      | improper unnamed given => exact absurd named (unnamed id)

end Documents

namespace Program

variable {α : Type} {search : Search} {held : Documents → Prop} {permit : Call → Prop}
  {goal : Except Fault α → Prop} {site : Site} {s t : Documents} {qs : List Request}

theorem served_reached_iff {p : Program α} {r : Except Fault α} :
    p.Served (.ok site) (Documents.Reached search) s qs t r ↔
      (∀ q ∈ qs, q.call.Undotted) ∧ p.Served (.ok site) (Documents.Replies search) s qs t r :=
  served_and_iff

theorem Sends.permitted {p : Program α} (h : p.Sends search held permit goal)
    (reads : ∀ db query, permit (.find db query)) {ws : List Warning} {q : Request}
    {go : Reply → Program α} (sends : p.settle (.ok site) = (ws, .sending q go)) :
    permit q.call := by
  rcases carries_sends.sending h sends with
    ⟨c, next, safe, form, -⟩ | ⟨c, next, asked, query, -, -, call, -⟩
  · exact safe.1 _ form
  · exact call ▸ reads _ _

/-- What a program sends and ends with, and the documents then, when a store with documents serves
it. -/
theorem Sends.served {p : Program α} (h : p.Sends search held permit goal) (here : held s)
    (reads : ∀ db query, permit (.find db query))
    (keeps : ∀ s c a t, held s → permit c → s.Performs search c a t → held t)
    {r : Except Fault α} (served : p.Served (.ok site) (Documents.Replies search) s qs t r) :
    goal r ∧ held t ∧ ∀ q ∈ qs, permit q.call := by
  induction served with
  | ended ends => exact ⟨carries_sends.finished h ends, here, nofun⟩
  | told sends serve rest ih =>
    obtain ⟨a, performs, told⟩ := serve
    obtain ⟨held', h'⟩ := h.performed here reads keeps sends performs told
    obtain ⟨good, there, later⟩ := ih h' held'
    exact ⟨good, there, List.forall_mem_cons.2 ⟨h.permitted reads sends, later⟩⟩

theorem Sends.searched {p : Program α} (h : p.Sends search (· = s) Call.IsFind goal)
    {r : Except Fault α} (served : p.Served (.ok site) (Documents.Replies search) s qs t r) :
    goal r ∧ t = s ∧ ∀ q ∈ qs, q.call.IsFind :=
  h.served rfl (fun _ _ => trivial) (fun s' c a t' same find performs => by
    rw [performs.of_find find, same]) served

theorem Served.sound {p : Program α} {r : Except Fault α}
    (served : p.Served (.ok site) (Documents.Replies search) s qs t r) (sound : s.Sound) :
    t.Sound := by
  induction served with
  | ended ends => exact sound
  | told sends serve rest ih =>
    obtain ⟨a, performs, -⟩ := serve
    exact ih (performs.sound sound)

theorem Served.of_get {db id : String} {r : Except Fault Value}
    (served : (request (.get db id)).Served (.ok site) (Documents.Replies search) s qs t r) :
    (∀ q ∈ qs, q.call = .get db id) ∧ t = s ∧ ∀ v, r = .ok v → s.Shows ⟨db, id⟩ v := by
  rcases of_ask served with ⟨f, -, rest⟩ | ⟨q, reply, u, later, sent, rfl, serve, rest⟩
  · obtain ⟨rfl, rfl, rfl⟩ := of_done rest
    exact ⟨nofun, rfl, nofun⟩
  · obtain ⟨a, performs, told⟩ := serve
    obtain ⟨rfl, rfl, rfl⟩ := of_done rest
    have call : Call.get db id = q.call := Except.ok.inj (Site.request_ok sent)
    rw [← call] at performs
    refine ⟨List.forall_mem_singleton.2 call.symm, performs.of_get.1, fun v same => ?_⟩
    obtain ⟨path, b, answered, sound, body⟩ := Exchange.value_eq_ok same
    cases told path b answered sound
    exact performs.of_get.2 v sound body

section Retelling

variable {σ : Type} {outset : Except Fault Site} {serves : σ → Request → Reply → σ → Prop} {a b : σ}
  {p : Program α} {f : HttpFault → HttpFault}

theorem Served.of_retell {r : Except Fault α}
    (served : (p.retell f).Served outset serves a qs b r) :
    ∃ r', p.Served outset serves a qs b r' ∧ r = r'.mapError (Fault.retold f) := by
  obtain ⟨first, later, c, r', rfl, ran, told⟩ := served.of_andThen
  have same : later = [] ∧ b = c ∧ r = r'.mapError (Fault.retold f) := by
    cases r' with
    | ok x => exact told.of_done
    | error e => cases e <;> exact told.of_done
  obtain ⟨rfl, rfl, same⟩ := same
  exact ⟨r', (List.append_nil first).symm ▸ ran, same⟩

theorem Served.of_retell_ok {x : α} (served : (p.retell f).Served outset serves a qs b (.ok x)) :
    p.Served outset serves a qs b (.ok x) := by
  obtain ⟨r, ran, same⟩ := served.of_retell
  exact Except.mapError_eq_ok.1 same.symm ▸ ran

end Retelling

end Program

end ModelStore
