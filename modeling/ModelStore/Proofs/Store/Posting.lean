import ModelStore.Proofs.Store.Safety
import ModelStore.Store.Write

/-! Single calls among other programs that write: the document of an id is read, or a document
is sent. A write that the store refuses for its revision is told as a fault of the kind its
caller has for that; only a read can end with a failed look-up. -/

namespace ModelStore

variable {start s t : Documents} {ws : List Attempt} {permit : Attempt → Prop} {h : Handle}

/-- A fault with its error status told in other words. -/
def Fault.retold (f : HttpFault → HttpFault) : Fault → Fault
  | .http e => .http (f e)
  | e => e

namespace Program

variable {α : Type} {goal : Documents → List Attempt → Except Fault α → Prop}

theorem safe_retell {p : Program α} {f : HttpFault → HttpFault}
    (safe : Safe start permit (fun t ws r => goal t ws (r.mapError (Fault.retold f))) p s ws) :
    Safe start permit goal (p.retell f) s ws := by
  refine safe_andThen.2 (safe.mono fun t ws r known => ?_)
  cases r with
  | ok a => exact known
  | error e => cases e <;> exact known

end Program

structure Attempt.Posted (w : Attempt) (kind : HttpKind) (r : Except Fault Value) : Prop where
  refused : w.accepted = false → ∃ f, r = .error f
  stale : w.accepted = false → w.place.isSome → ∃ f, r = .error (.http f) ∧ f.kind = kind
  kept : w.accepted = true → ∀ f, r = .error f → f.isNotFound = false

namespace Write

def telling (h : Handle) (doc : Fields) (kind : HttpKind) (suffix : String) (f : HttpFault) :
    HttpFault :=
  if f.kind.isConflict then
    f.withContext (some h.name) (Value.ofOption (Entries.get? doc "_id")) (some kind) suffix
  else f

variable {doc : Fields} {kind : HttpKind} {suffix : String}

theorem isNotFound_telling (conflict : kind.isConflict = true) {f : Fault}
    (other : f.isNotFound = false) :
    (f.retold (telling h doc kind suffix)).isNotFound = false := by
  cases f with
  | http e =>
    show decide ((telling h doc kind suffix e).kind = .notFound) = false
    unfold telling
    split
    · cases kind <;> first | rfl | cases conflict
    · exact other
  | _ => exact other

theorem posted_of_answered (conflict : kind.isConflict = true) {w : Attempt} {a : Answer}
    (told : w.Answered a) (c : Call) (path : String) :
    w.Posted kind (((Exchange.answered path a).value c).mapError
      (Fault.retold (telling h doc kind suffix))) := by
  unfold Attempt.Answered at told
  cases accepted : w.accepted with
  | true =>
    rw [accepted, if_pos rfl] at told
    refine ⟨fun no => by simp [accepted] at no, fun no => by simp [accepted] at no, ?_⟩
    intro _ f fault
    cases value : (Exchange.answered path a).value c with
    | ok v =>
      rw [value] at fault
      cases fault
    | error e =>
      rw [value] at fault
      cases fault
      exact isNotFound_telling conflict (Exchange.isNotFound_of_value told value)
  | false =>
    rw [accepted, if_neg Bool.false_ne_true] at told
    have failed : a.isError = true := by
      split at told
      · simp [Answer.isError, told.1]
      · exact told
    rw [Exchange.value_of_failed failed]
    refine ⟨fun _ => ⟨_, rfl⟩, fun _ placed => ?_, fun yes => by simp [accepted] at yes⟩
    rw [if_pos placed] at told
    have failure : a.failure c.method path = .http (a.fault c.method path) := by
      unfold Answer.failure
      split
      · exact absurd ‹_› told.2
      · rfl
    rw [failure]
    refine ⟨telling h doc kind suffix (a.fault c.method path), rfl, ?_⟩
    have kind_ : (a.fault c.method path).kind = .conflict := by simp [Answer.fault, told.1]; rfl
    simp [telling, kind_, HttpKind.isConflict, HttpFault.withContext]

/-- A document that is sent reaches the store, or something other than a look-up fails. -/
theorem safe_post {goal : Documents → List Attempt → Except Fault Value → Prop}
    (conflict : kind.isConflict = true)
    (sent : ∀ t coded w u, s.Evolves t → Json.encodeFields doc = .ok coded →
      t.Writes h.database coded w u → permit w ∧ ∀ r, w.Posted kind r → goal u (ws ++ [w]) r)
    (unsent : ∀ t f, s.Evolves t → f.isNotFound = false → goal t ws (.error f)) :
    Program.Safe start permit goal (post h doc kind suffix) s ws := by
  refine Program.safe_retell (f := telling h doc kind suffix) fun t later => ⟨?_, ?_⟩
  · intro f other
    exact unsent t _ later (isNotFound_telling conflict other)
  · intro coded a new u form served
    obtain ⟨fields, encoded, rfl⟩ := Except.map_eq_ok.1 form
    cases served with
    | @wrote _ _ _ w _ write told =>
      obtain ⟨permitted, next⟩ := sent t fields w u later (Except.mapError_eq_ok.1 encoded) write
      refine ⟨by simpa using permitted, fun path => next _ ?_⟩
      exact posted_of_answered conflict told _ path

variable {id : Value}

theorem safe_current {goal : Documents → List Attempt → Except Fault Value → Prop}
    (found : ∀ t fields, s.Evolves t → Json.Table fields →
      t.current ⟨h.database, id.text⟩ = some (Entries.get? fields) →
        goal t ws (.ok (.object fields)))
    (missing : ∀ t f, s.Evolves t → t.current ⟨h.database, id.text⟩ = none →
      goal t ws (.error f))
    (other : ∀ t f, s.Evolves t → f.isNotFound = false → goal t ws (.error f)) :
    Program.Safe start permit goal (current h id) s ws := by
  refine Program.safe_retell (f := fun f => if f.kind = .notFound then _ else f) fun t later =>
    ⟨?_, ?_⟩
  · intro f unlike
    refine other t _ later ?_
    cases f with
    | http e =>
      have kind : e.kind ≠ .notFound := by simpa [Fault.isNotFound] using unlike
      simpa [Fault.retold, kind] using unlike
    | _ => exact unlike
  · intro coded a new u form served
    cases form
    cases served with
    | @found _ _ _ v sound body shown =>
      obtain ⟨fields, rfl, table, here⟩ := shown
      refine ⟨by simp, fun path => ?_⟩
      rw [List.append_nil]
      show goal t ws (((Exchange.answered path a).value _).mapError _)
      rw [Exchange.value_of_body sound body]
      exact found t fields later table here
    | missing absent status =>
      have failed : a.isError = true := by simp [Answer.isError, status]
      refine ⟨by simp, fun path => ?_⟩
      rw [List.append_nil]
      show goal t ws (((Exchange.answered path a).value _).mapError _)
      rw [Exchange.value_of_failed failed]
      exact missing t _ later absent

end Write

end ModelStore
