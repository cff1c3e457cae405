import ModelStore.Proofs.Mapper
import ModelStore.Proofs.Store.Posting

/-! Replacements among other programs that write. A replacement sends one document and reads
nothing before; how it ends is settled by what became of that document. -/

namespace ModelStore.Write

variable {start s : Documents} {permit : Attempt → Prop} {h : Handle} {id data : Value}

def replacement (h : Handle) (id data : Value) : Except Fault Fields := do
  let fields ← Mapper.plainData data
  (Mapper.ofHandle h).toDoc (.object (Entries.set fields h.idName (.str id.text)))

/-- A replacement ends well only if its write was accepted, and a refused write ends it with a
fault of its own kind. -/
def Settles {α : Type} (ws : List Attempt) (r : Except Fault α) : Prop :=
  (∀ a, r = .ok a → ∃ w ∈ ws, w.accepted = true) ∧
    ∀ w ∈ ws, w.accepted = false → ∃ f, r = .error (.http f) ∧ f.kind = .stale

theorem settles_of_accepted {α : Type} {w : Attempt} (accepted : w.accepted = true)
    (r : Except Fault α) : Settles [w] r := by
  refine ⟨fun a _ => ⟨w, by simp, accepted⟩, fun w' mem refused => ?_⟩
  rw [List.mem_singleton.1 mem, accepted] at refused
  cases refused

theorem settles_of_unsent {α : Type} (f : Fault) : Settles [] (.error f : Except Fault α) :=
  ⟨nofun, nofun⟩

theorem Settles.map {α β : Type} {ws : List Attempt} {r : Except Fault α} (f : α → β)
    (h : Settles ws r) : Settles ws (r.map f) := by
  cases r with
  | ok a =>
    refine ⟨fun b _ => h.1 a rfl, fun w mem refused => ?_⟩
    obtain ⟨e, same, -⟩ := h.2 w mem refused
    cases same
  | error e =>
    refine ⟨nofun, fun w mem refused => ?_⟩
    obtain ⟨e', same, kind⟩ := h.2 w mem refused
    cases same
    exact ⟨e', rfl, kind⟩

theorem safe_replace (allowed : ∀ (w : Attempt) doc id', replacement h id data = .ok doc →
      Entries.get? doc "_id" = some (.str id') → w.doc = doc →
      w.place = some ⟨h.database, id'⟩ → permit w) :
    Program.Safe start permit (fun _ ws r => Settles ws r) (replace h id data) s [] := by
  refine Program.safe_ofExcept_bind (fun fields plain => ?_) fun e _ => settles_of_unsent e
  refine Program.safe_ofExcept_bind (fun doc made => ?_) fun e _ => settles_of_unsent e
  obtain ⟨id', named⟩ := Mapper.exists_id made (Entries.get?_set_self _ _ _) rfl
  have whole : replacement h id data = .ok doc := by
    rw [replacement, plain]
    exact made
  have posted : Program.Safe start permit (fun _ ws r => (ws = [] ∧ ∃ f, r = .error f) ∨
      ∃ w, ws = [w] ∧ w.place.isSome ∧ w.Posted .stale r) (post h doc .stale "") s [] := by
    refine safe_post rfl ?_ ?_
    · intro t coded w u _ form write
      rw [Mapper.toDoc_coded made form] at write
      have place := write.place_eq named
      refine ⟨allowed w doc id' whole named write.doc_eq place, fun r told => .inr ?_⟩
      exact ⟨w, rfl, by rw [place]; rfl, told⟩
    · exact fun t f _ _ => .inl ⟨rfl, f, rfl⟩
  refine posted.bind (fun t ws answer known => ?_) fun t ws e known => ?_
  · rcases known with ⟨-, f, same⟩ | ⟨w, rfl, -, told⟩
    · cases same
    have accepted : w.accepted = true := by
      cases refused : w.accepted with
      | true => rfl
      | false =>
        obtain ⟨f, same⟩ := told.refused refused
        cases same
    refine Program.safe_ofExcept_bind (fun stored _ => ?_) fun e _ => settles_of_accepted accepted _
    have readBack : Program.Safe start permit (fun _ ws _ => ws = [w])
        (Program.request (.get h.database stored)) t [w] := by
      intro t' later
      refine ⟨fun f _ => rfl, fun coded a new u form served => ?_⟩
      cases form
      cases served <;> exact ⟨by simp, fun path => rfl⟩
    refine readBack.bind (fun t ws found same => ?_) fun t ws e same => ?_
    · rw [same]
      exact settles_of_accepted accepted _
    · rw [same]
      exact settles_of_accepted accepted _
  · rcases known with ⟨rfl, f, -⟩ | ⟨w, rfl, placed, told⟩
    · exact settles_of_unsent e
    · cases accepted : w.accepted with
      | true => exact settles_of_accepted accepted _
      | false =>
        obtain ⟨f, same, kind⟩ := told.stale accepted placed
        cases same
        exact ⟨nofun, fun w' _ _ => ⟨f, rfl, kind⟩⟩

end ModelStore.Write
