import ModelStore.Index.Candidate
import ModelStore.Proofs.Json.Encoding
import ModelStore.Store.Call

/-! The indexes that a model wants. There is always an answer to which they are: one for each
name, in a design document that is named after it. -/

namespace ModelStore

theorem Entries.nodup_foldl_set {α β : Type} (key : β → String) (value : β → α) (items : List β)
    {entries : Entries α} (distinct : (keys entries).Nodup) :
    (keys (items.foldl (fun acc b => set acc (key b) (value b)) entries)).Nodup := by
  induction items generalizing entries with
  | nil => exact distinct
  | cons b rest ih => exact ih (nodup_set distinct (key b) (value b))

theorem Noted.outcome_mapM {α β : Type} {f : α → Noted β} {g : α → β}
    (each : ∀ a, (f a).outcome = .ok (g a)) (items : List α) :
    (items.mapM f).outcome = .ok (items.map g) := by
  induction items with
  | nil => rfl
  | cons a rest ih =>
    rw [List.mapM_cons, Noted.bind_eq_ok]
    exact ⟨g a, each a, Noted.bind_eq_ok.2 ⟨rest.map g, ih, rfl⟩⟩

namespace IndexField

theorem ofValue_toValue (f : IndexField) : ofValue f.toValue = .ok f := by
  simp only [ofValue, toValue, ofNamed, Value.str?, Option.bind_some, Direction.ofName?_name]

theorem mapM_ofValue (fields : List IndexField) :
    (fields.map toValue).mapM ofValue = .ok fields := by
  induction fields with
  | nil => rfl
  | cons f rest ih =>
    rw [List.map_cons, List.mapM_cons, ofValue_toValue, ih]
    rfl

theorem encode_toValue (f : IndexField) : Json.encode f.toValue = .ok f.toValue := rfl

end IndexField

/-- The id of the design document in which a model keeps its index of this name. -/
def Handle.indexDesign (h : Handle) (name : String) : String :=
  designPrefix ++ Naming.default.designName h.name name

theorem Handle.indexDesign_inj {h : Handle} {name other : String} :
    h.indexDesign name = h.indexDesign other ↔ name = other := by
  rw [indexDesign, indexDesign, String.append_right_inj, Naming.designName, Naming.designName,
    String.append_right_inj]

namespace Candidate

theorem encode_toRequest (db : String) (c : Candidate) :
    (Call.createIndex db c.toRequest).encode = .ok (.createIndex db c.toRequest) := by
  have fields : Json.encodeItems (c.fields.map IndexField.toValue) =
      .ok (c.fields.map IndexField.toValue) := by
    induction c.fields with
    | nil => rfl
    | cons f rest ih =>
      exact Json.encodeItems_cons.2 ⟨_, _, f.encode_toValue, ih, rfl⟩
  have form : Json.encodeFields c.toRequest = .ok c.toRequest := by
    simp only [toRequest, Json.encodeFields, Json.encode, fields]
    rfl
  simp only [Call.encode, Call.encodeFields, form, Except.mapError_ok]
  rfl

theorem nodup_wanted (d : ModelDefinition) (discriminator : Option String) :
    (Entries.keys (wanted d discriminator)).Nodup := by
  have properties : (Entries.keys (d.indexedProperties.foldl
      (fun acc p => Entries.set acc (propertyIndex p) [IndexField.ascending p])
      ([] : Entries (List IndexField)))).Nodup :=
    Entries.nodup_foldl_set propertyIndex (fun p => [IndexField.ascending p]) _
      (by simp [Entries.keys])
  unfold wanted
  refine Entries.nodup_foldl_set Prod.fst (fun e => ofDeclaration e.2) _ ?_
  split
  · exact properties
  · split
    · exact properties
    · exact Entries.nodup_set properties _ _

def ofWanted (h : Handle) (e : String × List IndexField) : Candidate :=
  ⟨e.1, IndexField.append h.discriminator (IndexField.aligned e.2),
    Naming.default.designName h.name e.1⟩

end Candidate

namespace Handle

def candidates (h : Handle) : Entries Candidate :=
  (Candidate.wanted h.definition h.discriminator).map fun e => (e.1, Candidate.ofWanted h e)

variable {h : Handle} {name : String} {c : Candidate}

theorem outcome_all (h : Handle) :
    (Candidate.all Naming.default h.definition h.discriminator).outcome = .ok h.candidates :=
  Noted.outcome_mapM (fun e => Noted.bind_eq_ok.2 ⟨Candidate.ofWanted h e, rfl, rfl⟩) _

theorem nodup_candidates (h : Handle) : (Entries.keys h.candidates).Nodup := by
  have keys : Entries.keys h.candidates =
      Entries.keys (Candidate.wanted h.definition h.discriminator) := by
    simp [candidates, Entries.keys, Function.comp_def]
  rw [keys]
  exact Candidate.nodup_wanted h.definition h.discriminator

theorem of_mem_candidates (mem : (name, c) ∈ h.candidates) :
    c.name = name ∧ c.designId = h.indexDesign name := by
  obtain ⟨e, -, same⟩ := List.mem_map.1 mem
  cases same
  exact ⟨rfl, rfl⟩

theorem get?_candidates (mem : (name, c) ∈ h.candidates) :
    Entries.get? h.candidates name = some c :=
  Entries.get?_of_mem h.nodup_candidates mem

end Handle

end ModelStore
