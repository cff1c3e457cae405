import ModelStore.Client.Instances
import ModelStore.Proofs.Entries
import ModelStore.Proofs.Noted

/-! Calls about the instances of a model by its name. The handle is found without a request, and
then the call is that for the handle; criteria are read before that. -/

namespace ModelStore

namespace Action

variable {c c' : Client} {h : Handle} {name : String} {α : Type}

theorem handle_cases (name : String) (c : Client) :
    (∃ h c', c'.settings = c.settings ∧ handle name c = pure ⟨.ok h, c'⟩) ∨
      ∃ f, handle name c = pure ⟨.error f, c⟩ := by
  unfold handle
  split
  · rename_i h held
    exact .inl ⟨h, c, rfl, rfl⟩
  · unfold refresh
    split
    · rename_i h known
      exact .inl ⟨h, c.keep name h, rfl, rfl⟩
    · rename_i f unknown
      exact .inr ⟨f, rfl⟩

/-- The handle of a model that is kept, if any is, is found for its name. -/
theorem handle_eq (known : c.resolve name = .ok h)
    (kept : ∀ h', Entries.get? c.handles name = some h' → h' = h) :
    ∃ c', c'.settings = c.settings ∧ handle name c = pure ⟨.ok h, c'⟩ := by
  unfold handle
  split
  · rename_i h' held
    cases kept h' held
    exact ⟨c, rfl, rfl⟩
  · rw [refresh, known]
    exact ⟨c.keep name h, rfl, rfl⟩

theorem handle_again (handled : handle name c = pure ⟨.ok h, c'⟩) :
    handle name c' = pure ⟨.ok h, c'⟩ := by
  unfold handle at handled
  split at handled
  · rename_i h' held
    cases handled
    unfold handle
    rw [held]
  · unfold refresh at handled
    split at handled
    · cases handled
      unfold handle
      rw [Client.keep, Entries.get?_set_self]
    · cases handled

theorem onModel_of_handle (handled : handle name c = pure ⟨.ok h, c'⟩)
    (p : Settings → Handle → Program α) :
    onModel name p c = (p c'.settings h).andThen fun r => .done (.ok ⟨r, c'⟩) := by
  show (handle name c >>= _) = _
  rw [handled]
  exact Program.andThen_andThen _ _ _

theorem onModel_of_error {f : Fault} (handled : handle name c = pure ⟨.error f, c'⟩)
    (p : Settings → Handle → Program α) : onModel name p c = .done (.ok ⟨.error f, c'⟩) := by
  show (handle name c >>= _) = _
  rw [handled]
  rfl

end Action

namespace Criteria

theorem isName_str (key : String) : isName (.str key) = names.contains key := rfl

theorem ofValue_object {fields : Fields} {cr : Criteria} :
    ofValue (.object fields) = .ok cr ↔
      (∀ key ∈ Entries.keys fields, key ∈ names) ∧ cr = ofFields fields := by
  have table : Value.Table.fields (fields.map fun e => (Value.str e.1, e.2)) = fields := by
    rw [Value.Table.fields, List.filterMap_map]
    exact List.filterMap_some
  have unknown : ((fields.map fun e => (Value.str e.1, e.2)).map Prod.fst).filter
      (fun key => !isName key) = [] ↔ ∀ key ∈ Entries.keys fields, key ∈ names := by
    rw [List.filter_eq_nil_iff, List.map_map, Entries.keys]
    simp only [List.forall_mem_map, Function.comp_apply, isName_str, Bool.not_eq_true',
      Bool.not_eq_false, List.contains_iff_mem]
  have read : ofTable (fields.map fun e => (Value.str e.1, e.2)) = .ok cr ↔
      (∀ key ∈ Entries.keys fields, key ∈ names) ∧ cr = ofFields fields := by
    unfold ofTable
    rw [table, ← unknown]
    split
    · rename_i none_
      rw [none_]
      exact ⟨fun same => ⟨rfl, (Except.ok.inj same).symm⟩, fun ⟨_, same⟩ => same ▸ rfl⟩
    · rename_i some_
      exact ⟨nofun, fun ⟨none_, _⟩ => absurd none_ some_⟩
  cases fields with
  | nil => exact ⟨fun same => ⟨nofun, (Except.ok.inj same).symm⟩, fun ⟨_, same⟩ => same ▸ rfl⟩
  | cons e rest => exact read

theorem ofValue_set {criteria : Fields} {cr : Criteria}
    (given : ofValue (.object criteria) = .ok cr)
    (unprojected : Entries.get? criteria "fields" = none) (fields : Value) :
    cr.fields = .null ∧
      ofValue (.object (Entries.set criteria "fields" fields)) =
        .ok { cr with fields := fields } := by
  obtain ⟨known, rfl⟩ := ofValue_object.1 given
  refine ⟨by simp only [ofFields, unprojected, Value.ofOption], ofValue_object.2 ⟨?_, ?_⟩⟩
  · intro key mem
    rw [Entries.keys_set] at mem
    split at mem
    · exact known key mem
    · rcases List.mem_append.1 mem with mem | mem
      · exact known key mem
      · rw [List.mem_singleton.1 mem]
        decide
  · have apart : ∀ name, "fields" ≠ name →
        Entries.get? (Entries.set criteria "fields" fields) name = Entries.get? criteria name :=
      fun name other => Entries.get?_set_ne _ _ other
    simp only [ofFields, Entries.get?_set_self, apart "where" (by decide),
      apart "order" (by decide), apart "limit" (by decide), apart "offset" (by decide),
      apart "skip" (by decide), Value.ofOption]

end Criteria

namespace Read

variable {h : Handle} {cr : Criteria} {useIndex : Value} {q : Query}

theorem query_eq_ok : (query h cr useIndex).outcome = .ok q ↔
    ∃ selector sort names, (Selector.build h cr.filter).outcome = .ok selector ∧
      Order.build h cr.order = .ok sort ∧ Projection.build h cr.fields = .ok names ∧
      q = ⟨.object selector, Value.ofOption (sort.map Order.toValue), namesValue names,
        useIndex⟩ := by
  constructor
  · intro made
    obtain ⟨selector, built, made⟩ := Noted.bind_eq_ok.1 made
    obtain ⟨sort, ordered, made⟩ := Noted.bind_eq_ok.1 made
    obtain ⟨names, projected, made⟩ := Noted.bind_eq_ok.1 made
    exact ⟨selector, sort, names, built, ordered, projected, (Except.ok.inj made).symm⟩
  · rintro ⟨selector, sort, names, built, ordered, projected, rfl⟩
    exact Noted.bind_eq_ok.2 ⟨selector, built, Noted.bind_eq_ok.2 ⟨sort, ordered,
      Noted.bind_eq_ok.2 ⟨names, projected, rfl⟩⟩⟩

end Read

namespace Client

variable {c : Client} {h : Handle} {name : String} {criteria useIndex : Value}

theorem named_ne_empty {asked : Option String} {found : String}
    (given : named asked = some found) : found ≠ "" := by
  obtain ⟨-, filled⟩ := Option.filter_eq_some_iff.1 given
  exact of_decide_eq_true filled

theorem databaseName_ne_empty {s : Settings} {db : String} (given : s.databaseName = .ok db) :
    db ≠ "" := by
  unfold Settings.databaseName at given
  split at given
  · rename_i found same
    cases given
    exact named_ne_empty same
  · split at given
    · obtain ⟨u, -, rfl⟩ := Except.map_eq_ok.1 given
      unfold UrlParts.database?
      split <;> simp_all [Settings.defaultDatabase]
    · cases given
      decide

theorem database_ne_empty {asked : Option String} {db : String}
    (given : c.database asked = .ok db) : db ≠ "" := by
  unfold database at given
  split at given
  · rename_i found same
    cases given
    exact named_ne_empty same
  · exact databaseName_ne_empty given

theorem markOf_ne_empty (s : ModelSettings) : c.markOf s ≠ "" := by
  unfold markOf
  cases own : named s.modelIndex with
  | some mark => exact named_ne_empty own
  | none =>
    cases shared : named c.settings.modelIndex with
    | some mark => exact named_ne_empty shared
    | none => decide

theorem resolve_ok (known : c.resolve name = .ok h) : h.database ≠ "" ∧
    (h.modelSelector = none → ∃ mark, h.discriminator = some mark ∧ mark ≠ "") := by
  obtain ⟨d, -, known⟩ := Except.bind_eq_ok.1 known
  obtain ⟨db, place, known⟩ := Except.bind_eq_ok.1 known
  split at known
  · cases known
    exact ⟨database_ne_empty place, nofun⟩
  · cases known
    exact ⟨database_ne_empty place, fun _ => ⟨_, rfl, markOf_ne_empty d.settings⟩⟩

theorem all_of_criteria {cr : Criteria} (given : Criteria.ofValue criteria = .ok cr) :
    all name criteria useIndex c =
      Action.onModel name (fun s h => Read.all s h cr useIndex) c := by
  unfold all
  rw [given]
  rfl

theorem all_of_error {f : Fault} (given : Criteria.ofValue criteria = .error f) :
    all name criteria useIndex c = .done (.ok ⟨.error f, c⟩) := by
  unfold all
  rw [given]
  rfl

end Client

end ModelStore
