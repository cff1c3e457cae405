import ModelStore.Proofs.Selector.Confinement
import ModelStore.Proofs.Store.Overlay
import ModelStore.Proofs.Store.Sending
import ModelStore.Store.Remove

/-! What the calls of a model leave as it is. The store takes a document over another only at
its place and under its revision. So model data without a revision is taken over nothing,
an update of one document only over that of its id, and what is found by the selector of a
model is the model's own. -/

namespace ModelStore

open Selector (Search isDotted isOperator)

namespace Place

/-- A document sent to a database that is not taken over the content of a place. -/
def Spared (p : Place) (c : Content) (db : String) (doc : Fields) : Prop :=
  db = p.database → Entries.get? doc "_id" = some (.str p.id) → Entries.get? doc "_rev" ≠ c "_rev"

end Place

/-- A call that leaves the content of a place as it is. -/
def Call.Spares (p : Place) (c : Content) : Call → Prop
  | .insert db doc => p.Spared c db doc
  | .bulk db docs => ∀ doc, .object doc ∈ docs → p.Spared c db doc
  | .delete db id _ => (⟨db, id⟩ : Place) ≠ p
  | _ => True

namespace Documents

variable {search : Search} {s t : Documents} {p : Place} {c : Content} {db : String}

theorem put_current (q : Place) (doc : Fields) (rev : String) (other : p ≠ q) :
    (s.put q doc rev).current p = s.current p :=
  if_neg other

theorem Writes.keeps {doc : Fields} {w : Attempt} (write : s.Writes db doc w t)
    (here : s.current p = some c) (spared : p.Spared c db doc) : t.current p = some c := by
  cases write with
  | @put id rev named current fresh =>
    by_cases same : p = ⟨db, id⟩
    · subst same
      refine absurd ?_ (spared rfl named)
      rw [current]
      exact revision?_of_current here
    · rwa [put_current _ _ _ same]
  | @created id rev unnamed undated free fresh =>
    by_cases same : p = ⟨db, id⟩
    · subst same
      rw [here] at free
      cases free
    · rwa [put_current _ _ _ same]
  | conflict named stale => exact here
  | improper unnamed given => exact here

theorem WritesAll.keeps {docs : List Value} {ws : List Attempt} (writes : WritesAll db s docs ws t)
    (here : s.current p = some c) (spared : ∀ doc, .object doc ∈ docs → p.Spared c db doc) :
    t.current p = some c := by
  induction writes with
  | nil s => exact here
  | cons first rest ih =>
    exact ih (first.keeps here (spared _ List.mem_cons_self))
      fun doc mem => spared doc (List.mem_cons_of_mem _ mem)

theorem Performs.keeps {call : Call} {a : Answer} (performs : s.Performs search call a t)
    (here : s.current p = some c) (spares : call.Spares p c) : t.current p = some c := by
  cases performs with
  | failed failed => exact here
  | deleted current sound => exact (if_neg (Ne.symm spares)).trans here
  | served served matched =>
    cases served with
    | wrote write told => exact write.keeps here spares
    | wroteAll writes sound body told => exact writes.keeps here spares
    | _ => exact here

theorem Evolves.current (h : s.Evolves t) (now : t.current p = some c) :
    s.current p = some c ∨ ∃ rev, c "_rev" = some (.str rev) ∧ rev ∉ s.issued := by
  induction h with
  | refl => exact .inl now
  | @put t earlier q doc rev fresh ih =>
    simp only [Documents.put] at now
    split at now
    · cases now
      exact .inr ⟨rev, rfl, fun mem => fresh (earlier.issued mem)⟩
    · exact ih now

theorem Performs.current {call : Call} {a : Answer} (performs : s.Performs search call a t)
    (now : t.current p = some c) :
    s.current p = some c ∨ ∃ rev, c "_rev" = some (.str rev) ∧ rev ∉ s.issued := by
  cases performs with
  | served served matched => exact served.evolves.current now
  | failed failed => exact .inl now
  | deleted current sound =>
    simp only [drop] at now
    split at now
    · cases now
    · exact .inl now

end Documents

namespace Handle

/-- A document of the model: it has the model's name under the mark of the model. -/
def Owns (h : Handle) (c : Content) : Prop :=
  ∃ mark, h.mark? = some mark ∧ c mark = some (.str h.name)

/-- A document as it stands at a place, which is none of the model's. -/
structure Foreign (h : Handle) (p : Place) (c : Content) : Prop where
  named : c "_id" = some (.str p.id)
  dated : ∃ rev, c "_rev" = some (.str rev)
  other : ¬h.Owns c

/-- Model data without a revision: what it has under `_rev`, if anything, is null or the id. -/
def Undated (h : Handle) (fields : Fields) : Prop :=
  h.idName ≠ "_rev" → ∀ v, ("_rev", v) ∈ fields → v.isNull = true

end Handle

/-- What holds of the documents while calls of a model spare the content of a place. If that is
aimed at, no document of the model has its revision. -/
structure Documents.Keeping (h : Handle) (p : Place) (c : Content) (aimed : Prop)
    (s : Documents) : Prop where
  sound : s.Sound
  here : s.current p = some c
  unlike : aimed → ∀ id own, s.current ⟨h.database, id⟩ = some own → h.Owns own →
    own "_rev" ≠ c "_rev"

section Sparing

variable {search : Search} {h : Handle} {p : Place} {c : Content} {aimed : Prop} {s t : Documents}

theorem Documents.Keeping.performs (k : s.Keeping h p c aimed) {call : Call} {a : Answer}
    (spares : call.Spares p c) (performs : s.Performs search call a t) :
    t.Keeping h p c aimed := by
  refine ⟨performs.sound k.sound, performs.keeps k.here spares, fun aims id own now owned => ?_⟩
  rcases performs.current now with before | ⟨rev, dated, fresh⟩
  · exact k.unlike aims id own before owned
  · obtain ⟨rev', mem, dated'⟩ := k.sound.dated p c k.here
    rw [dated, dated']
    rintro ⟨⟩
    exact fresh mem

/-- Model data without a revision becomes a document that is taken over nothing else. -/
theorem Handle.Foreign.spared (foreign : h.Foreign p c) {data : Value} {doc : Fields}
    (made : (Mapper.ofHandle h).toDoc data = .ok doc)
    (undated : ∀ fields, Mapper.plainData data = .ok fields → h.Undated fields) (db : String) :
    p.Spared c db doc := by
  intro _ _ same
  obtain ⟨rev, dated⟩ := foreign.dated
  rcases Mapper.of_get?_toDoc made (by decide) (same.trans dated) with
    ⟨marked, named⟩ | ⟨source, w, plain, mem, full, apart, -⟩
  · rw [named] at dated
    exact foreign.other ⟨"_rev", marked, dated⟩
  · rw [undated source plain apart w mem] at full
    cases full

theorem Handle.Foreign.spared_of_id (foreign : h.Foreign p c) {source doc : Fields} {id : Value}
    (made : (Mapper.ofHandle h).toDoc (.object source) = .ok doc)
    (given : Entries.get? source h.idName = some (.str id.text))
    (apart : p ≠ ⟨h.database, id.text⟩) : p.Spared c h.database doc := by
  intro place named
  have look := Mapper.get?_id_toDoc made given rfl
  rw [look] at named
  split at named
  · rename_i marked
    have same : (Mapper.ofHandle h).model = p.id := by simpa using named
    refine absurd ⟨"_id", marked, ?_⟩ foreign.other
    rw [foreign.named, ← same]
    rfl
  · have same : id.text = p.id := by simpa using named
    exact absurd (by rw [same, place]) apart

namespace Program

variable {α β : Type} {held : Documents → Prop}

/-- Whatever comes of its calls, a program spares the content of a place. -/
def Spares (search : Search) (held : Documents → Prop) (p : Place) (c : Content)
    (q : Program α) : Prop :=
  q.Sends search held (Call.Spares p c) fun _ => True

theorem Spares.andThen {q : Program α} (spares : q.Spares search held p c)
    {f : Except Fault α → Program β} (next : ∀ r, (f r).Spares search held p c) :
    (q.andThen f).Spares search held p c :=
  Makes.andThen spares next

theorem spares_ofExcept_bind {r : Except Fault α} {f : α → Program β}
    (next : ∀ a, r = .ok a → (f a).Spares search held p c) :
    (ofExcept r >>= f).Spares search held p c :=
  makes_ofExcept_bind next

end Program

theorem Call.spares_of_isLook {call : Call} (look : call.IsLook) : call.Spares p c := by
  cases call <;> trivial

namespace Write

variable {held : Documents → Prop} {data id : Value}

theorem spares_create (foreign : h.Foreign p c)
    (undated : ∀ fields, Mapper.plainData data = .ok fields → h.Undated fields) :
    (create h data).Spares search held p c :=
  makes_create fun _ made => foreign.spared made undated _

theorem undated_set {fields source : Fields} {id : String} (undated : h.Undated fields)
    (same : Mapper.plainData (.object (Entries.set fields h.idName (.str id))) = .ok source) :
    h.Undated source := by
  cases same
  intro apart v mem
  rcases Entries.mem_set mem with same | mem
  · exact absurd (congrArg Prod.fst same).symm apart
  · exact undated apart v mem

theorem spares_replace (foreign : h.Foreign p c)
    (undated : ∀ fields, Mapper.plainData data = .ok fields → h.Undated fields) :
    (replace h id data).Spares search held p c :=
  makes_replace (fun _ => Call.spares_of_isLook) fun fields _ plain made =>
    foreign.spared made (fun _ => undated_set (undated fields plain)) _

theorem spares_merge (foreign : h.Foreign p c) (apart : p ≠ ⟨h.database, id.text⟩) :
    (merge h id data).Spares search held p c := by
  rw [merge_eq]
  refine (makes_current fun _ => Call.spares_of_isLook).bind fun found => ?_
  exact makes_mergeInto fun stored patch doc _ _ made =>
    foreign.spared_of_id made (Entries.get?_set_self _ _ _) apart

end Write

namespace Save

variable {held : Documents → Prop} {data : Value} {values : Fields}

theorem permits_spares (foreign : h.Foreign p c) (undated : h.Undated values) :
    Permits (Call.Spares p c) h values := by
  rintro source doc (rfl | ⟨id, rfl⟩) made
  · exact foreign.spared made (fun fields same => by cases same; exact undated) _
  · exact foreign.spared made (fun _ => Write.undated_set undated) _

theorem spares_created (foreign : h.Foreign p c) (undated : h.Undated values) :
    (created h values).Spares search held p c :=
  makes_created fun doc => permits_spares foreign undated values doc (.inl rfl)

theorem spares_save (foreign : h.Foreign p c)
    (undated : ∀ fields, Mapper.plainData data = .ok fields → h.Undated fields) :
    (save h data).Spares search held p c :=
  makes_save (fun _ => Call.spares_of_isLook) fun values plain =>
    permits_spares foreign (undated values plain)

theorem spares_replace (foreign : h.Foreign p c)
    (undated : ∀ fields, Mapper.plainData data = .ok fields → h.Undated fields) :
    (replace h data).Spares search held p c :=
  makes_replace (fun _ => Call.spares_of_isLook) fun values plain =>
    permits_spares foreign (undated values plain)

theorem spares_update (foreign : h.Foreign p c)
    (undated : ∀ fields, Mapper.plainData data = .ok fields → h.Undated fields)
    (apart : ∀ fields, Mapper.plainData data = .ok fields → (idOf h fields).isNull = false →
      p ≠ ⟨h.database, (idOf h fields).text⟩) :
    (update h data).Spares search held p c := by
  refine Program.spares_ofExcept_bind fun values plain => ?_
  have made : (created h values).Spares search held p c :=
    spares_created foreign (undated values plain)
  show Program.Spares search held p c (if (idOf h values).isNull then _ else _)
  split
  · exact made
  · rename_i given
    refine (Write.spares_merge foreign (apart values plain (by simpa using given))).andThen
      fun r => ?_
    cases r with
    | ok fields => trivial
    | error f =>
      show Program.Spares search held p c (if f.isNotFound then _ else _)
      split
      · exact made
      · trivial

end Save

end Sparing

end ModelStore
