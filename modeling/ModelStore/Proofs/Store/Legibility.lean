import ModelStore.Proofs.Mapper.Reading
import ModelStore.Proofs.Store.Answering
import ModelStore.Proofs.Store.Isolation

/-! Which writes can be read back. A write does not look at the declared types of a model, so a
declared date field may be stored with something in it that is no date, and the document is then
refused when it is read. Writes whose data have only what can be read in those fields, and which
build on documents that have the same, leave only documents that can be read. -/

namespace ModelStore

open Selector (Search)

namespace Mapper

/-- Model data by which the caller fills date fields only with what can be read once it is
stored. -/
def Fills (m : Mapper) (fields : Fields) : Prop :=
  ∀ name, m.Free name → ∀ v, (name, v) ∈ fields → Legible v.stored

/-- Whether a document has only what can be read in the date fields that the data of a caller
leave as they are. -/
def Leaves (m : Mapper) (fields : Fields) (c : Content) : Prop :=
  ∀ name, m.Free name → name ∉ Entries.keys fields → ∀ v, c name = some v → Legible v

variable {m : Mapper} {fields doc : Fields}

theorem Fills.set_id (fills : m.Fills fields) (id : Value) :
    m.Fills (Entries.set fields m.idName id) := by
  intro name free v mem
  rcases Entries.mem_set mem with same | mem
  · exact absurd (congrArg Prod.fst same) free.unnamed.1
  · exact fills name free v mem

theorem clear_of_toDoc {data : Value} (made : m.toDoc data = .ok doc)
    (fills : ∀ source, plainData data = .ok source → m.Fills source) :
    m.Clear (Entries.get? doc) := by
  intro name free v here
  rcases of_get?_toDoc made free.unnamed.2 here with
    ⟨marked, -⟩ | ⟨source, w, plain, mem, -, -, rfl⟩
  · exact absurd marked free.unmarked
  · exact fills source plain name free w mem

theorem Clear.kept (clear : m.Clear (Entries.get? doc)) (id rev : String) :
    m.Clear (Documents.kept doc id rev) := by
  intro name free v here
  rw [Documents.kept, if_neg free.unnamed.2, if_neg free.undated] at here
  exact clear name free v here

end Mapper

/-- A call that writes no document to the model's database but with what can be read in the date
fields of the caller. -/
def Call.IsClear (h : Handle) : Call → Prop
  | .insert db doc => db = h.database → (Mapper.ofHandle h).Clear (Entries.get? doc)
  | .bulk db docs => db = h.database → ∀ doc, .object doc ∈ docs →
      (Mapper.ofHandle h).Clear (Entries.get? doc)
  | _ => True

/-- Whether the documents of the model's database are as they were at another time, or have only
what can be read in the date fields of the caller. -/
def Handle.Clears (h : Handle) (s t : Documents) : Prop :=
  ∀ p c, p.database = h.database → t.current p = some c →
    s.current p = some c ∨ (Mapper.ofHandle h).Clear c

variable {search : Search} {site : Site} {h : Handle} {s t u : Documents} {qs : List Request}
  {fields doc stored patch : Fields} {c : Content} {id data : Value}

namespace Handle

theorem clears_refl : h.Clears s s := fun _ _ _ here => .inl here

theorem Clears.writes {db : String} {w : Attempt} (clears : h.Clears s t)
    (write : t.Writes db doc w u)
    (clear : db = h.database → (Mapper.ofHandle h).Clear (Entries.get? doc)) :
    h.Clears s u := by
  have put : ∀ id rev, h.Clears s (t.put ⟨db, id⟩ doc rev) := by
    intro id rev p c place now
    simp only [Documents.put] at now
    split at now
    · rename_i same
      subst same
      cases now
      exact .inr ((clear place).kept id rev)
    · exact clears p c place now
  cases write with
  | put named current fresh => exact put _ _
  | created unnamed undated free fresh => exact put _ _
  | conflict named stale => exact clears
  | improper unnamed given => exact clears

theorem Clears.writesAll {db : String} {docs : List Value} {ws : List Attempt}
    (clears : h.Clears s t) (writes : Documents.WritesAll db t docs ws u)
    (clear : db = h.database → ∀ doc, .object doc ∈ docs →
      (Mapper.ofHandle h).Clear (Entries.get? doc)) : h.Clears s u := by
  induction writes with
  | nil t => exact clears
  | cons first rest ih =>
    refine ih (clears.writes first fun place => clear place _ List.mem_cons_self) ?_
    exact fun place doc mem => clear place doc (List.mem_cons_of_mem _ mem)

theorem Clears.performs {call : Call} {a : Answer} (clears : h.Clears s t)
    (clear : call.IsClear h) (performs : t.Performs search call a u) : h.Clears s u := by
  cases performs with
  | failed failed => exact clears
  | deleted current sound =>
    intro p c place now
    simp only [Documents.drop] at now
    split at now
    · cases now
    · exact clears p c place now
  | served served matched =>
    cases served with
    | wrote write told => exact clears.writes write clear
    | wroteAll writes sound body told => exact clears.writesAll writes clear
    | _ => exact clears

end Handle

theorem Call.isClear_of_isLook {call : Call} (look : call.IsLook) : call.IsClear h := by
  cases call <;> trivial

theorem Program.Makes.clears {α : Type} {p : Program α}
    (makes : p.Makes search (h.Clears s) (Call.IsClear h)) (clears : h.Clears s t)
    {r : Except Fault α} (served : p.Served (.ok site) (Documents.Replies search) t qs u r) :
    h.Clears s u :=
  (Sends.served makes clears (fun _ _ => trivial)
    (fun _ _ _ _ clears clear performs => clears.performs clear performs) served).2.1

namespace Write

theorem makes_clear_create
    (fills : ∀ fields, Mapper.plainData data = .ok fields → (Mapper.ofHandle h).Fills fields) :
    (create h data).Makes search (h.Clears s) (Call.IsClear h) :=
  makes_create fun _ made _ => Mapper.clear_of_toDoc made fills

theorem makes_clear_replace
    (fills : ∀ fields, Mapper.plainData data = .ok fields → (Mapper.ofHandle h).Fills fields) :
    (replace h id data).Makes search (h.Clears s) (Call.IsClear h) := by
  refine makes_replace (fun _ => Call.isClear_of_isLook) fun fields doc plain made _ => ?_
  refine Mapper.clear_of_toDoc made fun source same => ?_
  cases same
  exact (fills fields plain).set_id _

theorem served_current {r : Except Fault Value}
    (served : (current h id).Served (.ok site) (Documents.Replies search) s qs t r) :
    t = s ∧ ∀ v, r = .ok v → s.Shows ⟨h.database, id.text⟩ v := by
  obtain ⟨x, got, rfl⟩ := served.of_retell
  obtain ⟨-, rfl, shown⟩ := got.of_get
  exact ⟨rfl, fun v same => shown v (Except.mapError_eq_ok.1 same)⟩

theorem fills_merged {table : Value.Table} (shape : Json.Table stored)
    (read : Value.asTable (.object stored) = .ok table)
    (fills : (Mapper.ofHandle h).Fills patch)
    (left : (Mapper.ofHandle h).Leaves patch (Entries.get? stored)) :
    (Mapper.ofHandle h).Fills (merged h id table.named patch) := by
  intro name free v mem
  have here := Entries.get?_of_mem (nodup_merged read) mem
  have other : h.idName ≠ name := Ne.symm free.unnamed.1
  rw [merged, Entries.get?_set_ne _ _ other] at here
  rcases Entries.of_get?_update here with mem | ⟨absent, there⟩
  · exact fills name free v mem
  · rw [Entries.get?_erase_ne _ (Ne.symm free.unnamed.2), Value.named_of_object read,
      Entries.get?_ofList shape.distinct] at there
    rw [Json.stored_of_encode v (shape.encode_get? there)]
    exact left name free absent v there

/-- An update leaves what can be read in the date fields, if that is so of its data and of what
they leave of the document that they are written over. -/
theorem clears_merge
    (fills : ∀ patch, Mapper.plainData data = .ok patch → (Mapper.ofHandle h).Fills patch)
    (left : ∀ c patch, s.current ⟨h.database, id.text⟩ = some c →
      Mapper.plainData data = .ok patch → (Mapper.ofHandle h).Leaves patch c)
    {r : Except Fault Fields}
    (served : (merge h id data).Served (.ok site) (Documents.Replies search) s qs t r) :
    h.Clears s t := by
  rw [merge_eq] at served
  obtain ⟨first, later, u, x, -, read, rest⟩ := served.of_andThen
  obtain ⟨rfl, shown⟩ := served_current read
  cases x with
  | error f =>
    obtain ⟨-, rfl, -⟩ := rest.of_done
    exact Handle.clears_refl
  | ok found =>
    obtain ⟨fields, rfl, shape, here⟩ := shown found rfl
    refine (makes_mergeInto fun stored patch doc table plain made _ => ?_).clears
      Handle.clears_refl rest
    refine Mapper.clear_of_toDoc made fun source same => ?_
    cases same
    exact fills_merged shape table (fills patch plain) (left _ patch here plain)

end Write

namespace Save

variable {values : Fields}

theorem permits_clear (fills : (Mapper.ofHandle h).Fills values) :
    Permits (Call.IsClear h) h values := by
  rintro source doc (rfl | ⟨id, rfl⟩) made -
  · refine Mapper.clear_of_toDoc made fun fields same => ?_
    cases same
    exact fills
  · refine Mapper.clear_of_toDoc made fun fields same => ?_
    cases same
    exact fills.set_id _

theorem clears_update
    (fills : ∀ fields, Mapper.plainData data = .ok fields → (Mapper.ofHandle h).Fills fields)
    (left : ∀ c fields, Mapper.plainData data = .ok fields → (idOf h fields).isNull = false →
      s.current ⟨h.database, (idOf h fields).text⟩ = some c → (Mapper.ofHandle h).Leaves fields c)
    {r : Except Fault Saved}
    (served : (update h data).Served (.ok site) (Documents.Replies search) s qs t r) :
    h.Clears s t := by
  cases plain : Mapper.plainData data with
  | error f =>
    rw [update, plain, Program.ofExcept, Program.bind_def, Program.bind_done_error] at served
    obtain ⟨-, rfl, -⟩ := served.of_done
    exact Handle.clears_refl
  | ok values =>
    rw [update, plain, Program.ofExcept, Program.bind_def, Program.bind_done_ok] at served
    dsimp only at served
    have made : (created h values).Makes search (h.Clears s) (Call.IsClear h) :=
      makes_created fun doc => permits_clear (fills values plain) values doc (.inl rfl)
    split at served
    · exact made.clears Handle.clears_refl served
    · rename_i given
      obtain ⟨first, later, u, x, -, merged, rest⟩ := served.of_andThen
      have merged_ : h.Clears s u := by
        refine Write.clears_merge ?_ ?_ merged
        · rintro _ ⟨⟩
          exact fills values plain
        · rintro c _ here ⟨⟩
          exact left c values plain (by simpa using given) here
      cases x with
      | ok fields =>
        obtain ⟨-, rfl, -⟩ := rest.of_done
        exact merged_
      | error f =>
        simp only at rest
        split at rest
        · exact made.clears merged_ rest
        · obtain ⟨-, rfl, -⟩ := rest.of_done
          exact merged_

end Save

namespace Bulk

theorem makes_clear_replace (fills : ∀ items item fields, data.members = .ok items → item ∈ items →
      Mapper.plainData item = .ok fields → (Mapper.ofHandle h).Fills fields) :
    (replace h data).Makes search (h.Clears s) (Call.IsClear h) := by
  refine makes_replace fun items docs given made _ doc mem => ?_
  obtain ⟨_, member, same⟩ := List.mem_map.1 mem
  cases same
  obtain ⟨item, mem_item, whole⟩ := Except.mem_of_mapM made member
  exact Mapper.clear_of_toDoc whole fun fields => fills items item fields given mem_item

/-- A patch leaves what can be read in the date fields, if that is so of what it has for them and
of what it leaves. -/
theorem clear_of_patched (patch_ : patchOf h data = .ok patch)
    (fills : ∀ source, Mapper.plainData data = .ok source → (Mapper.ofHandle h).Fills source)
    (shape : Json.Table stored)
    (left : ∀ source, Mapper.plainData data = .ok source →
      (Mapper.ofHandle h).Leaves source (Entries.get? stored))
    {v : Value} (made : patched patch (.object stored) = .ok v) {coded : Fields}
    (form : Json.encode v = .ok (.object coded)) :
    (Mapper.ofHandle h).Clear (Entries.get? coded) := by
  obtain ⟨doc, rfl, look⟩ := get?_patched made
  obtain ⟨ws, form, same⟩ := Except.map_eq_ok.1 form
  cases same
  intro name free w here
  obtain ⟨v, there, encoded⟩ := Json.of_get?_encodeFields form here
  rcases look name with ⟨absent, same⟩ | ⟨x, mem, same⟩
  · rw [there] at same
    cases (shape.encode_get? same.symm).symm.trans encoded
    obtain ⟨source, plain, -⟩ := Except.bind_eq_ok.1 patch_
    refine left source plain name free (fun present => absent ?_) w same.symm
    rw [patchOf_ok plain patch_, Value.keys_storedFields]
    obtain ⟨e, member, rfl⟩ := List.mem_map.1 present
    have other : e.1 ≠ h.idName := free.unnamed.1
    exact List.mem_map.2 ⟨e, List.mem_filter.2 ⟨member, by simpa using other⟩, rfl⟩
  · obtain ⟨source, y, plain, member, -, rfl⟩ := of_mem_patchOf patch_ mem
    rw [there] at same
    split at same
    · cases same
    · cases same
      rw [Json.encode_stored y encoded]
      exact fills source plain name free y member

theorem clears_update {pageSize : Nat} {filter : Value}
    (fills : ∀ source, Mapper.plainData data = .ok source → (Mapper.ofHandle h).Fills source)
    (left : ∀ selector stored, (Selector.build h filter).outcome = .ok selector →
      s.Finds search h.database (Query.ofSelector selector).body (.object stored) →
        ∀ source, Mapper.plainData data = .ok source →
          (Mapper.ofHandle h).Leaves source (Entries.get? stored))
    {r : Except Fault Nat}
    (served : (update pageSize h filter data).Served (.ok site) (Documents.Replies search) s qs t
      r) : h.Clears s t := by
  rw [update_eq] at served
  obtain ⟨first, later, u, x, -, searched, rest⟩ := served.of_andThen
  obtain ⟨found, rfl, -⟩ := (Query.sends_search pageSize filter none).searched searched
  cases x with
  | error f =>
    obtain ⟨-, rfl, -⟩ := rest.of_done
    exact Handle.clears_refl
  | ok docs =>
    refine (makes_amend fun back coded made form _ doc mem => ?_).clears Handle.clears_refl rest
    obtain ⟨patch, patch_, each⟩ := Except.bind_eq_ok.1 made
    obtain ⟨v, member, encoded⟩ := Json.mem_encodeItems form mem
    obtain ⟨d, member, made⟩ := Except.mem_of_mapM each member
    obtain ⟨selector, _, built, rfl, met⟩ := found docs rfl d member
    obtain ⟨text, coded, _, ⟨stored, rfl, shape, here⟩, -⟩ := met.of_selector_only
    exact clear_of_patched patch_ fills shape (left selector stored built met) made encoded

end Bulk

namespace Remove

theorem makes_clear_one (pageSize : Nat) (id : Value) :
    (one pageSize h id).Makes search (h.Clears s) (Call.IsClear h) := by
  refine makes_one (P := fun _ => True) ((Query.sends_search pageSize _ none).mono ?_) ?_
  · exact fun _ _ _ _ _ _ => trivial
  · exact fun _ _ _ _ _ => trivial

theorem makes_clear_all (pageSize : Nat) (limit : Option Nat) (filter : Value) :
    (all pageSize limit h filter).Makes search (h.Clears s) (Call.IsClear h) := by
  refine makes_all (P := fun _ => True) ((Query.sends_search pageSize filter limit).mono ?_) ?_
  · exact fun _ _ _ _ _ _ => trivial
  · exact fun _ _ _ _ _ => trivial

end Remove

end ModelStore
