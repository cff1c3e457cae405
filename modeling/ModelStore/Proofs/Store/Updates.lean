import ModelStore.Proofs.Store.Overlay
import ModelStore.Proofs.Store.Posting
import ModelStore.Store.Save

/-! Updates among other programs that write. An update sends its patch over what it read. If
the store takes that over an existing document, the revision it carries was given out
before the read, so nothing was written in between. -/

namespace ModelStore

variable {start s t u : Documents} {ws : List Attempt} {permit : Attempt → Prop} {h : Handle}

/-- The revision that model data carries, if any, is one that was given out. -/
def Dated (issued : List String) (fields : Fields) : Prop :=
  ∀ v, Entries.get? fields "_rev" = some v → v = .null ∨ ∃ rev ∈ issued, v.stored = .str rev

namespace Handle

/-- The mark of the model is no field by which the store knows a document. -/
def Unreserved (h : Handle) : Prop := h.mark? ≠ some "_id" ∧ h.mark? ≠ some "_rev"

variable {id : String} {patch doc : Fields} {old : String → Option Value}

theorem Merges.id_eq (merges : h.Merges id patch old doc) (unreserved : h.Unreserved) :
    Entries.get? doc "_id" = some (.str id) := by
  rw [merges, if_neg unreserved.1, if_pos rfl]

theorem Merges.revision (merges : h.Merges id patch old doc) (unreserved : h.Unreserved)
    {issued : List String} (dated : Dated issued patch) {v : Value}
    (carried : Entries.get? doc "_rev" = some v) :
    (∃ rev ∈ issued, v = .str rev) ∨ old "_rev" = some v := by
  rw [merges, if_neg unreserved.2, if_neg (by decide)] at carried
  split at carried
  · cases carried
  · cases given : Entries.get? patch "_rev" with
    | none =>
      rw [given] at carried
      exact .inr (Option.filter_eq_some_iff.1 carried).1
    | some w =>
      rw [given] at carried
      obtain ⟨same, full⟩ := Option.filter_eq_some_iff.1 carried
      cases same
      rcases dated w given with rfl | ⟨rev, mem, same⟩
      · cases full
      · exact .inl ⟨rev, mem, same⟩

end Handle

namespace Write

variable {id data : Value} {patch : Fields}

/-- What the store takes of an update over an existing document is the patch over exactly that
document: the revision that it carries is older than the read. -/
theorem merges_of_write {fields doc : Fields} {w : Attempt} (sound : start.Sound)
    (unreserved : h.Unreserved) (dated : Dated start.issued patch) (since : start.Evolves s)
    (seen : s.current ⟨h.database, id.text⟩ = some (Entries.get? fields))
    (merges : h.Merges id.text patch (Entries.get? fields) doc) (later : s.Evolves t)
    (write : t.Writes h.database doc w u) (accepted : w.accepted = true) {old : Content}
    (before : w.old = some old) : h.Merges id.text patch old w.doc := by
  obtain ⟨id', named, now, carried⟩ := write.overwrote accepted before
  rw [merges.id_eq unreserved] at named
  cases named
  -- The revision is the patch's, given out before the call began, or it was read.
  have untouched : Entries.get? fields = old := by
    obtain ⟨rev, -, revision⟩ := (later.sound (since.sound sound)).dated _ _ now
    rw [revision] at carried
    rcases merges.revision unreserved dated carried with ⟨rev', mem, same⟩ | same
    · cases same
      have back := later.untouched (since.issued mem) now revision
      rw [seen] at back
      exact Option.some.inj back
    · exact later.unchanged (since.sound sound) seen now (revision.trans same.symm)
  rw [write.doc_eq, ← untouched]
  exact merges

theorem safe_merge (sound : start.Sound) (unreserved : h.Unreserved) (since : start.Evolves s)
    (given : ∀ patch, Mapper.plainData data = .ok patch →
      (Entries.keys patch).Nodup ∧ Dated start.issued patch)
    (allowed : ∀ patch (w : Attempt), Mapper.plainData data = .ok patch →
      (w.accepted = true → ∀ old, w.old = some old → h.Merges id.text patch old w.doc) →
        permit w) :
    Program.Safe start permit
      (fun t _ r => start.Evolves t ∧ ∀ f, r = .error f → f.isNotFound = true →
        t.current ⟨h.database, id.text⟩ = none) (merge h id data) s ws := by
  have unlike {α : Type} {t : Documents} {e : Fault} (since : start.Evolves t)
      (other : e.isNotFound = false) :
      start.Evolves t ∧ ∀ f, (Except.error e : Except Fault α) = .error f →
        f.isNotFound = true → t.current ⟨h.database, id.text⟩ = none := by
    refine ⟨since, fun f same missing => ?_⟩
    cases same
    rw [other] at missing
    cases missing
  have read : Program.Safe start permit (fun t _ r => start.Evolves t ∧
      (∀ v, r = .ok v → ∃ fields, v = .object fields ∧ Json.Table fields ∧
        t.current ⟨h.database, id.text⟩ = some (Entries.get? fields)) ∧
      ∀ f, r = .error f → f.isNotFound = true → t.current ⟨h.database, id.text⟩ = none)
      (current h id) s ws := by
    refine safe_current ?_ ?_ ?_
    · intro t fields later table here
      refine ⟨since.trans later, fun v same => ?_, nofun⟩
      cases same
      exact ⟨fields, rfl, table, here⟩
    · intro t f later absent
      exact ⟨since.trans later, nofun, fun _ _ _ => absent⟩
    · intro t f later other
      exact ⟨since.trans later, nofun, (unlike (since.trans later) other).2⟩
  refine read.bind (fun t ws v known => ?_) fun t ws e known =>
    ⟨known.1, fun f same => known.2.2 f (by cases same; rfl)⟩
  obtain ⟨since, found, -⟩ := known
  obtain ⟨fields, rfl, table, seen⟩ := found v rfl
  refine Program.safe_ofExcept_bind (fun stored named => ?_) fun e fault => by cases fault
  refine Program.safe_ofExcept_bind (fun patch plain => ?_) fun e fault =>
    unlike since (Mapper.isNotFound_of_plainData fault)
  obtain ⟨distinct, dated⟩ := given patch plain
  refine Program.safe_ofExcept_bind (fun doc made => ?_) fun e fault =>
    unlike since (Mapper.isNotFound_of_toDoc fault)
  have merges := merges_of_toDoc table distinct named made
  have posted : Program.Safe start permit
      (fun t _ r => start.Evolves t ∧ ∀ f, r = .error f → f.isNotFound = false)
      (post h doc .stale "") t ws := by
    refine safe_post rfl ?_ ?_
    · intro t' coded w u later form write
      rw [Mapper.toDoc_coded made form] at write
      refine ⟨allowed patch w plain fun accepted old before => ?_, fun r told => ?_⟩
      · exact merges_of_write sound unreserved dated since seen merges later write accepted before
      · refine ⟨(since.trans later).trans write.evolves, fun f fault => ?_⟩
        cases accepted : w.accepted with
        | true => exact told.kept accepted f fault
        | false =>
          have placed := write.place_eq (merges.id_eq unreserved)
          obtain ⟨e, same, kind⟩ := told.stale accepted (by rw [placed]; rfl)
          rw [same] at fault
          cases fault
          simp [Fault.isNotFound, kind]
    · intro t' f later other
      refine ⟨since.trans later, fun e fault => ?_⟩
      cases fault
      exact other
  refine posted.bind (fun t ws answer known => ?_) fun t ws e known =>
    unlike known.1 (known.2 e rfl)
  refine Program.safe_ofExcept_bind (fun rev _ => ?_) fun e fault =>
    unlike known.1 (Value.isNotFound_of_required fault)
  refine ⟨known.1, fun f fault missing => ?_⟩
  rw [Mapper.isNotFound_of_fromDoc fault] at missing
  cases missing

end Write

namespace Save

variable {data : Value} {values doc : Fields}

theorem safe_created (allowed : ∀ t doc w u, s.Evolves t →
      (Mapper.ofHandle h).toDoc (.object values) = .ok doc → t.Writes h.database doc w u →
        permit w) :
    Program.Safe start permit (fun _ _ _ => True) (created h values) s ws := by
  have posted : Program.Safe start permit (fun _ _ _ => True) (Write.create h (.object values))
      s ws := by
    refine Program.safe_andThen.2 (Program.Safe.mono ?_ fun t ws r (_ : True) => ?_)
    · refine Program.safe_ofExcept_bind (fun doc made => ?_) fun e _ => trivial
      refine Write.safe_post rfl ?_ fun t f _ _ => trivial
      intro t coded w u later form write
      rw [Mapper.toDoc_coded made form] at write
      exact ⟨allowed t doc w u later made write, fun r _ => trivial⟩
    · cases r <;> trivial
  have written : Program.Safe start permit (fun _ _ _ => True) (Write.insert h (.object values))
      s ws :=
    posted.bind (fun t ws receipt _ => trivial) fun t ws e _ => trivial
  have given : Program.Safe start permit (fun _ _ _ => True) (inserted h values) s ws :=
    written.bind (fun t ws w _ => trivial) fun t ws e _ => trivial
  exact given.bind (fun t ws fields _ => trivial) fun t ws e _ => trivial

/-- Model data without an id does not name a document by an `_id` and a `_rev` of its own. -/
def Unaddressed (h : Handle) (values : Fields) : Prop :=
  Entries.get? values h.idName = none → ∀ v id rev, Entries.get? values "_id" = some v →
    v.stored = .str id → Entries.get? values "_rev" = some rev → rev.isNull = true

theorem exists_field (made : (Mapper.ofHandle h).toDoc (.object values) = .ok doc)
    (distinct : (Entries.keys values).Nodup) (absent : Entries.get? values h.idName = none)
    {key : String} (mark : h.mark? ≠ some key) {v : Value}
    (here : Entries.get? doc key = some v) :
    ∃ w, Entries.get? values key = some w ∧ w.isNull = false ∧ w.stored = v := by
  rw [Mapper.get?_toDoc_of_absent made absent distinct mark] at here
  obtain ⟨w, kept, same⟩ := Option.map_eq_some_iff.1 here
  obtain ⟨given, full⟩ := Option.filter_eq_some_iff.1 kept
  exact ⟨w, given, by simpa using full, same⟩

/-- Unaddressed data without an id is written over no document. -/
theorem not_overwrites_of_null (made : (Mapper.ofHandle h).toDoc (.object values) = .ok doc)
    (distinct : (Entries.keys values).Nodup) (unreserved : h.Unreserved)
    (null : (idOf h values).isNull = true) (unaddressed : Unaddressed h values)
    {id : String} {rev : Value} (named : Entries.get? doc "_id" = some (.str id))
    (dated : Entries.get? doc "_rev" = some rev) : False := by
  cases given : Entries.get? values h.idName with
  | none =>
    obtain ⟨v, first, -, text⟩ := exists_field made distinct given unreserved.1 named
    obtain ⟨w, second, full, -⟩ := exists_field made distinct given unreserved.2 dated
    rw [unaddressed given v id w first text second] at full
    cases full
  | some v =>
    have nothing : v = .null := by
      rw [idOf, given] at null
      exact Value.eq_null_of_isNull null
    rw [nothing] at given
    rw [Mapper.get?_toDoc_of_null made given unreserved.1] at named
    cases named

theorem dated_of_id (made : (Mapper.ofHandle h).toDoc (.object values) = .ok doc)
    (distinct : (Entries.keys values).Nodup) (unreserved : h.Unreserved)
    (given : (idOf h values).isNull = false) {issued : List String}
    (dated : Dated issued values) :
    Entries.get? doc "_id" = some (.str (idOf h values).text) ∧
      ∀ v, Entries.get? doc "_rev" = some v → ∃ rev ∈ issued, v = .str rev := by
  obtain ⟨id, here⟩ : ∃ id, Entries.get? values h.idName = some id := by
    cases present : Entries.get? values h.idName with
    | some id => exact ⟨id, rfl⟩
    | none =>
      rw [idOf, present] at given
      cases given
  have same : idOf h values = id := by
    rw [idOf, here]
    rfl
  rw [same] at given ⊢
  have look := Mapper.get?_toDoc made here given distinct
  constructor
  · rw [look]
    exact (if_neg unreserved.1).trans (if_pos rfl)
  · intro v carried
    rw [look] at carried
    have carried := (if_neg unreserved.2).symm.trans carried
    rw [if_neg (by decide)] at carried
    split at carried
    · cases carried
    · obtain ⟨w, kept, rfl⟩ := Option.map_eq_some_iff.1 carried
      obtain ⟨there, full⟩ := Option.filter_eq_some_iff.1 kept
      rcases dated w there with rfl | found
      · cases full
      · exact found

/-- An update that creates what it does not find is safe. What it creates is written over no
document: under a revision given out before the look-up there is none of its id. -/
theorem safe_update (sound : start.Sound) (unreserved : h.Unreserved)
    (given : ∀ values, Mapper.plainData data = .ok values → (Entries.keys values).Nodup ∧
      Dated start.issued values ∧ Unaddressed h values)
    (allowed : ∀ values (w : Attempt), Mapper.plainData data = .ok values →
      (w.accepted = true → ∀ old, w.old = some old →
        h.Merges (idOf h values).text values old w.doc) → permit w) :
    Program.Safe start permit (fun _ _ _ => True) (update h data) start ws := by
  refine Program.safe_ofExcept_bind (fun values plain => ?_) fun e _ => trivial
  obtain ⟨distinct, dated, unaddressed⟩ := given values plain
  cases null : (idOf h values).isNull with
  | true =>
    show Program.Safe start permit _ (if (idOf h values).isNull then created h values else _) _ _
    rw [if_pos null]
    refine safe_created fun t doc w u later made write =>
      allowed values w plain fun accepted old before => ?_
    obtain ⟨id, named, now, carried⟩ := write.overwrote accepted before
    obtain ⟨rev, -, revision⟩ := (later.sound sound).dated _ _ now
    rw [revision] at carried
    exact (not_overwrites_of_null made distinct unreserved null unaddressed named carried).elim
  | false =>
    show Program.Safe start permit _ (if (idOf h values).isNull then created h values else _) _ _
    rw [if_neg (by rw [null]; simp)]
    have merged : Program.Safe start permit (fun t _ r => start.Evolves t ∧
        ∀ f, r = .error f → f.isNotFound = true →
          t.current ⟨h.database, (idOf h values).text⟩ = none)
        (Write.merge h (idOf h values) (.object values)) start ws := by
      refine Write.safe_merge sound unreserved .refl ?_ ?_
      · rintro patch ⟨⟩
        exact ⟨distinct, dated⟩
      · rintro patch w ⟨⟩ merges
        exact allowed values w plain merges
    refine Program.safe_andThen.2 (merged.mono fun t ws r known => ?_)
    obtain ⟨since, absent⟩ := known
    cases r with
    | ok fields => trivial
    | error f =>
      cases missing : f.isNotFound with
      | false =>
        show Program.Safe start permit _ (if f.isNotFound then _ else Program.fail f) _ _
        rw [missing]
        trivial
      | true =>
        show Program.Safe start permit _ (if f.isNotFound then created h values else _) _ _
        rw [missing]
        refine safe_created fun t' doc w u later made write =>
          allowed values w plain fun accepted old before => ?_
        obtain ⟨id, named, now, carried⟩ := write.overwrote accepted before
        obtain ⟨rev, -, revision⟩ := (later.sound (since.sound sound)).dated _ _ now
        obtain ⟨own, issued⟩ := dated_of_id made distinct unreserved null dated
        rw [own] at named
        cases named
        obtain ⟨rev', mem, same⟩ := issued _ (carried.trans revision)
        cases same
        have back := later.untouched (since.issued mem) now revision
        rw [absent f rfl missing] at back
        cases back

end Save

theorem Query.safe_resolve (pageSize : Nat) (filter : Value) (since : start.Evolves s) :
    Program.Safe start permit (fun t _ r => start.Evolves t ∧
      ∀ docs, r = .ok docs → ∀ d ∈ docs, start.Met t h.database d)
      (resolve pageSize h filter none) s ws := by
  have compiled : Program.Safe start permit (fun t _ _ => start.Evolves t)
      (Program.ofNoted (Selector.build h filter)) s ws :=
    Program.safe_ofNoted.2 since
  refine compiled.bind (fun t ws selector since => ?_) fun t ws e since => ⟨since, nofun⟩
  have found : Program.Safe start permit (fun t _ r => start.Evolves t ∧
      ∀ docs, r = .ok docs → ∀ d ∈ docs, start.Met t h.database d)
      (Program.find (Scan.start h.database (ofSelector selector).body pageSize none .null))
      t ws := by
    intro t' later r met
    refine ⟨since.trans later, fun docs same d mem => ?_⟩
    obtain ⟨more, all, each⟩ := met docs same
    rw [all] at mem
    exact each d (by simpa [Scan.start] using mem)
  exact found.bind (fun t ws docs known => known) fun t ws e known => ⟨known.1, nofun⟩

theorem Handle.Patches.get?_eq {patch doc : Fields} {old : String → Option Value}
    (patches : h.Patches patch old doc) {key : String} (absent : Entries.get? patch key = none) :
    Entries.get? doc key = old key := by
  rw [patches, absent]
  exact ite_self _

namespace Bulk

variable {docs : List Value}

theorem safe_send (allowed : ∀ t coded new u, s.Evolves t → Json.encodeItems docs = .ok coded →
      Documents.WritesAll h.database t coded new u → ∀ w ∈ new, permit w) :
    Program.Safe start permit (fun _ _ _ => True) (send h docs) s ws := by
  have asked : Program.Safe start permit (fun _ _ _ => True)
      (Program.request (.bulk h.database docs)) s ws := by
    refine fun t later => ⟨fun f _ => trivial, fun coded a new u form served => ?_⟩
    obtain ⟨items, encoded, rfl⟩ := Except.map_eq_ok.1 form
    cases served with
    | wroteAll writes sound body told =>
      have permitted := allowed t items new u later (Except.mapError_eq_ok.1 encoded) writes
      exact ⟨permitted, fun path => trivial⟩
  refine asked.bind (fun t ws answer _ => ?_) fun t ws e _ => trivial
  split <;> trivial

/-- An update of many documents is safe. Each of them goes back under the revision under which it
was met. -/
theorem safe_update {data : Value} (sound : start.Sound)
    (given : ∀ patch, Mapper.plainData data = .ok patch → (Entries.keys patch).Nodup ∧
      Entries.get? patch "_id" = none ∧ Entries.get? patch "_rev" = none)
    (allowed : ∀ patch (w : Attempt), Mapper.plainData data = .ok patch →
      (w.accepted = true → ∀ old, w.old = some old → h.Patches patch old w.doc) → permit w)
    (pageSize : Nat) (filter : Value) :
    Program.Safe start permit (fun _ _ _ => True) (update pageSize h filter data) start ws := by
  refine Program.Safe.bind (Query.safe_resolve pageSize filter .refl) (fun t ws docs known => ?_)
    fun t ws e _ => trivial
  obtain ⟨since, met⟩ := known
  split
  · trivial
  refine Program.safe_ofExcept_bind (fun stored made => ?_) fun e _ => trivial
  obtain ⟨patch, plain, -⟩ := Except.bind_eq_ok.1 made
  obtain ⟨distinct, unnamed, undated⟩ := given patch plain
  refine Program.safe_ofExcept_bind (fun patched_ each => ?_) fun e _ => trivial
  refine Program.Safe.bind (safe_send ?_) (fun t ws entries (_ : True) => trivial)
    fun t ws e _ => trivial
  intro t' coded new u later form writes w mem
  obtain ⟨doc, s', t'', member, later', write⟩ := writes.write mem
  obtain ⟨v, mem_v, form_v⟩ := Json.mem_encodeItems form member
  obtain ⟨d, mem_d, made_v⟩ := Except.mem_of_mapM each mem_v
  obtain ⟨m, id, since_m, later_m, fields, rfl, table, seen⟩ := met docs rfl d mem_d
  have patches := patches_of_patched table distinct plain made made_v form_v
  refine allowed patch w plain fun accepted old before => ?_
  obtain ⟨id', named, now, carried⟩ := write.overwrote accepted before
  rw [patches.get?_eq unnamed, (since_m.sound sound).named _ _ seen] at named
  cases named
  rw [patches.get?_eq undated] at carried
  have after := (later_m.trans later).trans later'
  rw [write.doc_eq, ← after.unchanged (since_m.sound sound) seen now carried.symm]
  exact patches

end Bulk

end ModelStore
