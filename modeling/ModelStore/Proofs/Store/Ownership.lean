import ModelStore.Proofs.Store.Sparing
import ModelStore.Store.Read

/-! What calls find by the selector of a model, and what they then delete or write. All of it is
the model's own, if the mark of the model is read as the name of a field. Patches leave it
where it is, unless they have an `_id`; then it is taken over another document only if the
revisions of the two are the same. -/

namespace ModelStore

open Selector (Search isDotted isOperator)

variable {search : Search} {held : Documents → Prop} {permit : Call → Prop} {h : Handle}
  {mark : String} {p : Place} {c : Content} {aimed : Prop} {d : Value}

/-- A document of the model as it was found in documents of which something holds. -/
def Handle.Found (h : Handle) (held : Documents → Prop) (d : Value) : Prop :=
  ∃ s id fields, held s ∧ d = .object fields ∧ Json.Table fields ∧
    s.current ⟨h.database, id⟩ = some (Entries.get? fields) ∧ h.Owns (Entries.get? fields)

theorem Documents.Finds.of_selector_only {s : Documents} {db : String} {selector : Fields}
    (found : s.Finds search db (Query.ofSelector selector).body d) :
    ∃ id coded doc, s.Shows ⟨db, id⟩ d ∧ Json.encodeFields selector = .ok coded ∧
      d = .object doc ∧ Selector.meets search coded doc = true := by
  obtain ⟨id, v, sent, doc, shown, asked, form, same, met⟩ := found
  have whole : v = .object selector := (Option.some.inj asked).symm
  subst whole
  obtain ⟨coded, form, shape⟩ := Except.map_eq_ok.1 form
  cases shape
  exact ⟨id, sent, doc, shown, form, same, met⟩

theorem IdOrder.mem_of_sortEntries {docs sorted entries : List Value}
    (order : sortEntries docs entries = .ok sorted) {d : Value} (mem : d ∈ sorted) : d ∈ docs := by
  induction entries generalizing docs with
  | nil =>
    cases order
    exact mem
  | cons entry rest ih =>
    rw [sortEntries, List.foldlM_cons] at order
    obtain ⟨next, first, order⟩ := Except.bind_eq_ok.1 order
    have there : d ∈ next := ih order
    obtain ⟨direction, -, first⟩ := Except.bind_eq_ok.1 first
    cases direction with
    | none =>
      cases first
      exact there
    | some direction =>
      obtain ⟨numbered, each, rfl⟩ := Except.map_eq_ok.1 first
      obtain ⟨n, placed, rfl⟩ := List.mem_map.1 there
      obtain ⟨v, member, same⟩ := Except.mem_of_mapM each (List.mem_mergeSort.1 placed)
      obtain ⟨number, -, rfl⟩ := Except.map_eq_ok.1 same
      exact member

theorem Query.sends_fetch (db : String) (w : Window) (numericId : Bool) (body : Fields) :
    (fetch db w numericId body).Sends search held permit fun r =>
      ∀ docs, r = .ok docs → ∀ d ∈ docs, ∃ s, held s ∧ s.Finds search db body d := by
  refine Program.sends_ofExcept_bind (fun l _ => ?_) fun e _ => nofun
  have scanned : (Program.find (Scan.start db body w.pageSize l w.offset)).Sends search held permit
      fun r => ∀ docs, r = .ok docs → ∀ d ∈ docs, ∃ s, held s ∧ s.Finds search db body d := by
    intro r found docs same d mem
    obtain ⟨more, rfl, each⟩ := found docs same
    obtain ⟨s, here, met⟩ := each d (by simpa [Scan.start] using mem)
    refine ⟨s, here, met.of_selector ?_⟩
    simp only [Scan.start]
    split
    · rw [Entries.get?_set_ne _ _ (by decide), Entries.get?_erase_ne _ (by decide)]
    · rw [Entries.get?_erase_ne _ (by decide)]
  refine scanned.bind (fun docs known => ?_) fun e _ => nofun
  show Program.Sends search held permit _ (if _ then _ else _)
  split
  · intro sorted order d mem
    obtain ⟨entries, -, order⟩ := Except.bind_eq_ok.1 order
    exact known docs rfl d (IdOrder.mem_of_sortEntries order mem)
  · exact known

theorem Query.sends_search (pageSize : Nat) (filter : Value) (limit : Option Nat) :
    (resolve pageSize h filter limit).Sends search held permit fun r =>
      ∀ docs, r = .ok docs → ∀ d ∈ docs, ∃ selector s,
        (Selector.build h filter).outcome = .ok selector ∧ held s ∧
          s.Finds search h.database (ofSelector selector).body d := by
  have compiled : (Program.ofNoted (Selector.build h filter)).Sends search held permit fun r =>
      r = (Selector.build h filter).outcome :=
    Program.sends_ofNoted.2 rfl
  refine compiled.bind (fun selector built => ?_) fun e _ => nofun
  refine (sends_fetch _ _ _ (ofSelector selector).body).mono fun r found docs same d mem => ?_
  obtain ⟨s, here, met⟩ := found docs same d mem
  exact ⟨selector, s, built.symm, here, met⟩

theorem Read.sends_documents (settings : Settings) (criteria : Criteria) (useIndex : Value) :
    (documents settings h criteria useIndex).Sends search held permit fun r =>
      ∀ docs, r = .ok docs → ∀ d ∈ docs, ∃ q s,
        (query h criteria useIndex).outcome = .ok q ∧ held s ∧
          s.Finds search h.database q.body d := by
  have asked : (Program.ofNoted (query h criteria useIndex)).Sends search held permit fun r =>
      r = (query h criteria useIndex).outcome :=
    Program.sends_ofNoted.2 rfl
  refine asked.bind (fun q made => ?_) fun e _ => nofun
  refine (Query.sends_fetch _ _ _ q.body).mono fun r found docs same d mem => ?_
  obtain ⟨s, here, met⟩ := found docs same d mem
  exact ⟨q, s, made.symm, here, met⟩

/-- A read of an id by the selector of the model searches for one document. -/
def Read.criteriaOfId (h : Handle) (id : Value) : Criteria :=
  ⟨.object [(h.idName, id)], .null, .null, .int 1, .null⟩

theorem Query.sends_resolve (own : h.modelSelector = none) (marked : h.mark? = some mark)
    (undotted : isDotted mark = false) (field : isOperator mark = false) (pageSize : Nat)
    (filter : Value) (limit : Option Nat) :
    (resolve pageSize h filter limit).Sends search held permit fun r =>
      ∀ docs, r = .ok docs → ∀ d ∈ docs, h.Found held d := by
  refine (sends_search pageSize filter limit).mono fun r found docs same d mem => ?_
  obtain ⟨selector, s, built, here, met⟩ := found docs same d mem
  obtain ⟨id, coded, doc, ⟨fields, shape, table, there⟩, form, same', asked⟩ :=
    met.of_selector_only
  cases shape
  cases same'
  exact ⟨s, id, doc, here, rfl, table, there, mark, marked,
    Selector.carries_of_build own marked undotted field built form asked⟩

theorem Handle.Found.apart (other : ¬h.Owns c)
    (found : h.Found (Documents.Keeping h p c aimed) d) :
    ∃ fields id, d = .object fields ∧ Json.Table fields ∧
      Entries.get? fields "_id" = some (.str id) ∧ (⟨h.database, id⟩ : Place) ≠ p ∧
      (aimed → Entries.get? fields "_rev" ≠ c "_rev") := by
  obtain ⟨s, id, fields, keeping, rfl, table, there, owned⟩ := found
  refine ⟨fields, id, rfl, table, keeping.sound.named _ _ there, fun same => ?_,
    fun aims => keeping.unlike aims _ _ there owned⟩
  rw [same, keeping.here] at there
  cases there
  exact other owned

theorem Write.eq_str_of_idText {v : Value} {name : String} (h : Write.idText v = .ok name) :
    v = .str name := by
  unfold Write.idText at h
  split at h
  · cases h
    rfl
  · cases h

namespace Remove

theorem makes_document (permitted : ∀ id rev, d.required "_id" = .ok (.str id) →
    permit (.delete h.database id rev)) :
    (document h d).Makes search held permit := by
  refine Program.makes_ofExcept_bind fun v required => ?_
  refine Program.makes_ofExcept_bind fun rev _ => ?_
  refine Program.makes_ofExcept_bind fun name text => ?_
  rw [Write.eq_str_of_idText text] at required
  refine (Program.makes_request fun call form => ?_).retell _
  cases form
  exact permitted name rev required

variable {pageSize : Nat} {P : Value → Prop}

theorem makes_one {id : Value} (finds : (Query.resolve pageSize h (.object [(h.idName, id)])
      none).Sends search held permit fun r => ∀ docs, r = .ok docs → ∀ d ∈ docs, P d)
    (permitted : ∀ d, P d → ∀ id rev, d.required "_id" = .ok (.str id) →
      permit (.delete h.database id rev)) : (one pageSize h id).Makes search held permit := by
  refine finds.bind (fun docs found => ?_) fun e _ => trivial
  match docs with
  | [] => trivial
  | [doc] =>
    have known := found _ rfl doc List.mem_cons_self
    refine (makes_document (permitted doc known)).bind fun answer => ?_
    exact Program.makes_ofExcept_bind fun confirmed _ => trivial
  | _ :: _ :: _ => trivial

theorem makes_all {filter : Value} {limit : Option Nat}
    (finds : (Query.resolve pageSize h filter limit).Sends search held permit fun r =>
      ∀ docs, r = .ok docs → ∀ d ∈ docs, P d)
    (permitted : ∀ d, P d → ∀ id rev, d.required "_id" = .ok (.str id) →
      permit (.delete h.database id rev)) :
    (all pageSize limit h filter).Makes search held permit := by
  refine finds.bind (fun docs found => ?_) fun e _ => trivial
  have deletes : (Program.collect (docs.map (document h))).Makes search held permit := by
    refine Program.sends_collect fun q mem => ?_
    obtain ⟨doc, member, rfl⟩ := List.mem_map.1 mem
    exact makes_document (permitted doc (found docs rfl doc member))
  refine deletes.bind fun outcomes => ?_
  exact Program.makes_ofExcept_bind fun t _ => trivial

theorem spared_of_found (other : ¬h.Owns c) (d : Value)
    (found : h.Found (Documents.Keeping h p c aimed) d) (name : String) (rev : Value)
    (required : d.required "_id" = .ok (.str name)) :
    (Call.delete h.database name rev).Spares p c := by
  obtain ⟨fields, id, rfl, table, named, apart, -⟩ := found.apart other
  simp only [Value.required, named] at required
  cases required
  exact apart

variable (own : h.modelSelector = none) (marked : h.mark? = some mark)
  (undotted : isDotted mark = false) (field : isOperator mark = false) (other : ¬h.Owns c)

include own marked undotted field other

theorem spares_one (pageSize : Nat) (id : Value) :
    (one pageSize h id).Spares search (Documents.Keeping h p c aimed) p c :=
  makes_one (Query.sends_resolve own marked undotted field pageSize _ none)
    (spared_of_found other)

theorem spares_all (pageSize : Nat) (limit : Option Nat) (filter : Value) :
    (all pageSize limit h filter).Spares search (Documents.Keeping h p c aimed) p c :=
  makes_all (Query.sends_resolve own marked undotted field pageSize filter limit)
    (spared_of_found other)

end Remove

namespace Bulk

variable {data : Value} {fields patch : Fields}

theorem get?_patched {v : Value} (made : patched patch (.object fields) = .ok v) :
    ∃ doc, v = .object doc ∧ ∀ key,
      key ∉ Entries.keys patch ∧ Entries.get? doc key = Entries.get? fields key ∨
      ∃ w, (key, w) ∈ patch ∧ Entries.get? doc key = if w.isNull then none else some w := by
  induction patch generalizing fields with
  | nil =>
    cases made
    exact ⟨fields, rfl, fun key => .inl ⟨by simp [Entries.keys], rfl⟩⟩
  | cons e rest ih =>
    obtain ⟨name, w⟩ := e
    rw [patched, List.foldlM_cons] at made
    obtain ⟨d, first, made⟩ := Except.bind_eq_ok.1 made
    cases first
    obtain ⟨doc, rfl, look⟩ := ih made
    refine ⟨doc, rfl, fun key => ?_⟩
    rcases look key with ⟨absent, same⟩ | ⟨u, mem, same⟩
    · rw [same]
      by_cases here : name = key
      · subst here
        refine .inr ⟨w, List.mem_cons_self, ?_⟩
        cases null : w.isNull <;> simp
      · refine .inl ⟨?_, ?_⟩
        · rw [Entries.keys_cons]
          exact List.not_mem_cons_of_ne_of_not_mem (Ne.symm here) absent
        · cases null : w.isNull
          · simp [Entries.get?_set_ne _ _ here]
          · simp [Entries.get?_erase_ne _ here]
    · exact .inr ⟨u, List.mem_cons_of_mem _ mem, same⟩

theorem of_mem_patchOf (made : patchOf h data = .ok patch) {key : String} {w : Value}
    (mem : (key, w) ∈ patch) : ∃ source v, Mapper.plainData data = .ok source ∧
      (key, v) ∈ source ∧ key ≠ h.idName ∧ w = v.stored := by
  obtain ⟨source, plain, -⟩ := Except.bind_eq_ok.1 made
  rw [patchOf_ok plain made] at mem
  obtain ⟨v, kept, same⟩ := Value.mem_storedFields mem
  obtain ⟨mem, apart⟩ := List.mem_filter.1 kept
  exact ⟨source, v, plain, mem, by simpa using apart, same⟩

/-- A document of the model, with a patch in it, is sent to the place where it was found, or to
one that is aimed at. -/
theorem spared_of_patched (foreign : h.Foreign p c)
    (found : h.Found (Documents.Keeping h p c aimed) d) (patch_ : patchOf h data = .ok patch)
    (undated : ∀ fields, Mapper.plainData data = .ok fields → h.Undated fields)
    (aims : ∀ source v, Mapper.plainData data = .ok source → ("_id", v) ∈ source →
      h.idName ≠ "_id" → v.stored = .str p.id → h.database = p.database → aimed)
    {v : Value} (made : patched patch d = .ok v) {coded : Fields}
    (form : Json.encode v = .ok (.object coded)) : p.Spared c h.database coded := by
  obtain ⟨fields, id, rfl, table, named, apart, unlike⟩ := found.apart foreign.other
  obtain ⟨doc, rfl, look⟩ := get?_patched made
  obtain ⟨ws, form, same⟩ := Except.map_eq_ok.1 form
  cases same
  -- A text that is sent is the document's own or the patch's.
  have sent : ∀ key s, Entries.get? coded key = some (.str s) →
      Entries.get? fields key = some (.str s) ∨ ∃ source u, Mapper.plainData data = .ok source ∧
        (key, u) ∈ source ∧ key ≠ h.idName ∧ u.stored = .str s := by
    intro key s here
    obtain ⟨u, there, text⟩ := Json.of_get?_encodeFields form here
    rw [Json.eq_str_of_encode text] at there
    rcases look key with ⟨-, same⟩ | ⟨w, mem, same⟩
    · exact .inl (same.symm.trans there)
    · obtain ⟨source, x, plain, member, other, rfl⟩ := of_mem_patchOf patch_ mem
      refine .inr ⟨source, x, plain, member, other, ?_⟩
      rw [there] at same
      split at same
      · cases same
      · exact (Option.some.inj same).symm
  intro place here
  rcases sent "_id" p.id here with same | ⟨source, u, plain, mem, other, text⟩
  · have same : id = p.id := by
      rw [named] at same
      simpa using same
    exact absurd (by rw [same, place]) apart
  · have aimed_ := aims source u plain mem other.symm text place
    obtain ⟨rev, dated⟩ := foreign.dated
    rw [dated]
    intro carried
    rcases sent "_rev" rev carried with same | ⟨source', u', plain', mem', other', text'⟩
    · exact unlike aimed_ (same.trans dated.symm)
    · have null := undated source' plain' other'.symm u' mem'
      rw [Value.eq_null_of_isNull null] at text'
      cases text'

theorem spares_replace (foreign : h.Foreign p c)
    (undated : ∀ items item fields, data.members = .ok items → item ∈ items →
      Mapper.plainData item = .ok fields → h.Undated fields) :
    (replace h data).Spares search held p c := by
  refine makes_replace fun items docs given made doc mem => ?_
  obtain ⟨_, member, same⟩ := List.mem_map.1 mem
  cases same
  obtain ⟨item, mem_item, whole⟩ := Except.mem_of_mapM made member
  exact foreign.spared whole (fun fields => undated items item fields given mem_item) _

theorem spares_update (own : h.modelSelector = none) (marked : h.mark? = some mark)
    (undotted : isDotted mark = false) (field : isOperator mark = false) (foreign : h.Foreign p c)
    (undated : ∀ fields, Mapper.plainData data = .ok fields → h.Undated fields)
    (aims : ∀ source v, Mapper.plainData data = .ok source → ("_id", v) ∈ source →
      h.idName ≠ "_id" → v.stored = .str p.id → h.database = p.database → aimed)
    (pageSize : Nat) (filter : Value) :
    (update pageSize h filter data).Spares search (Documents.Keeping h p c aimed) p c := by
  rw [update_eq]
  refine (Query.sends_resolve own marked undotted field pageSize filter none).bind
    (fun docs found => ?_) fun e _ => trivial
  refine makes_amend fun back coded made form doc mem => ?_
  obtain ⟨patch, patch_, each⟩ := Except.bind_eq_ok.1 made
  obtain ⟨v, member, encoded⟩ := Json.mem_encodeItems form mem
  obtain ⟨d, member, made⟩ := Except.mem_of_mapM each member
  exact spared_of_patched foreign (found docs rfl d member) patch_ undated aims made encoded

end Bulk

end ModelStore
