import ModelStore.Proofs.Index.Stage

/-! A migration that runs to its end with nobody else at the store. It can do so whatever the
design documents hold, and what they hold afterwards can be told from the plan: a design
document that was dropped is empty, any other is as it was, and each index that was added
is in its own one. -/

namespace ModelStore

open Migration Stage

/-- Whether a call can be sent to a site and its answer be taken in. -/
def Site.Reaches (site : Site) (c : Call) : Prop :=
  ∃ q, site.request c = .ok q ∧ q.url.isTyped = true

namespace Designs

theorem indexes_put (s : Designs) (id other : String) (d : Option Design) :
    (s.put id d).indexes other = if other = id then (d.map Design.indexes).getD [] else
      s.indexes other := by
  unfold indexes put
  split <;> rfl

theorem indexes_of_none {s : Designs} {id : String} (absent : s id = none) : s.indexes id = [] := by
  simp [indexes, absent]

/-- A program that runs to its end, the store serving each request that it comes to. -/
inductive Runs {α : Type} (site : Site) :
    Designs → Program α → Designs → Except Fault α → Prop where
  | ended {s : Designs} {program : Program α} {warnings : List Warning} {r : Except Fault α}
      (ends : program.settle (.ok site) = (warnings, .finished r)) : Runs site s program s r
  | served {s t u : Designs} {program : Program α} {warnings : List Warning} {q : Request}
      {go : Reply → Program α} {reply : Reply} {path : String} {a : Answer} {r : Except Fault α}
      (sends : program.settle (.ok site) = (warnings, .sending q go))
      (served : s.Serves q.call a t) (arrives : q.exchange reply = .answered path a)
      (rest : Runs site t (go reply) u r) : Runs site s program u r

namespace Runs

variable {α : Type} {site : Site} {s t : Designs} {program : Program α} {r : Except Fault α}

theorem remarks_iff {warnings : List Warning} :
    Runs site s (warnings.foldr .remark program) t r ↔ Runs site s program t r := by
  cases settled : program.settle (.ok site) with
  | mk others state =>
    constructor
    · intro runs
      cases runs with
      | ended ends =>
        rw [Program.settle_remarks, settled] at ends
        cases ends
        exact .ended settled
      | served sends served arrives rest =>
        rw [Program.settle_remarks, settled] at sends
        cases sends
        exact .served settled served arrives rest
    · intro runs
      have after : (warnings.foldr .remark program).settle (.ok site) =
          (warnings ++ others, state) := by
        rw [Program.settle_remarks, settled]
      cases runs with
      | ended ends =>
        cases settled.symm.trans ends
        exact .ended after
      | served sends served arrives rest =>
        cases settled.symm.trans sends
        exact .served after served arrives rest

theorem of_reaches {u : Designs} {c call : Call} {go : Exchange → Program α} {v : Value}
    (form : c.encode = .ok call) (reaches : site.Reaches c)
    (served : ∀ a : Answer, a.isError = false → a.body = .ok v → s.Serves call a u)
    (rest : ∀ x : Exchange, x.value c = .ok v → Runs site u (go x) t r) :
    Runs site s (.ask c go) t r := by
  obtain ⟨q, request, typed⟩ := reaches
  let a : Answer := ⟨200, none, none, .ok v⟩
  have arrives : q.exchange (.answered a) = .answered q.shownPath a := by
    simp only [Request.exchange, typed, if_true]
    rfl
  have sends : (Program.ask c go).settle (.ok site) =
      ([], .sending q fun reply => go (q.exchange reply)) := by
    simp only [Program.settle, Except.bind, request]
  have call_ : call = q.call := Except.ok.inj (form.symm.trans (Site.request_ok request))
  refine .served sends (call_ ▸ served a rfl rfl) arrives ?_
  rw [arrives]
  exact rest _ (Exchange.value_of_body rfl rfl)

theorem of_done {x : Except Fault α} (runs : Runs site s (.done x) t r) : s = t ∧ x = r := by
  cases runs with
  | ended ends =>
    cases ends
    exact ⟨rfl, rfl⟩
  | served sends => cases sends

theorem of_ask {c : Call} {go : Exchange → Program α} (faulty : Program.Ends go) {b : α}
    (runs : Runs site s (.ask c go) t (.ok b)) :
    ∃ call a path u, c.encode = .ok call ∧ s.Serves call a u ∧
      Runs site u (go (.answered path a)) t (.ok b) := by
  cases runs with
  | ended ends =>
    obtain ⟨f, wrong⟩ := faulty.finished ends
    cases wrong
  | served sends served arrives rest =>
    obtain ⟨form, next⟩ := faulty.sending sends
    rw [next, arrives] at rest
    exact ⟨_, _, _, _, form, served, rest⟩

end Runs

variable {h : Handle} {site : Site} {s t : Designs} {p p' : IndexPlan} {drop : List String}
  {add : Entries Candidate}

theorem Runs.of_drop {design : String} (own : designId design = design)
    (runs : Runs site s (finish h p (design :: drop) add) t (.ok p')) :
    ∃ u, Runs site u (finish h p drop add) t (.ok p') ∧
      ∀ id, u.indexes id = if id = design then [] else s.indexes id := by
  rw [finish_drop, own] at runs
  obtain ⟨call, a, path, u, form, served, rest⟩ := runs.of_ask ends_sought
  cases form
  obtain ⟨rfl, ⟨rev, next⟩ | ⟨absent, next⟩ | ⟨f, next⟩⟩ := sought_cases served path h p drop add
  · rw [next, deleting, own] at rest
    obtain ⟨call, a, path, v, form, served, rest⟩ := rest.of_ask ends_deleted
    cases form
    obtain ⟨gone, others, next⟩ | ⟨-, f, next⟩ := deleted_cases served path h p drop add
    · refine ⟨v, next ▸ rest, fun id => ?_⟩
      split
      · subst id
        exact indexes_of_none gone
      · rename_i other
        simp only [indexes, others id other]
    · cases (next ▸ rest).of_done.2
  · refine ⟨u, next ▸ rest, fun id => ?_⟩
    split
    · subst id
      exact indexes_of_none absent
    · rfl
  · cases (next ▸ rest).of_done.2

theorem Runs.of_drops (own : ∀ design ∈ drop, designId design = design)
    (runs : Runs site s (finish h p drop add) t (.ok p')) :
    ∃ u, Runs site u (finish h p [] add) t (.ok p') ∧
      ∀ id, u.indexes id = if id ∈ drop then [] else s.indexes id := by
  induction drop generalizing s with
  | nil => exact ⟨s, runs, by simp⟩
  | cons design rest ih =>
    obtain ⟨u, runs, first⟩ := runs.of_drop (own design List.mem_cons_self)
    obtain ⟨v, runs, others⟩ := ih (fun d mem => own d (List.mem_cons_of_mem _ mem)) runs
    refine ⟨v, runs, fun id => ?_⟩
    rw [others, first]
    by_cases same : id = design <;> simp [same]

theorem Runs.of_add {e : String × Candidate} (mem : e ∈ h.candidates)
    (runs : Runs site s (finish h p [] (e :: add)) t (.ok p')) :
    ∃ u, Runs site u (finish h p [] add) t (.ok p') ∧
      ∀ id, u.indexes id = if id = h.indexDesign e.1 then
        Entries.set (s.indexes id) e.1 (.array (e.2.fields.map IndexField.toValue))
      else s.indexes id := by
  rw [finish_add] at runs
  obtain ⟨call, a, path, u, form, served, rest⟩ := runs.of_ask ends_created
  rw [Candidate.encode_toRequest] at form
  cases form
  obtain ⟨named, design⟩ := Handle.of_mem_candidates mem
  obtain ⟨rev, rfl, next | ⟨f, next⟩⟩ | ⟨-, f, next⟩ := created_cases served path h p add
  · refine ⟨_, next ▸ rest, fun id => ?_⟩
    rw [designId_design mem, design, named, indexes_put]
    split
    · subst id
      rfl
    · rfl
  · cases (next ▸ rest).of_done.2
  · cases (next ▸ rest).of_done.2

theorem Runs.of_adds (wanted : ∀ e ∈ add, e ∈ h.candidates) (distinct : (Entries.keys add).Nodup)
    (runs : Runs site s (finish h p [] add) t (.ok p')) :
    p = p' ∧ ∀ place, t.indexes (h.indexDesign place) =
      (Entries.get? add place).elim (s.indexes (h.indexDesign place)) fun c =>
        Entries.set (s.indexes (h.indexDesign place)) place
          (.array (c.fields.map IndexField.toValue)) := by
  induction add generalizing s with
  | nil =>
    obtain ⟨rfl, same⟩ := runs.of_done
    cases same
    exact ⟨rfl, fun _ => rfl⟩
  | cons e rest ih =>
    obtain ⟨u, runs, first⟩ := runs.of_add (wanted e List.mem_cons_self)
    rw [Entries.keys_cons, List.nodup_cons] at distinct
    obtain ⟨rfl, others⟩ := ih (fun d mem => wanted d (List.mem_cons_of_mem _ mem)) distinct.2 runs
    refine ⟨rfl, fun place => ?_⟩
    obtain ⟨key, c⟩ := e
    rw [others, first, Entries.get?_cons]
    by_cases same : key = place
    · subst same
      rw [Entries.get?_eq_none.2 distinct.1, if_pos rfl, if_pos rfl]
      rfl
    · rw [if_neg (mt Handle.indexDesign_inj.1 (Ne.symm same)), if_neg same]

theorem exists_adds (reaches : ∀ e ∈ add, site.Reaches (.createIndex h.database e.2.toRequest)) :
    ∃ t, Runs site s (finish h p [] add) t (.ok p) := by
  induction add generalizing s with
  | nil => exact ⟨s, .ended rfl⟩
  | cons e rest ih =>
    let made : Designs := s.put (designId e.2.design) (some ⟨"1-a",
      Entries.set (s.indexes (designId e.2.design)) e.2.name
        (.array (e.2.fields.map IndexField.toValue))⟩)
    obtain ⟨t, runs⟩ := ih (s := made) fun d mem => reaches d (List.mem_cons_of_mem _ mem)
    refine ⟨t, ?_⟩
    rw [finish_add]
    refine .of_reaches (u := made) (v := .null) (Candidate.encode_toRequest _ _)
      (reaches e List.mem_cons_self) (fun a sound _ => .created ⟨_, rfl, rfl, rfl, rfl⟩ sound)
      fun x value => ?_
    rw [value]
    exact runs

theorem exists_drops (distinct : drop.Nodup) (own : ∀ design ∈ drop, designId design = design)
    (reaches : ∀ design ∈ drop, ∃ d, s design = some d ∧
      site.Reaches (.get h.database design) ∧
      site.Reaches (.delete h.database design (.str d.rev)))
    (goes : ∀ u, ∃ t, Runs site u (finish h p [] add) t (.ok p)) :
    ∃ t, Runs site s (finish h p drop add) t (.ok p) := by
  induction drop generalizing s with
  | nil => exact goes s
  | cons design rest ih =>
    obtain ⟨d, here, get, delete⟩ := reaches design List.mem_cons_self
    obtain ⟨fresh, distinct⟩ := List.nodup_cons.1 distinct
    have reaches' : ∀ other ∈ rest, ∃ d, s.put design none other = some d ∧
        site.Reaches (.get h.database other) ∧
        site.Reaches (.delete h.database other (.str d.rev)) := by
      intro other mem
      have apart : other ≠ design := fun same => fresh (same ▸ mem)
      rw [put, if_neg apart]
      exact reaches other (List.mem_cons_of_mem _ mem)
    obtain ⟨t, runs⟩ := ih (s := s.put design none) distinct
      (fun other mem => own other (List.mem_cons_of_mem _ mem)) reaches'
    refine ⟨t, ?_⟩
    rw [finish_drop, own design List.mem_cons_self]
    refine .of_reaches (v := .object [("_rev", .str d.rev)]) rfl get
      (fun a sound body => .found here sound body rfl) fun x value => ?_
    rw [value]
    show Runs site s (deleting h p design (.str d.rev) rest add) t (.ok p)
    rw [deleting, own design List.mem_cons_self]
    refine .of_reaches (v := .null) rfl delete (fun a sound _ => .deleted here sound)
      fun x value => ?_
    rw [value]
    exact runs

end Designs

/-- What the design document of a place holds once a plan has been carried out. -/
def IndexPlan.leaves (p : IndexPlan) (h : Handle) (s : Designs) (place : String) :
    Entries Value :=
  let left := if h.indexDesign place ∈ designs p.drop then [] else s.indexes (h.indexDesign place)
  (Entries.get? p.add place).elim left fun c =>
    Entries.set left place (.array (c.fields.map IndexField.toValue))

/-- A migration that ends without a fault has carried out a plan made from a listing. -/
theorem Designs.Runs.of_migrate {h : Handle} {site : Site} {s t : Designs} {p : IndexPlan}
    {rebuild : Bool} (readable : s.Readable h)
    (runs : s.Runs site (migrate h rebuild) t (.ok p)) :
    ∃ entries table, s.Lists entries ∧ s.Counts h table ∧
      ListedIndex.listOwned Naming.default h.name entries = .ok (h.ownListing table) ∧
      p = IndexPlan.of h.candidates (h.ownListing table) rebuild ∧
      ∀ place, t.indexes (h.indexDesign place) = p.leaves h s place := by
  rw [migrate_eq] at runs
  obtain ⟨call, a, path, u, form, served, rest⟩ := runs.of_ask ends_listed
  cases form
  cases served with
  | failed failed other =>
    rw [Exchange.value_of_failed failed] at rest
    cases rest.of_done.2
  | listed sound body listing lists =>
    rw [Exchange.value_of_body sound body] at rest
    obtain ⟨table, p', counts, owned, plan, next⟩ := exists_table readable rebuild listing lists
    rw [next] at rest
    have own : ∀ design ∈ designs p'.drop, designId design = design := by
      intro design mem
      rw [plan] at mem
      obtain ⟨-, i, -, rfl⟩ := IndexPlan.of_mem_drop h.nodup_candidates counts.distinct mem
      exact designId_indexDesign h i.place
    have adds : p'.add.Sublist h.candidates :=
      plan ▸ IndexPlan.add_sublist h.nodup_candidates rebuild
    have distinct : (Entries.keys p'.add).Nodup := h.nodup_candidates.sublist (adds.map _)
    obtain ⟨v, rest, dropped⟩ := (remarks_iff.1 rest).of_drops own
    obtain ⟨rfl, added⟩ := rest.of_adds (fun e mem => adds.subset mem) distinct
    refine ⟨_, table, lists, counts, owned, plan, fun place => ?_⟩
    rw [added, dropped]
    rfl

namespace Designs

variable {h : Handle} {site : Site} {s : Designs}

/-- Whether a site reaches the store with the calls of a model's migrations. -/
structure Reached (s : Designs) (h : Handle) (site : Site) : Prop where
  list : site.Reaches (.listIndexes h.database)
  get : ∀ place d, s (h.indexDesign place) = some d →
    site.Reaches (.get h.database (h.indexDesign place))
  delete : ∀ place d, s (h.indexDesign place) = some d →
    site.Reaches (.delete h.database (h.indexDesign place) (.str d.rev))
  create : ∀ e ∈ h.candidates, site.Reaches (.createIndex h.database e.2.toRequest)

/-- Whatever indexes there are, a migration can run to its end. -/
theorem Lists.exists_runs {entries : List Value} (lists : s.Lists entries) (readable : s.Readable h)
    (reached : s.Reached h site) (rebuild : Bool) :
    ∃ t p, s.Runs site (migrate h rebuild) t (.ok p) := by
  let listing : Fields := [("indexes", .array entries)]
  have given : Entries.get? listing "indexes" = some (.array entries) := rfl
  obtain ⟨table, p, counts, -, plan, next⟩ := exists_table readable rebuild given lists
  have drops : ∀ design ∈ designs p.drop, designId design = design ∧ ∃ d, s design = some d ∧
      site.Reaches (.get h.database design) ∧
      site.Reaches (.delete h.database design (.str d.rev)) := by
    intro design mem
    rw [plan] at mem
    obtain ⟨name, i, counted, rfl⟩ := IndexPlan.of_mem_drop h.nodup_candidates counts.distinct mem
    obtain ⟨raw, held, -⟩ := counts.held name i counted
    cases here : s (h.indexDesign i.place) with
    | none =>
      rw [indexes_of_none here] at held
      cases held
    | some d =>
      exact ⟨designId_indexDesign h i.place, d, rfl, reached.get i.place d here,
        reached.delete i.place d here⟩
  have adds : p.add.Sublist h.candidates :=
    plan ▸ IndexPlan.add_sublist h.nodup_candidates rebuild
  have distinct : (designs p.drop).Nodup := Listing.nodup_eraseDups _
  obtain ⟨t, runs⟩ := exists_drops (p := p) distinct (fun design mem => (drops design mem).1)
    (fun design mem => (drops design mem).2)
    fun u => exists_adds (s := u) fun e mem => reached.create e (adds.subset mem)
  refine ⟨t, p, ?_⟩
  rw [migrate_eq]
  refine .of_reaches (v := .object listing) rfl reached.list
    (fun a sound body => .listed sound body given lists) fun x value => ?_
  rw [value, next]
  exact Runs.remarks_iff.2 runs

end Designs

end ModelStore
