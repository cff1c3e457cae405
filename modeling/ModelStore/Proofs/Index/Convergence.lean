import Mathlib.Logic.Relation
import ModelStore.Proofs.Index.Stage
import ModelStore.Proofs.Store.Shop

/-! Any number of updates of one model's indexes, in one database at the same time. The store
serves one request after the other, of whichever update it likes; new updates begin at any
time, and any of them may be cut off between two requests. An update that is cut off may
leave dropped what it should have added again, but what it left is seen by every update
that lists the indexes later. -/

namespace ModelStore

open Migration Stage

/-- An update in progress, with the site it sends its requests to, whether it was cut off, and
how many were cut off before it began. -/
structure Update where
  site : Site
  program : Program IndexPlan
  cut : Bool
  began : Nat

def Update.Ended (u : Update) (r : Except Fault IndexPlan) : Prop :=
  ∃ warnings, u.program.settle (.ok u.site) = (warnings, .finished r)

/-- The design documents of a database, the updates that use it, and how many were cut off. -/
structure Rollout where
  store : Designs
  updates : List Update
  cuts : Nat

namespace Rollout

def idle (s : Designs) : Rollout := ⟨s, [], 0⟩

/-- What happens: an update begins, the store serves the request that an update has come to and
the update goes on with the answer, or an update is cut off. -/
inductive Step (h : Handle) : Rollout → Rollout → Prop where
  | begin {w : Rollout} {site : Site} :
      Step h w { w with updates := w.updates ++ [⟨site, migrate h false, false, w.cuts⟩] }
  | serve {w : Rollout} {i : Nat} {u : Update} {warnings : List Warning} {q : Request}
      {go : Reply → Program IndexPlan} {reply : Reply} {path : String} {a : Answer} {t : Designs}
      (here : w.updates[i]? = some u) (active : u.cut = false)
      (sends : u.program.settle (.ok u.site) = (warnings, .sending q go))
      (served : w.store.Serves q.call a t) (arrives : q.exchange reply = .answered path a) :
      Step h w ⟨t, w.updates.set i { u with program := go reply }, w.cuts⟩
  | cut {w : Rollout} {i : Nat} {u : Update} (here : w.updates[i]? = some u)
      (active : u.cut = false) :
      Step h w ⟨w.store, w.updates.set i { u with cut := true }, w.cuts + 1⟩

variable {h : Handle} {w : Rollout} {i : Nat} {u : Update} {t : Designs}

/-- Whether some active update still has such things to drop and to add. -/
def Pending (h : Handle) (w : Rollout) (P : List String → Entries Candidate → Prop) : Prop :=
  ∃ (i : Nat) (u : Update) (drop : List String) (add : Entries Candidate),
    w.updates[i]? = some u ∧ u.cut = false ∧ At h (.working drop add) u.program ∧ P drop add

structure Due (h : Handle) (w : Rollout) : Prop where
  missing : ∀ e ∈ h.candidates, w.store.Fits e.2 ∨ w.Pending h fun _ add => e ∈ add
  orphans : ∀ name ∉ Entries.keys h.candidates,
    w.store (h.indexDesign name) = none ∨ w.Pending h fun drop _ => h.indexDesign name ∈ drop

/-- An active update that began after the last cut has read the listing. -/
def Planned (h : Handle) (w : Rollout) : Prop :=
  ∃ (i : Nat) (u : Update), w.updates[i]? = some u ∧ u.cut = false ∧ u.began = w.cuts ∧
    u.program ≠ migrate h false

def Unfailed (h : Handle) (w : Rollout) : Prop :=
  ∀ (i : Nat) (u : Update), w.updates[i]? = some u → u.cut = false → ¬At h .failed u.program

/-- What holds at any time. -/
structure Consistent (h : Handle) (w : Rollout) : Prop where
  tidy : w.store.Tidy h
  begun : ∀ (i : Nat) u, w.updates[i]? = some u → u.began ≤ w.cuts
  stages : ∀ (i : Nat) u, w.updates[i]? = some u → u.cut = false → ∃ stage, At h stage u.program
  due : w.Planned h → w.Unfailed h → w.Due h

theorem getElem?_set_iff {v x : Update} (here : w.updates[i]? = some u) {j : Nat} :
    (w.updates.set i v)[j]? = some x ↔ (j = i ∧ x = v) ∨ (j ≠ i ∧ w.updates[j]? = some x) := by
  have bound := (List.getElem?_eq_some_iff.1 here).1
  rw [List.getElem?_set]
  by_cases same : i = j
  · subst same
    simp [bound, eq_comm]
  · simp [same, Ne.symm same]

/-- What every stage of an update comes to when it is served, if it is not to fail. -/
def Advances (h : Handle) (s t : Designs) (program next : Program IndexPlan) : Prop :=
  ∀ stage, At h stage program →
    ∃ stage', At h stage' next ∧ Moves h s stage stage' t ∧ stage' ≠ .failed

variable {next : Program IndexPlan}

theorem Pending.cases {P : List String → Entries Candidate → Prop} (pending : w.Pending h P)
    (here : w.updates[i]? = some u) :
    (∃ drop add, At h (.working drop add) u.program ∧ P drop add) ∨
      ∀ s v n, Pending h ⟨s, w.updates.set i v, n⟩ P := by
  obtain ⟨j, x, drop, add, there, active, stands, holds⟩ := pending
  by_cases same : j = i
  · subst same
    rw [here] at there
    cases there
    exact .inl ⟨drop, add, stands, holds⟩
  · exact .inr fun s v n =>
      ⟨j, x, drop, add, (getElem?_set_iff here).2 (.inr ⟨same, there⟩), active, stands, holds⟩

theorem Due.served (due : w.Due h) (here : w.updates[i]? = some u) (active : u.cut = false)
    (advances : Advances h w.store t u.program next) {stage : Stage}
    (stands : At h stage u.program) :
    Due h ⟨t, w.updates.set i { u with program := next }, w.cuts⟩ := by
  have pending {P : List String → Entries Candidate → Prop} {drop : List String}
      {add : Entries Candidate} (stands : At h (.working drop add) next) (holds : P drop add) :
      Pending h ⟨t, w.updates.set i { u with program := next }, w.cuts⟩ P :=
    ⟨i, _, drop, add, (getElem?_set_iff here).2 (.inl ⟨rfl, rfl⟩), active, stands, holds⟩
  obtain ⟨stage', stands', moves, sound⟩ := advances stage stands
  constructor
  · intro e mem
    rcases due.missing e mem with fits | awaited
    · rcases moves.fits stands sound mem fits with fits | ⟨drop, add, rfl, mem⟩
      · exact .inl fits
      · exact .inr (pending stands' mem)
    · rcases awaited.cases here with ⟨drop, add, stands, mem⟩ | other
      · obtain ⟨stage', stands', moves, sound⟩ := advances _ stands
        rcases moves.to_add sound mem with fits | ⟨drop, add, rfl, mem⟩
        · exact .inl fits
        · exact .inr (pending stands' mem)
      · exact .inr (other _ _ _)
  · intro name unwanted
    rcases due.orphans name unwanted with absent | awaited
    · exact .inl (moves.absent stands sound unwanted absent)
    · rcases awaited.cases here with ⟨drop, add, stands, mem⟩ | other
      · obtain ⟨stage', stands', moves, sound⟩ := advances _ stands
        rcases moves.to_drop sound mem with gone | ⟨drop, add, rfl, mem⟩
        · exact .inl gone
        · exact .inr (pending stands' mem)
      · exact .inr (other _ _ _)

/-- Once an update has read the listing, it is to do whatever is not done. -/
theorem due_of_listed (here : w.updates[i]? = some u) (active : u.cut = false)
    (unread : u.program = migrate h false)
    (advances : Advances h w.store t u.program next) :
    Due h ⟨t, w.updates.set i { u with program := next }, w.cuts⟩ := by
  obtain ⟨stage', stands', moves, sound⟩ := advances .listing (unread ▸ .listing)
  cases moves with
  | @planned drop add missing orphans =>
    have pending {P : List String → Entries Candidate → Prop} (holds : P drop add) :
        Pending h ⟨w.store, w.updates.set i { u with program := next }, w.cuts⟩ P :=
      ⟨i, _, drop, add, (getElem?_set_iff here).2 (.inl ⟨rfl, rfl⟩), active, stands', holds⟩
    refine ⟨fun e mem => ?_, fun name unwanted => ?_⟩
    · exact (missing e mem).imp_right pending
    · exact (orphans name unwanted).imp_right pending
  | refused => exact absurd rfl sound

theorem consistent_idle {s : Designs} (tidy : s.Tidy h) : (idle s).Consistent h := by
  refine ⟨tidy, ?_, ?_, ?_⟩
  · intro i u here
    simp [idle] at here
  · intro i u here
    simp [idle] at here
  · rintro ⟨i, u, here, -⟩
    simp [idle] at here

theorem Consistent.begin (consistent : w.Consistent h) {site : Site} :
    Consistent h { w with
      updates := w.updates ++ [⟨site, migrate h false, false, w.cuts⟩] } := by
  have cases_ : ∀ (i : Nat) u,
      (w.updates ++ [⟨site, migrate h false, false, w.cuts⟩])[i]? = some u →
        w.updates[i]? = some u ∨ u = ⟨site, migrate h false, false, w.cuts⟩ := by
    intro i u here
    rw [List.getElem?_append] at here
    split at here
    · exact .inl here
    · obtain ⟨bound, same⟩ := List.getElem?_eq_some_iff.1 here
      exact .inr (by simpa using same.symm)
  have kept : ∀ (i : Nat) u, w.updates[i]? = some u →
      (w.updates ++ [⟨site, migrate h false, false, w.cuts⟩])[i]? = some u := by
    intro i u here
    rw [List.getElem?_append_left (List.getElem?_eq_some_iff.1 here).1, here]
  refine ⟨consistent.tidy, ?_, ?_, ?_⟩
  · intro i u here
    rcases cases_ i u here with old | rfl
    · exact consistent.begun i u old
    · exact Nat.le_refl _
  · intro i u here active
    rcases cases_ i u here with old | rfl
    · exact consistent.stages i u old active
    · exact ⟨.listing, .listing⟩
  · rintro ⟨i, u, here, active, fresh, listed⟩ unfailed
    rcases cases_ i u here with old | rfl
    · have due := consistent.due ⟨i, u, old, active, fresh, listed⟩
        fun j v there => unfailed j v (kept j v there)
      have still {P : List String → Entries Candidate → Prop} (pending : w.Pending h P) :
          Pending h { w with
            updates := w.updates ++ [⟨site, migrate h false, false, w.cuts⟩] } P := by
        obtain ⟨j, v, drop, add, there, rest⟩ := pending
        exact ⟨j, v, drop, add, kept j v there, rest⟩
      exact ⟨fun e mem => (due.missing e mem).imp_right still,
        fun name unwanted => (due.orphans name unwanted).imp_right still⟩
    · exact absurd rfl listed

theorem Consistent.serve (consistent : w.Consistent h) {warnings : List Warning} {q : Request}
    {go : Reply → Program IndexPlan} {reply : Reply} {path : String} {a : Answer}
    (here : w.updates[i]? = some u) (active : u.cut = false)
    (sends : u.program.settle (.ok u.site) = (warnings, .sending q go))
    (served : w.store.Serves q.call a t) (arrives : q.exchange reply = .answered path a) :
    Consistent h ⟨t, w.updates.set i { u with program := go reply }, w.cuts⟩ := by
  obtain ⟨stage, stands⟩ := consistent.stages i u here active
  obtain ⟨stage', stands', moves⟩ := stands.served consistent.tidy sends served arrives
  refine ⟨moves.tidy consistent.tidy stands, ?_, ?_, ?_⟩
  · intro j v there
    rcases (getElem?_set_iff here).1 there with ⟨-, rfl⟩ | ⟨-, old⟩
    · exact consistent.begun i u here
    · exact consistent.begun j v old
  · intro j v there active'
    rcases (getElem?_set_iff here).1 there with ⟨-, rfl⟩ | ⟨-, old⟩
    · exact ⟨stage', stands'⟩
    · exact consistent.stages j v old active'
  · intro planned unfailed
    have unfailed' : ¬At h .failed (go reply) :=
      unfailed i _ ((getElem?_set_iff here).2 (.inl ⟨rfl, rfl⟩)) active
    have advances : Advances h w.store t u.program (go reply) := by
      intro stage stands
      obtain ⟨stage', stands', moves⟩ := stands.served consistent.tidy sends served arrives
      refine ⟨stage', stands', moves, ?_⟩
      rintro rfl
      exact unfailed' stands'
    by_cases before : w.Planned h
    · have sound : w.Unfailed h := by
        intro j v there active' failed
        by_cases same : j = i
        · subst same
          rw [here] at there
          cases there
          obtain ⟨stage', -, moves, sound⟩ := advances .failed failed
          cases moves
          exact sound rfl
        · exact unfailed j v ((getElem?_set_iff here).2 (.inr ⟨same, there⟩)) active' failed
      exact (consistent.due before sound).served here active advances stands
    -- The first update to have listed since the last cut is the one that was served.
    · obtain ⟨j, v, there, active', fresh, listed⟩ := planned
      rcases (getElem?_set_iff here).1 there with ⟨-, rfl⟩ | ⟨-, old⟩
      · have unread : u.program = migrate h false :=
          Classical.byContradiction fun read => before ⟨i, u, here, active, fresh, read⟩
        exact due_of_listed here active unread advances
      · exact absurd ⟨j, v, old, active', fresh, listed⟩ before

theorem Consistent.cut (consistent : w.Consistent h) (here : w.updates[i]? = some u) :
    Consistent h ⟨w.store, w.updates.set i { u with cut := true }, w.cuts + 1⟩ := by
  have begun : ∀ (j : Nat) v, (w.updates.set i { u with cut := true })[j]? = some v →
      v.began ≤ w.cuts := by
    intro j v there
    rcases (getElem?_set_iff here).1 there with ⟨-, rfl⟩ | ⟨-, old⟩
    · exact consistent.begun i u here
    · exact consistent.begun j v old
  refine ⟨consistent.tidy, fun j v there => Nat.le_succ_of_le (begun j v there), ?_, ?_⟩
  · intro j v there active
    rcases (getElem?_set_iff here).1 there with ⟨-, rfl⟩ | ⟨-, old⟩
    · cases active
    · exact consistent.stages j v old active
  · rintro ⟨j, v, there, -, fresh, -⟩
    have late := begun j v there
    rw [fresh] at late
    exact absurd late (Nat.not_succ_le_self _)

theorem consistent_of_run {s : Designs} (tidy : s.Tidy h)
    (run : Relation.ReflTransGen (Step h) (idle s) w) : w.Consistent h := by
  induction run with
  | refl => exact consistent_idle tidy
  | tail run step ih =>
    cases step with
    | begin => exact ih.begin
    | serve here active sends served arrives => exact ih.serve here active sends served arrives
    | cut here active => exact ih.cut here

end Rollout

namespace Designs

variable {h : Handle} {s : Designs}

/-- The design documents of a model hold the wanted indexes, and there are no others. -/
structure Matches (s : Designs) (h : Handle) (candidates : Entries Candidate) : Prop where
  wanted : ∀ e ∈ candidates, s.Fits e.2
  owned : ∀ name d, s (h.indexDesign name) = some d → name ∈ Entries.keys candidates

/-- An update asks for the listing only, and its plan is empty. -/
def UpToDate (s : Designs) (h : Handle) : Prop :=
  ∀ site warnings q go, (migrate h false).settle (.ok site) = (warnings, .sending q go) →
    q.call = .listIndexes h.database ∧
      ∀ a t reply path, s.Serves q.call a t → a.isError = false →
        q.exchange reply = .answered path a → t = s ∧
          ∃ warnings p, (go reply).settle (.ok site) = (warnings, .finished (.ok p)) ∧
            p.isEmpty = true

theorem Matches.upToDate (matches_ : s.Matches h h.candidates) (tidy : s.Tidy h) :
    s.UpToDate h := by
  intro site warnings q go sends
  rw [migrate_eq] at sends
  obtain ⟨form, next⟩ := ends_listed.sending sends
  have call : Call.listIndexes h.database = q.call := Except.ok.inj form
  refine ⟨call.symm, fun a t reply path served sound arrives => ?_⟩
  rw [← call] at served
  cases served with
  | failed failed other =>
    rw [sound] at failed
    cases failed
  | listed _ body listing lists =>
    obtain ⟨table, p, counts, -, plan, rest⟩ := exists_table tidy.readable false listing lists
    rw [IndexPlan.of_ownListing h.nodup_candidates] at plan
    have fitting : ∀ e ∈ h.candidates, IndexPlan.lacks table e = false := by
      intro e mem
      obtain ⟨named, design⟩ := Handle.of_mem_candidates mem
      obtain ⟨rev, raw, fields, kept, reads, same⟩ := matches_.wanted e mem
      rw [design, named] at kept
      exact IndexPlan.lacks_eq_false.2 ⟨⟨e.1, fields⟩,
        (counts.tidy tidy).2 ⟨rfl, rev, raw, kept, reads⟩,
        IndexPlan.sameFields_iff.2 fun f => (same f).symm⟩
    have noAdd : p.add = [] := by
      rw [plan]
      refine List.filter_eq_nil_iff.2 fun e mem => ?_
      simp [fitting e mem]
    have noDrop : p.drop = [] := by
      rw [plan]
      refine List.map_eq_nil_iff.2 (List.eq_nil_iff_forall_not_mem.2 fun e gone => ?_)
      obtain ⟨name, i⟩ := e
      by_cases wanted : ∃ c, (name, c) ∈ h.candidates
      · obtain ⟨c, wanted⟩ := wanted
        have lacking := IndexPlan.lacks_of_mem_dropped h.nodup_candidates gone wanted
        rw [fitting _ wanted] at lacking
        cases lacking
      · rcases IndexPlan.mem_dropped.1 gone with ⟨c, mem, -⟩ | ⟨listed, unwanted⟩
        · exact wanted ⟨c, mem⟩
        · have here := Entries.get?_of_mem counts.distinct listed
          obtain ⟨-, rev, raw, kept, -⟩ := (counts.tidy tidy).1 here
          exact unwanted (matches_.owned name _ kept)
    have empty : p.isEmpty = true := by
      rw [IndexPlan.isEmpty, noAdd, noDrop]
      rfl
    let remarks := (Candidate.all Naming.default h.definition h.discriminator).warnings
    have ends : (go reply).settle (.ok site) = (remarks ++ [], .finished (.ok p)) := by
      rw [next, arrives, Exchange.value_of_body sound body, rest, noDrop, noAdd]
      exact Program.settle_remarks _ _
    exact ⟨rfl, _, p, ends, empty⟩

end Designs

namespace Rollout

/-- When all updates that were not cut off have ended without a fault, and one of them began after
the last cut, the indexes are those that are wanted, and a further update has nothing to do. -/
theorem converges {h : Handle} {s : Designs} {w : Rollout} (tidy : s.Tidy h)
    (run : Relation.ReflTransGen (Step h) (idle s) w)
    (ended : ∀ (i : Nat) u, w.updates[i]? = some u → u.cut = false → ∃ p, u.Ended (.ok p))
    (fresh : ∃ (i : Nat) (u : Update), w.updates[i]? = some u ∧ u.cut = false ∧
      u.began = w.cuts) :
    ∃ candidates,
      (Candidate.all Naming.default h.definition h.discriminator).outcome = .ok candidates ∧
      w.store.Matches h candidates ∧ w.store.UpToDate h := by
  have consistent := consistent_of_run tidy run
  have spent : ∀ (i : Nat) u, w.updates[i]? = some u → u.cut = false →
      ∀ stage, At h stage u.program → stage = .working [] [] := by
    intro i u here active stage stands
    obtain ⟨p, warnings, ends⟩ := ended i u here active
    exact stands.ended ends
  have planned : w.Planned h := by
    obtain ⟨i, u, here, active, last⟩ := fresh
    refine ⟨i, u, here, active, last, fun unread => ?_⟩
    cases spent i u here active .listing (unread ▸ .listing)
  have unfailed : w.Unfailed h := by
    intro i u here active failed
    cases spent i u here active .failed failed
  have due := consistent.due planned unfailed
  have nothing {P : List String → Entries Candidate → Prop} (pending : w.Pending h P) :
      P [] [] := by
    obtain ⟨i, u, drop, add, here, active, stands, holds⟩ := pending
    cases spent i u here active _ stands
    exact holds
  have matches_ : w.store.Matches h h.candidates := by
    refine ⟨fun e mem => ?_, fun name d here => ?_⟩
    · rcases due.missing e mem with fits | pending
      · exact fits
      · exact absurd (nothing pending) (List.not_mem_nil)
    · refine Classical.byContradiction fun unwanted => ?_
      rcases due.orphans name unwanted with absent | pending
      · rw [here] at absent
        cases absent
      · exact absurd (nothing pending) (List.not_mem_nil)
  exact ⟨h.candidates, h.outcome_all, matches_, matches_.upToDate consistent.tidy⟩

/-- A stretch of an update in which the store serves no other. -/
inductive Stretch (site : Site) :
    Designs → Program IndexPlan → Designs → Program IndexPlan → Prop where
  | refl {s : Designs} {p : Program IndexPlan} : Stretch site s p s p
  | served {s t v : Designs} {p next : Program IndexPlan} {warnings : List Warning} {q : Request}
      {go : Reply → Program IndexPlan} {reply : Reply} {path : String} {a : Answer}
      (sends : p.settle (.ok site) = (warnings, .sending q go)) (served : s.Serves q.call a t)
      (arrives : q.exchange reply = .answered path a)
      (rest : Stretch site t (go reply) v next) : Stretch site s p v next

/-- Among any other updates one may go on by a whole stretch. -/
theorem Stretch.run {h : Handle} {site : Site} {s t : Designs} {p next : Program IndexPlan}
    (stretch : Stretch site s p t next) {us : List Update} {i began cuts : Nat}
    (here : us[i]? = some ⟨site, p, false, began⟩) :
    Relation.ReflTransGen (Step h) ⟨s, us, cuts⟩
      ⟨t, us.set i ⟨site, next, false, began⟩, cuts⟩ := by
  induction stretch generalizing us with
  | refl =>
    obtain ⟨bound, same⟩ := List.getElem?_eq_some_iff.1 here
    rw [← same, List.set_getElem_self]
  | @served s t v p next warnings q go reply path a sends served arrives rest ih =>
    have first : Step h ⟨s, us, cuts⟩ ⟨t, us.set i ⟨site, go reply, false, began⟩, cuts⟩ :=
      .serve (w := ⟨s, us, cuts⟩) here rfl sends served arrives
    have bound := (List.getElem?_eq_some_iff.1 here).1
    have later : Relation.ReflTransGen (Step h) ⟨t, us.set i ⟨site, go reply, false, began⟩, cuts⟩
        ⟨v, (us.set i ⟨site, go reply, false, began⟩).set i ⟨site, next, false, began⟩, cuts⟩ :=
      ih (List.getElem?_set_self bound)
    rw [List.set_set] at later
    exact .head first later

open Shop (customers)

def aged : Designs := fun id =>
  if id = customers.indexDesign "kind_index" then
    some ⟨"1-a", [("kind_index", .array [.object [("age", .str "asc")]])]⟩
  else none

theorem aged_tidy : aged.Tidy customers := by
  intro name d here
  by_cases same : name = "kind_index"
  · subst same
    exact ⟨[.ascending "age"], "1-a", _, if_pos rfl, _, rfl, rfl⟩
  · rw [aged, if_neg (mt Handle.indexDesign_inj.1 same)] at here
    cases here

def agedListing : Value :=
  .object [("indexes", .array [.object
    [("ddoc", .str (customers.indexDesign "kind_index")), ("name", .str "kind_index"),
      ("def", .object [("fields", .array [.object [("age", .str "asc")]])])]])]

theorem aged_lists : ∃ entries, agedListing = .object [("indexes", .array entries)] ∧
    aged.Lists entries := by
  refine ⟨_, rfl, ?_, ?_, ?_⟩
  · intro e mem
    rw [List.mem_singleton.1 mem]
    exact ⟨_, rfl⟩
  · intro e mem id named
    rw [List.mem_singleton.1 mem] at named ⊢
    cases named
    exact ⟨"kind_index", _, rfl, _, rfl, rfl, rfl, rfl⟩
  · intro id name raw here
    by_cases own : id = customers.indexDesign "kind_index"
    · subst own
      have kept : Entries.get? [("kind_index", Value.array [.object [("age", .str "asc")]])]
          name = some raw := here
      obtain ⟨rfl, rfl⟩ : name = "kind_index" ∧ raw = .array [.object [("age", .str "asc")]] := by
        simpa [Entries.get?_cons, eq_comm] using kept
      exact ⟨_, List.mem_singleton_self _, _, rfl, rfl, rfl, rfl⟩
    · rw [Designs.indexes, aged, if_neg own] at here
      cases here

def bare : Designs := aged.put (customers.indexDesign "kind_index") none

theorem bare_lists : bare.Lists [] := by
  refine ⟨by simp, by simp, fun id name raw here => ?_⟩
  by_cases own : id = customers.indexDesign "kind_index"
  · subst own
    have kept : Entries.get? ([] : Entries Value) name = some raw := here
    cases kept
  · rw [Designs.indexes, show bare id = aged id from if_neg own, aged, if_neg own] at here
    cases here

theorem stretch_aged :
    ∃ p, Stretch Shop.site aged (migrate customers false) bare p := by
  let design := customers.indexDesign "kind_index"
  let listing : Answer := .telling 200 agedListing
  let found : Answer := .showing [("_rev", .str "1-a")]
  obtain ⟨q, go, q₁, go₁, q₂, go₂, path, path₁, path₂, sends, sends₁, sends₂, call, call₁, call₂,
    arrives, arrives₁, arrives₂⟩ : ∃ q go q₁ go₁ q₂ go₂ path path₁ path₂,
      (migrate customers false).settle (.ok Shop.site) = ([], .sending q go) ∧
      (go (.answered listing)).settle (.ok Shop.site) = ([], .sending q₁ go₁) ∧
      (go₁ (.answered found)).settle (.ok Shop.site) = ([], .sending q₂ go₂) ∧
      q.call = .listIndexes "shop" ∧ q₁.call = .get "shop" design ∧
      q₂.call = .delete "shop" design (.str "1-a") ∧
      q.exchange (.answered listing) = .answered path listing ∧
      q₁.exchange (.answered found) = .answered path₁ found ∧
      q₂.exchange (.answered .confirming) = .answered path₂ .confirming :=
    ⟨_, _, _, _, _, _, _, _, _, rfl, rfl, rfl, rfl, rfl, rfl, rfl, rfl, rfl⟩
  have listed : aged.Serves q.call listing aged := by
    rw [call]
    obtain ⟨entries, told, lists⟩ := aged_lists
    exact .listed rfl (congrArg Except.ok told) rfl lists
  have read : aged.Serves q₁.call found aged := by
    rw [call₁]
    exact .found (if_pos rfl) rfl rfl rfl
  have removed : aged.Serves q₂.call .confirming bare := by
    rw [call₂]
    exact .deleted (d := ⟨"1-a", _⟩) (if_pos rfl) rfl
  exact ⟨_, .served sends listed arrives
    (.served sends₁ read arrives₁ (.served sends₂ removed arrives₂ .refl))⟩

theorem stretch_bare :
    ∃ t p plan, Stretch Shop.site bare (migrate customers false) t p ∧
      p.settle (.ok Shop.site) = ([], .finished (.ok plan)) := by
  let nothing : Answer := .showing [("indexes", .array [])]
  obtain ⟨q, go, q₁, go₁, plan, path, path₁, sends, sends₁, ends, call, call₁, arrives,
    arrives₁⟩ : ∃ q go q₁ go₁ plan path path₁,
      (migrate customers false).settle (.ok Shop.site) = ([], .sending q go) ∧
      (go (.answered nothing)).settle (.ok Shop.site) = ([], .sending q₁ go₁) ∧
      (go₁ (.answered .confirming)).settle (.ok Shop.site) = ([], .finished (.ok plan)) ∧
      q.call = .listIndexes "shop" ∧
      q₁.call = .createIndex "shop"
        [("index", .object [("fields", .array [.object [("kind", .str "asc")]])]),
          ("ddoc", .str "LBModel__Customer__LBIndex__kind_index"),
          ("name", .str "kind_index"), ("type", .str "json")] ∧
      q.exchange (.answered nothing) = .answered path nothing ∧
      q₁.exchange (.answered .confirming) = .answered path₁ .confirming :=
    ⟨_, _, _, _, _, _, _, rfl, rfl, rfl, rfl, rfl, rfl, rfl⟩
  have absent : bare.Serves q.call nothing bare := by
    rw [call]
    exact .listed rfl rfl rfl bare_lists
  obtain ⟨t, made⟩ : ∃ t, bare.Serves q₁.call .confirming t := by
    rw [call₁]
    exact ⟨bare.put _ (some ⟨"2-b", _⟩), .created ⟨_, rfl, rfl, rfl, rfl⟩ rfl⟩
  exact ⟨t, _, plan, .served sends absent arrives (.served sends₁ made arrives₁ .refl), ends⟩

/-- An update that is cut off when it has dropped the index, and one that begins then. -/
theorem converges_interrupted :
    ∃ w : Rollout, aged.Tidy customers ∧
      Relation.ReflTransGen (Step customers) (idle aged) w ∧
      (∀ (i : Nat) u, w.updates[i]? = some u → u.cut = false → ∃ p, u.Ended (.ok p)) ∧
      (∃ (i : Nat) (u : Update), w.updates[i]? = some u ∧ u.cut = false ∧ u.began = w.cuts) ∧
      w.cuts = 1 ∧
      ∃ candidates,
        (Candidate.all Naming.default customers.definition
          customers.discriminator).outcome = .ok candidates ∧
        w.store.Matches customers candidates ∧ w.store.UpToDate customers := by
  obtain ⟨p, dropped⟩ := stretch_aged
  obtain ⟨t, r, plan, restored, ends⟩ := stretch_bare
  let first : Update := ⟨Shop.site, migrate customers false, false, 0⟩
  let second : Update := ⟨Shop.site, migrate customers false, false, 1⟩
  let left : Update := ⟨Shop.site, p, true, 0⟩
  let last : Update := ⟨Shop.site, r, false, 1⟩
  have begun : Step customers (idle aged) ⟨aged, [first], 0⟩ := .begin
  have cut : Step customers ⟨bare, [⟨Shop.site, p, false, 0⟩], 0⟩ ⟨bare, [left], 1⟩ :=
    .cut (w := ⟨bare, [⟨Shop.site, p, false, 0⟩], 0⟩) (i := 0) rfl rfl
  have again : Step customers ⟨bare, [left], 1⟩ ⟨bare, [left, second], 1⟩ := .begin
  have interrupted : Relation.ReflTransGen (Step customers) (idle aged) ⟨bare, [left], 1⟩ :=
    (Relation.ReflTransGen.head begun (dropped.run (i := 0) rfl)).tail cut
  have run : Relation.ReflTransGen (Step customers) (idle aged) ⟨t, [left, last], 1⟩ :=
    (interrupted.tail again).trans (restored.run (i := 1) rfl)
  have ended : ∀ (i : Nat) u, [left, last][i]? = some u → u.cut = false →
      ∃ p, u.Ended (.ok p) := by
    rintro (_ | _ | i) u here active
    · cases here
      cases active
    · cases here
      exact ⟨plan, [], ends⟩
    · cases here
  have fresh : ∃ (i : Nat) (u : Update), [left, last][i]? = some u ∧ u.cut = false ∧
      u.began = 1 := ⟨1, last, rfl, rfl, rfl⟩
  exact ⟨⟨t, [left, last], 1⟩, aged_tidy, run, ended, fresh, rfl,
    converges aged_tidy run ended fresh⟩

end Rollout

end ModelStore
