import ModelStore.Proofs.Store.Running
import ModelStore.Proofs.Store.Yielding
import Mathlib.Data.List.Forall2
import Mathlib.Logic.Relation

/-! Programs that run side by side. Each is a strand of its own: it sends a request, is told what
came of it and goes on, while the others do the same. Strands share nothing, so what becomes of
one does not depend on the others nor on the order in which they are answered, and the programs
run one after the other against the same replies ask the same and end the same. -/

namespace ModelStore

open Relation (ReflTransGen)

inductive Phase (α : Type) where
  | running (p : Program α)
  | waiting (go : Reply → Program α)
  | ended (r : Except Fault α)

/-- A program among others, with what it has asked and what it was told. -/
structure Strand (α : Type) where
  asked : List Request
  told : List Reply
  phase : Phase α

namespace Strand

variable {α β : Type} {site : Except Fault Site}

def start (p : Program α) : Strand α := ⟨[], [], .running p⟩

inductive Step (site : Except Fault Site) : Strand α → Strand α → Prop where
  | send {asked : List Request} {told : List Reply} {p : Program α} {ws : List Warning}
      {q : Request} {go : Reply → Program α} (sends : p.settle site = (ws, .sending q go)) :
      Step site ⟨asked, told, .running p⟩ ⟨asked ++ [q], told, .waiting go⟩
  | hear {asked : List Request} {told : List Reply} {go : Reply → Program α} (reply : Reply) :
      Step site ⟨asked, told, .waiting go⟩ ⟨asked, told ++ [reply], .running (go reply)⟩
  | finish {asked : List Request} {told : List Reply} {p : Program α} {ws : List Warning}
      {r : Except Fault α} (ends : p.settle site = (ws, .finished r)) :
      Step site ⟨asked, told, .running p⟩ ⟨asked, told, .ended r⟩

def Reaches (site : Except Fault Site) : Strand α → Strand α → Prop :=
  ReflTransGen (Step site)

def IsOver (s : Strand α) : Prop := ∃ r, s.phase = .ended r

theorem Step.of_settle {asked : List Request} {told : List Reply} {p p' : Program α}
    (same : (p.settle site).2 = (p'.settle site).2) {s : Strand α}
    (step : Step site ⟨asked, told, .running p'⟩ s) : Step site ⟨asked, told, .running p⟩ s := by
  cases settled : p.settle site with
  | mk ws state =>
    rw [settled] at same
    cases step with
    | send sends =>
      rw [sends] at same
      cases same
      exact .send settled
    | finish ends =>
      rw [ends] at same
      cases same
      exact .finish settled

theorem Reaches.of_settle {asked : List Request} {told : List Reply} {p p' : Program α}
    (same : (p.settle site).2 = (p'.settle site).2) {s : Strand α} (ended : s.IsOver)
    (reaches : Reaches site ⟨asked, told, .running p'⟩ s) :
    Reaches site ⟨asked, told, .running p⟩ s := by
  rcases reaches.cases_head with rfl | ⟨t, step, rest⟩
  · obtain ⟨r, same⟩ := ended
    cases same
  · exact .head (step.of_settle same) rest

theorem exists_over_of_sending {asked : List Request} {told : List Reply} {p : Program α}
    {ws : List Warning} {q : Request} {go : Reply → Program α}
    (sends : p.settle site = (ws, .sending q go)) (reply : Reply)
    (next : ∃ s, Reaches site ⟨asked ++ [q], told ++ [reply], .running (go reply)⟩ s ∧ s.IsOver) :
    ∃ s, Reaches site ⟨asked, told, .running p⟩ s ∧ s.IsOver := by
  obtain ⟨s, reaches, ended⟩ := next
  exact ⟨s, .head (.send sends) (.head (.hear reply) reaches), ended⟩

theorem exists_over_of_settle {asked : List Request} {told : List Reply} {p p' : Program α}
    (same : (p.settle site).2 = (p'.settle site).2)
    (next : ∃ s, Reaches site ⟨asked, told, .running p'⟩ s ∧ s.IsOver) :
    ∃ s, Reaches site ⟨asked, told, .running p⟩ s ∧ s.IsOver := by
  obtain ⟨s, reaches, ended⟩ := next
  exact ⟨s, reaches.of_settle same ended, ended⟩

theorem exists_over (site : Except Fault Site) (asked : List Request) (told : List Reply)
    (p : Program α) : ∃ s, Reaches site ⟨asked, told, .running p⟩ s ∧ s.IsOver := by
  induction p generalizing asked told with
  | done r => exact ⟨_, .single (.finish rfl), r, rfl⟩
  | remark w rest ih =>
    refine exists_over_of_settle ?_ (ih asked told)
    rw [Program.settle]
  | ask c go ih =>
    rcases Program.settle_ask site c go with ⟨f, -, settled⟩ | ⟨q, -, settled⟩
    · exact exists_over_of_settle (congrArg Prod.snd settled) (ih (.refused f) asked told)
    · exact exists_over_of_sending settled (.failed Program.noReply)
        (ih (.failed Program.noReply) _ _)
  | scan q go ih =>
    rcases Program.settle_scan site q go with
      ⟨r, -, settled⟩ | ⟨_, f, -, -, settled⟩ | ⟨c, r, -, -, settled⟩
    · exact exists_over_of_settle (congrArg Prod.snd settled) (ih r asked told)
    · exact exists_over_of_settle (congrArg Prod.snd settled) (ih (.error f) asked told)
    · exact exists_over_of_sending settled (.failed Program.noReply)
        (ih (.error (.transport Program.noReply)) _ _)

theorem exists_reaches_over (site : Except Fault Site) (s : Strand α) :
    ∃ t, Reaches site s t ∧ t.IsOver := by
  obtain ⟨asked, told, phase⟩ := s
  cases phase with
  | running p => exact exists_over site asked told p
  | waiting go =>
    obtain ⟨t, reaches, ended⟩ := exists_over site asked (told ++ [.failed Program.noReply])
      (go (.failed Program.noReply))
    exact ⟨t, .head (.hear _) reaches, ended⟩
  | ended r => exact ⟨_, .refl, r, rfl⟩

end Strand

/-- A run that asks some requests and is another from there on. -/
def Run.Continues {β : Type} (whole : Run β) (asked : List Request) (rest : Run β) : Prop :=
  whole.requests = asked ++ rest.requests ∧ whole.unused = rest.unused ∧
    whole.result = rest.result

namespace Run.Continues

variable {β : Type} {first second third : Run β} {asked later : List Request}

theorem refl : first.Continues [] first := ⟨rfl, rfl, rfl⟩

theorem trans (h : first.Continues asked second) (h' : second.Continues later third) :
    first.Continues (asked ++ later) third :=
  ⟨by rw [h.1, h'.1, List.append_assoc], h.2.1.trans h'.2.1, h.2.2.trans h'.2.2⟩

theorem noting (ws : List Warning) : (first.noting ws).Continues [] first := ⟨rfl, rfl, rfl⟩

theorem sending (ws : List Warning) (q : Request) :
    ((first.sending q).noting ws).Continues [q] first :=
  ⟨rfl, rfl, rfl⟩

end Run.Continues

namespace Program

variable {α β : Type} {site : Except Fault Site}

theorem run_andThen_finished {p : Program α} {ws : List Warning} {r : Except Fault α}
    (ends : p.settle site = (ws, .finished r)) (f : Except Fault α → Program β)
    (replies : List Reply) :
    (p.andThen f).run site replies = ((f r).run site replies).noting ws := by
  cases replies with
  | nil =>
    rw [run, unanswered_andThen]
    have alone : p.unanswered site = (Run.ended 0 r).noting ws := run_finished ends
    rw [alone, Run.followed_noting, Run.followed_ended, run]
    rfl
  | cons reply rest =>
    rw [run, settle_andThen, ends, run]
    simp only
    cases (f r).settle site with
    | mk vs state => cases state <;> simp only [Run.noting_noting]

theorem run_andThen_sending {p : Program α} {ws : List Warning} {q : Request}
    {go : Reply → Program α} (sends : p.settle site = (ws, .sending q go))
    (f : Except Fault α → Program β) (reply : Reply) (rest : List Reply) :
    (p.andThen f).run site (reply :: rest) =
      ((((go reply).andThen f).run site rest).sending q).noting ws := by
  rw [run, settle_andThen, sends]

end Program

namespace Strand

variable {α β : Type} {site : Except Fault Site}

def Leaves (site : Except Fault Site) (p : Program α) (f : Except Fault α → Program β)
    (s : Strand α) : Prop :=
  match s.phase with
  | .running rest => ∀ later, ((p.andThen f).run site (s.told ++ later)).Continues s.asked
      ((rest.andThen f).run site later)
  | .waiting go => ∀ reply later, ((p.andThen f).run site (s.told ++ reply :: later)).Continues
      s.asked (((go reply).andThen f).run site later)
  | .ended r => ∀ later, ((p.andThen f).run site (s.told ++ later)).Continues s.asked
      ((f r).run site later)

theorem Step.leaves {p : Program α} {f : Except Fault α → Program β} {s t : Strand α}
    (step : Step site s t) (h : s.Leaves site p f) : t.Leaves site p f := by
  cases step with
  | send sends =>
    intro reply later
    have next := h (reply :: later)
    rw [Program.run_andThen_sending sends] at next
    exact next.trans (.sending _ _)
  | hear reply =>
    intro later
    rw [List.append_assoc]
    exact h reply later
  | finish ends =>
    intro later
    have next := h later
    rw [Program.run_andThen_finished ends] at next
    simpa using next.trans (.noting _)

theorem Reaches.leaves {p : Program α} {s : Strand α} (reaches : Reaches site (start p) s)
    (f : Except Fault α → Program β) : s.Leaves site p f := by
  induction reaches with
  | refl => exact fun later => .refl
  | tail _ step ih => exact step.leaves ih

theorem Reaches.run_andThen {p : Program α} {s : Strand α} {r : Except Fault α}
    (reaches : Reaches site (start p) s) (ended : s.phase = .ended r)
    (f : Except Fault α → Program β) (later : List Reply) :
    ((p.andThen f).run site (s.told ++ later)).Continues s.asked ((f r).run site later) := by
  have left := reaches.leaves f
  rw [Leaves, ended] at left
  exact left later

theorem Reaches.run_bind {p : Program α} {s : Strand α} {a : α}
    (reaches : Reaches site (start p) s) (ended : s.phase = .ended (.ok a)) (f : α → Program β)
    (later : List Reply) :
    ((p >>= f).run site (s.told ++ later)).Continues s.asked ((f a).run site later) :=
  reaches.run_andThen ended _ later

theorem Reaches.of_finished {asked : List Request} {told : List Reply} {p : Program α}
    {ws : List Warning} {x r : Except Fault α} (ends : p.settle site = (ws, .finished x))
    {s : Strand α} (reaches : Reaches site ⟨asked, told, .running p⟩ s)
    (ended : s.phase = .ended r) : s = ⟨asked, told, .ended x⟩ ∧ r = x := by
  rcases reaches.cases_head with rfl | ⟨t, step, rest⟩
  · cases ended
  · cases step with
    | send sends =>
      rw [ends] at sends
      cases sends
    | finish ends' =>
      rw [ends] at ends'
      cases ends'
      rcases rest.cases_head with rfl | ⟨u, next, -⟩
      · cases ended
        exact ⟨rfl, rfl⟩
      · cases next

theorem Reaches.of_sending {asked : List Request} {told : List Reply} {p : Program α}
    {ws : List Warning} {q : Request} {go : Reply → Program α} {r : Except Fault α}
    (sends : p.settle site = (ws, .sending q go)) {s : Strand α}
    (reaches : Reaches site ⟨asked, told, .running p⟩ s) (ended : s.phase = .ended r) :
    ∃ reply, Reaches site ⟨asked ++ [q], told ++ [reply], .running (go reply)⟩ s := by
  rcases reaches.cases_head with rfl | ⟨t, step, rest⟩
  · cases ended
  · cases step with
    | finish ends =>
      rw [sends] at ends
      cases ends
    | send sends' =>
      rw [sends] at sends'
      cases sends'
      rcases rest.cases_head with rfl | ⟨u, next, later⟩
      · cases ended
      · cases next with
        | hear reply => exact ⟨reply, later⟩

end Strand

namespace Strands

variable {α β : Type} {site : Except Fault Site} {ss ts : List (Strand α)}

inductive Step (site : Except Fault Site) : List (Strand α) → List (Strand α) → Prop where
  | here {s t : Strand α} (step : s.Step site t) (rest : List (Strand α)) :
      Step site (s :: rest) (t :: rest)
  | there (s : Strand α) {rest later : List (Strand α)} (step : Step site rest later) :
      Step site (s :: rest) (s :: later)

/-- What strands have come to side by side. -/
def Reach (site : Except Fault Site) : List (Strand α) → List (Strand α) → Prop :=
  ReflTransGen (Step site)

theorem Step.forall₂ {γ : Type} {R : γ → Strand α → Prop}
    (keeps : ∀ c s t, R c s → s.Step site t → R c t) {cs : List γ} (step : Step site ss ts)
    (h : List.Forall₂ R cs ss) : List.Forall₂ R cs ts := by
  induction step generalizing cs with
  | here step rest =>
    cases h with
    | cons first others => exact .cons (keeps _ _ _ first step) others
  | there s step ih =>
    cases h with
    | cons first others => exact .cons first (ih others)

/-- Side by side each strand does what it does by itself. -/
theorem Reach.each (run : Reach site ss ts) : List.Forall₂ (Strand.Reaches site) ss ts := by
  induction run with
  | refl => exact List.forall₂_same.2 fun s _ => .refl
  | tail _ step ih => exact step.forall₂ (fun _ _ _ earlier next => earlier.tail next) ih

theorem Reach.here {s t : Strand α} (reaches : s.Reaches site t) (rest : List (Strand α)) :
    Reach site (s :: rest) (t :: rest) :=
  reaches.lift (· :: rest) fun _ _ step => Step.here step rest

theorem Reach.there (s : Strand α) (run : Reach site ss ts) : Reach site (s :: ss) (s :: ts) :=
  run.lift (s :: ·) fun _ _ step => Step.there s step

/-- Whatever has happened so far, every strand can still come to its end. -/
theorem exists_reach_over (site : Except Fault Site) (ss : List (Strand α)) :
    ∃ ts, Reach site ss ts ∧ ∀ t ∈ ts, t.IsOver := by
  induction ss with
  | nil => exact ⟨[], .refl, nofun⟩
  | cons s rest ih =>
    obtain ⟨t, reaches, ended⟩ := Strand.exists_reaches_over site s
    obtain ⟨ts, run, all⟩ := ih
    exact ⟨t :: ts, (Reach.here reaches rest).trans (run.there t),
      List.forall_mem_cons.2 ⟨ended, all⟩⟩

end Strands

namespace Program

variable {α β : Type} {site : Except Fault Site}

theorem collect_cons_andThen (p : Program α) (ps : List (Program α))
    (f : Except Fault (List (Except Fault α)) → Program β) :
    (collect (p :: ps)).andThen f = p.andThen fun r => (collect ps).andThen fun rs =>
      f (rs.map (r :: ·)) := by
  show ((p.attempt).bind fun r => (collect ps).bind fun rs => done (.ok (r :: rs))).andThen f = _
  unfold Program.bind attempt
  simp only [andThen_andThen]
  congr 1
  funext r
  show ((collect ps).andThen _).andThen f = _
  rw [andThen_andThen]
  congr 1
  funext rs
  cases rs <;> rfl

/-- Programs that ran side by side ask the same and end the same one after the other. -/
theorem run_collect {ps : List (Program α)} {ss : List (Strand α)} {rs : List (Except Fault α)}
    (each : List.Forall₂ (Strand.Reaches site) (ps.map Strand.start) ss)
    (ended : List.Forall₂ (fun s r => s.phase = .ended r) ss rs)
    (f : Except Fault (List (Except Fault α)) → Program β) (later : List Reply) :
    (((collect ps).andThen f).run site (ss.flatMap Strand.told ++ later)).Continues
      (ss.flatMap Strand.asked) ((f (.ok rs)).run site later) := by
  induction ps generalizing ss rs f with
  | nil =>
    cases each
    cases ended
    exact .refl
  | cons p ps ih =>
    cases each with
    | cons first others =>
      cases ended with
      | cons last lasts =>
        rw [collect_cons_andThen, List.flatMap_cons, List.flatMap_cons, List.append_assoc]
        exact (first.run_andThen last _ _).trans (ih others lasts fun rs => f (rs.map (_ :: ·)))

theorem run_collect_bind {ps : List (Program α)} {ss : List (Strand α)}
    {rs : List (Except Fault α)}
    (each : List.Forall₂ (Strand.Reaches site) (ps.map Strand.start) ss)
    (ended : List.Forall₂ (fun s r => s.phase = .ended r) ss rs)
    (f : List (Except Fault α) → Program β) (later : List Reply) :
    ((collect ps >>= f).run site (ss.flatMap Strand.told ++ later)).Continues
      (ss.flatMap Strand.asked) ((f rs).run site later) :=
  run_collect each ended _ later

end Program

end ModelStore
