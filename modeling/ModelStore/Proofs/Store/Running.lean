import ModelStore.Store.Script

/-! Runs of programs that go on with the result of others. The requests of the whole are those of
the first, and then those of what follows it, which takes the replies that are left. -/

namespace ModelStore

namespace Run

variable {α β : Type}

def followed (first : Run α) (rest : Run β) : Run β :=
  { rest with
    requests := first.requests ++ rest.requests
    warnings := first.warnings ++ rest.warnings }

theorem noting_noting (ws vs : List Warning) (r : Run α) :
    (r.noting vs).noting ws = r.noting (ws ++ vs) := by
  simp [noting, List.append_assoc]

theorem followed_noting (ws : List Warning) (first : Run α) (rest : Run β) :
    (first.noting ws).followed rest = (first.followed rest).noting ws := by
  simp [followed, noting, List.append_assoc]

theorem followed_sending (q : Request) (first : Run α) (rest : Run β) :
    (first.sending q).followed rest = (first.followed rest).sending q := by
  simp [followed, sending]

theorem followed_ended (unused : Nat) (r : Except Fault α) (rest : Run β) :
    (ended unused r).followed rest = rest := rfl

def left (r : Run α) (replies : List Reply) : List Reply := replies.drop (replies.length - r.unused)

end Run

namespace Program

variable {α β : Type} {site : Except Fault Site}

theorem unanswered_andThen (p : Program α) (f : Except Fault α → Program β) :
    (p.andThen f).unanswered site =
      (p.unanswered site).followed ((f (p.unanswered site).result).unanswered site) := by
  induction p with
  | done r => rfl
  | remark w rest ih =>
    rw [andThen, unanswered, unanswered, ih, Run.followed_noting]
    rfl
  | ask c go ih =>
    rw [andThen, unanswered, unanswered]
    split
    · exact ih _
    · rw [ih, Run.followed_sending]
      rfl
  | scan s go ih =>
    rw [andThen, unanswered, unanswered]
    split
    · exact ih _
    · split
      · exact ih _
      · rw [ih, Run.followed_sending]
        rfl

theorem afterPage_andThen (s : Scan) (c : Call) (go : Except Fault (List Value) → Program α)
    (f : Except Fault α → Program β) (x : Exchange) :
    afterPage s c (fun r => (go r).andThen f) x = (afterPage s c go x).andThen f := by
  unfold afterPage
  cases s.receive c x <;> rfl

theorem settle_andThen (p : Program α) (f : Except Fault α → Program β) :
    (p.andThen f).settle site =
      match p.settle site with
      | (ws, .finished r) => (ws ++ ((f r).settle site).1, ((f r).settle site).2)
      | (ws, .sending q go) => (ws, .sending q fun reply => (go reply).andThen f) := by
  induction p with
  | done r => rfl
  | remark w rest ih =>
    rw [andThen, settle, settle, ih]
    obtain ⟨ws, state⟩ := rest.settle site
    cases state <;> rfl
  | ask c go ih =>
    rw [andThen, settle, settle]
    split
    · exact ih _
    · rfl
  | scan s go ih =>
    rw [andThen, settle, settle]
    split
    · exact ih _
    · split
      · exact ih _
      · simp only [afterPage_andThen]

theorem unused_unanswered (p : Program α) : (p.unanswered site).unused = 0 := by
  induction p with
  | done r => rfl
  | remark w rest ih => exact ih
  | ask c go ih =>
    rw [unanswered]
    split <;> exact ih _
  | scan s go ih =>
    rw [unanswered]
    split
    · exact ih _
    · split <;> exact ih _

theorem unused_run_le (site : Except Fault Site) (p : Program α) (replies : List Reply) :
    (p.run site replies).unused ≤ replies.length := by
  induction replies generalizing p with
  | nil => exact Nat.le_of_eq (unused_unanswered p)
  | cons reply rest ih =>
    rw [run]
    split
    · exact Nat.le_refl _
    · exact Nat.le_succ_of_le (ih _)

theorem result_run_done (r : Except Fault α) (replies : List Reply) :
    ((done r).run site replies).result = r := by
  cases replies <;> rfl

/-- A program that goes on with the result of another runs as that one, and then on with the
replies that are left. -/
theorem run_andThen (site : Except Fault Site) (p : Program α) (f : Except Fault α → Program β)
    (replies : List Reply) :
    (p.andThen f).run site replies = (p.run site replies).followed
      ((f (p.run site replies).result).run site ((p.run site replies).left replies)) := by
  induction replies generalizing p with
  | nil =>
    rw [Run.left, List.drop_nil]
    exact unanswered_andThen p f
  | cons reply rest ih =>
    rw [run, run, settle_andThen]
    cases settled : p.settle site with
    | mk ws state =>
      cases state with
      | finished r =>
        have left : ((Run.ended (rest.length + 1) r).noting ws).left (reply :: rest) =
            reply :: rest := by
          simp [Run.left, Run.noting, Run.ended]
        simp only [left, Run.followed_noting, Run.followed_ended]
        show _ = ((f r).run site (reply :: rest)).noting ws
        rw [run]
        obtain ⟨vs, state⟩ := (f r).settle site
        cases state <;> simp only [Run.noting_noting]
      | sending q go =>
        have left : ((((go reply).run site rest).sending q).noting ws).left (reply :: rest) =
            ((go reply).run site rest).left rest := by
          have bound := unused_run_le site (go reply) rest
          simp only [Run.left, Run.noting, Run.sending, List.length_cons]
          rw [Nat.succ_sub bound, List.drop_succ_cons]
        simp only [left, ih, Run.followed_noting, Run.followed_sending]
        rfl

def Over (p : Program α) : Prop := ∃ r, p = done r

theorem Over.andThen {p : Program α} (ends : p.Over) {f : Except Fault α → Program β}
    (next : ∀ r, (f r).Over) : (p.andThen f).Over := by
  obtain ⟨r, rfl⟩ := ends
  exact next r

theorem Over.bind {p : Program α} (ends : p.Over) {f : α → Program β}
    (next : ∀ a, (f a).Over) : (p >>= f).Over := by
  refine ends.andThen fun r => ?_
  cases r with
  | ok a => exact next a
  | error e => exact ⟨_, rfl⟩

theorem Over.requests_run {p : Program α} (ends : p.Over) (replies : List Reply) :
    (p.run site replies).requests = [] := by
  obtain ⟨r, rfl⟩ := ends
  cases replies <;> rfl

theorem exists_bind_eq (p : Program α) (f : α → Program β) :
    ∃ go, p >>= f = p.andThen go ∧ (∀ a, go (.ok a) = f a) ∧ ∀ e, go (.error e) = done (.error e) :=
  ⟨_, rfl, fun _ => rfl, fun _ => rfl⟩

theorem requests_run_bind (site : Except Fault Site) (p : Program α) (f : α → Program β)
    (replies : List Reply) :
    ∃ later, ((p >>= f).run site replies).requests =
      (p.run site replies).requests ++
        (p.run site replies).result.toOption.elim [] fun a => ((f a).run site later).requests := by
  obtain ⟨go, same, value, fault⟩ := exists_bind_eq p f
  have whole := run_andThen site p go replies
  rw [← same] at whole
  refine ⟨(p.run site replies).left replies,
    (congrArg Run.requests whole).trans (congrArg (_ ++ ·) ?_)⟩
  cases (p.run site replies).result with
  | error e => exact Over.requests_run ⟨_, fault e⟩ _
  | ok a =>
    rw [value]
    rfl

theorem requests_run_ask {c : Call} {go : Exchange → Program α} (ends : ∀ x, (go x).Over)
    (replies : List Reply) :
    ((ask c go).run site replies).requests = (site.bind (·.request c)).toOption.toList := by
  cases sent : site.bind (·.request c) with
  | error f =>
    cases replies with
    | nil =>
      rw [run, unanswered, sent]
      exact (ends _).requests_run []
    | cons reply rest =>
      obtain ⟨r, same⟩ := ends (.refused f)
      rw [run, settle, sent]
      simp only [same, settle]
      rfl
  | ok q =>
    cases replies with
    | nil =>
      rw [run, unanswered, sent]
      exact congrArg (q :: ·) ((ends _).requests_run [])
    | cons reply rest =>
      rw [run, settle, sent]
      exact congrArg (q :: ·) ((ends _).requests_run rest)

end Program

end ModelStore
