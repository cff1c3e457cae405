import ModelStore.Store.Program

/-! Running a program on a site against replies laid out in advance. Each request takes the
next reply; when none are left every further request fails. -/

namespace ModelStore

structure Run (α : Type) where
  requests : List Request
  warnings : List Warning
  unused : Nat
  result : Except Fault α

namespace Run

variable {α : Type}

def ended (unused : Nat) (r : Except Fault α) : Run α := ⟨[], [], unused, r⟩

def noting (ws : List Warning) (r : Run α) : Run α := { r with warnings := ws ++ r.warnings }

def sending (q : Request) (r : Run α) : Run α := { r with requests := q :: r.requests }

end Run

namespace Program

variable {α : Type}

def noReply : TransportFault := ⟨.connect, "no scripted response"⟩

/-- The run of a program whose requests all fail. -/
def unanswered (site : Except Fault Site) : Program α → Run α
  | done r => .ended 0 r
  | remark w rest => (unanswered site rest).noting [w]
  | ask c go =>
    match site.bind (·.request c) with
    | .error f => unanswered site (go (.refused f))
    | .ok r => (unanswered site (go (.failed noReply))).sending r
  | scan s go =>
    match s.next with
    | .ended r => unanswered site (go r)
    | .ask c =>
      match site.bind (·.request c) with
      | .error f => unanswered site (go (.error f))
      | .ok r => (unanswered site (go (.error (.transport noReply)))).sending r

def run (p : Program α) (site : Except Fault Site) : List Reply → Run α
  | [] => p.unanswered site
  | reply :: rest =>
    match p.settle site with
    | (ws, .finished result) => (Run.ended (rest.length + 1) result).noting ws
    | (ws, .sending r go) => ((run (go reply) site rest).sending r).noting ws

end Program

end ModelStore
