import ModelStore.Fault

/-! Checks of declarations and settings that report every complaint, in the order of the
parts checked. -/

namespace ModelStore

abbrev Checked (α : Type) := Except (List Complaint) α

namespace Checked

variable {α β γ : Type}

def complain (cause : Complaint.Cause) : Checked α := .error [⟨[], cause⟩]

def complaints : Checked α → List Complaint
  | .ok _ => []
  | .error cs => cs

def both (x : Checked α) (y : Checked β) : Checked (α × β) :=
  match x, y with
  | .ok a, .ok b => .ok (a, b)
  | x, y => .error (complaints x ++ complaints y)

def inside (place : String) (x : Checked α) : Checked α :=
  match x with
  | .ok a => .ok a
  | .error cs => .error (cs.map (Complaint.inside place))

/-- The values of a table, each checked at its key. -/
def entries : List (String × Checked α) → Checked (List (String × α))
  | [] => .ok []
  | (key, x) :: rest =>
    (both (inside key x) (entries rest)).map fun r => (key, r.1) :: r.2

end Checked

end ModelStore
