import ModelStore.Client
import ModelStore.Store.Program

/-! What a client does: a program that ends with a result and the client as it is then. A
fault ends the action, and what the client has learnt before it stays. -/

namespace ModelStore

structure Ended (α : Type) where
  result : Except Fault α
  client : Client

def Action (α : Type) : Type := Client → Program (Ended α)

namespace Action

variable {α β γ : Type}

def ofExcept (r : Except Fault α) : Action α := fun c => pure ⟨r, c⟩

def bind (x : Action α) (f : α → Action β) : Action β := fun c => do
  let ended ← x c
  match ended.result with
  | .ok a => f a ended.client
  | .error e => pure ⟨.error e, ended.client⟩

instance : Monad Action where
  pure a := ofExcept (.ok a)
  bind := bind

theorem bind_ofExcept (x : Action α) : bind x (fun a => ofExcept (.ok a)) = x := by
  funext c
  refine Eq.trans ?_ (Program.bind_done (x c))
  show (x c).bind _ = (x c).bind _
  congr 1
  funext ended
  obtain ⟨r, c⟩ := ended
  cases r <;> rfl

theorem bind_bind (x : Action α) (f : α → Action β) (g : β → Action γ) :
    bind (bind x f) g = bind x fun a => bind (f a) g := by
  funext c
  refine Eq.trans (Program.bind_bind (x c) _ _) ?_
  show (x c).bind _ = (x c).bind _
  congr 1
  funext ended
  obtain ⟨r, c⟩ := ended
  cases r <;> rfl

instance : LawfulMonad Action :=
  LawfulMonad.mk' Action bind_ofExcept (fun _ _ => rfl) bind_bind

def client : Action Client := fun c => pure ⟨.ok c, c⟩

def perform (p : Program α) : Action α := fun c => do
  let r ← p.attempt
  pure ⟨r, c⟩

/-- The handle of a model as it is registered now, kept from now on. -/
def refresh (name : String) : Action Handle := fun c =>
  match c.resolve name with
  | .ok h => pure ⟨.ok h, c.keep name h⟩
  | .error f => pure ⟨.error f, c⟩

/-- The handle of a model, the kept one if there is one. -/
def handle (name : String) : Action Handle := fun c =>
  match Entries.get? c.handles name with
  | some h => pure ⟨.ok h, c⟩
  | none => refresh name c

def databaseOf (name : Option String) : Action String := do
  let c ← client
  ofExcept (c.database name)

def onModel (name : String) (p : Settings → Handle → Program α) : Action α := do
  let h ← handle name
  let c ← client
  perform (p c.settings h)

end Action

end ModelStore
