import ModelStore.Fault

/-! Results that come with remarks. The remarks made before a fault are kept. -/

namespace ModelStore

structure Noted (α : Type) where
  warnings : List Warning
  outcome : Except Fault α

namespace Noted

variable {α β γ : Type}

def ok (a : α) : Noted α := ⟨[], .ok a⟩

def fail (f : Fault) : Noted α := ⟨[], .error f⟩

def remark (w : Warning) : Noted Unit := ⟨[w], .ok ()⟩

def ofExcept (r : Except Fault α) : Noted α := ⟨[], r⟩

def bind (x : Noted α) (f : α → Noted β) : Noted β :=
  match x.outcome with
  | .ok a => ⟨x.warnings ++ (f a).warnings, (f a).outcome⟩
  | .error e => ⟨x.warnings, .error e⟩

instance : Monad Noted where
  pure := ok
  bind := bind

@[simp] theorem ok_bind (a : α) (f : α → Noted β) : (ok a >>= f) = f a := by
  show bind (ok a) f = f a
  simp [bind, ok]

@[simp] theorem fail_bind (e : Fault) (f : α → Noted β) :
    ((fail e : Noted α) >>= f) = fail e := rfl

@[simp] theorem outcome_ok (a : α) : (ok a).outcome = .ok a := rfl

theorem bind_bind (x : Noted α) (f : α → Noted β) (g : β → Noted γ) :
    bind (bind x f) g = bind x fun a => bind (f a) g := by
  obtain ⟨ws, r⟩ := x
  cases r with
  | error e => rfl
  | ok a =>
    cases h : (f a).outcome with
    | error e => simp [bind, h]
    | ok b => simp [bind, h]

theorem bind_ok (x : Noted α) : bind x ok = x := by
  obtain ⟨ws, r⟩ := x
  cases r <;> simp [bind, ok]

instance : LawfulMonad Noted :=
  LawfulMonad.mk' Noted bind_ok ok_bind bind_bind

theorem outcome_bind (x : Noted α) (f : α → Noted β) :
    (x >>= f).outcome = x.outcome.bind fun a => (f a).outcome := by
  show (bind x f).outcome = _
  unfold bind
  cases x.outcome <;> rfl

end Noted

end ModelStore
