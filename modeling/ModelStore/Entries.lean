/-! Entries keyed by text, in the order in which the keys were first written.
Writing a key that is present keeps its place; a new key goes to the end. The
order of the entries is part of every answer, so the table is a plain list and
the operations are recursions on it. -/

namespace ModelStore

abbrev Entries (α : Type u) := List (String × α)

namespace Entries

variable {α : Type u} {β : Type v}

def get? : Entries α → String → Option α
  | [], _ => none
  | (k, v) :: rest, key => if k = key then some v else get? rest key

def has (entries : Entries α) (key : String) : Bool :=
  (get? entries key).isSome

def keys (entries : Entries α) : List String :=
  entries.map Prod.fst

def set : Entries α → String → α → Entries α
  | [], key, value => [(key, value)]
  | (k, v) :: rest, key, value =>
    if k = key then (k, value) :: rest else (k, v) :: set rest key value

def erase (entries : Entries α) (key : String) : Entries α :=
  entries.filter fun e => e.1 ≠ key

def update (entries later : Entries α) : Entries α :=
  later.foldl (fun acc e => set acc e.1 e.2) entries

/-- A table in which each key is written once, from a list that may repeat keys. -/
def ofList (entries : List (String × α)) : Entries α :=
  update [] entries

def mapValues (f : α → β) (entries : Entries α) : Entries β :=
  entries.map fun e => (e.1, f e.2)

@[simp] theorem get?_nil (key : String) : get? ([] : Entries α) key = none := rfl

theorem get?_cons (k : String) (v : α) (rest : Entries α) (key : String) :
    get? ((k, v) :: rest) key = if k = key then some v else get? rest key := rfl

@[simp] theorem get?_set_self (entries : Entries α) (key : String) (value : α) :
    get? (set entries key value) key = some value := by
  induction entries with
  | nil => simp [set, get?]
  | cons e rest ih =>
    obtain ⟨k, v⟩ := e
    by_cases h : k = key <;> simp [set, get?, h, ih]

theorem get?_set_ne (entries : Entries α) {key other : String} (value : α) (h : key ≠ other) :
    get? (set entries key value) other = get? entries other := by
  induction entries with
  | nil => simp [set, get?, h]
  | cons e rest ih =>
    obtain ⟨k, v⟩ := e
    by_cases hk : k = key
    · subst hk
      simp [set, get?, h]
    · rw [set, if_neg hk, get?, get?, ih]

theorem get?_set (entries : Entries α) (key other : String) (value : α) :
    get? (set entries key value) other =
      if key = other then some value else get? entries other := by
  by_cases h : key = other
  · subst h
    simp
  · simp [get?_set_ne _ _ h, h]

@[simp] theorem get?_erase_self (entries : Entries α) (key : String) :
    get? (erase entries key) key = none := by
  induction entries with
  | nil => rfl
  | cons e rest ih =>
    obtain ⟨k, v⟩ := e
    by_cases h : k = key
    · simpa [erase, h] using ih
    · simpa [erase, get?, h] using ih

theorem get?_erase_ne (entries : Entries α) {key other : String} (h : key ≠ other) :
    get? (erase entries key) other = get? entries other := by
  induction entries with
  | nil => rfl
  | cons e rest ih =>
    obtain ⟨k, v⟩ := e
    by_cases hk : k = key
    · subst hk
      simpa [erase, get?, h] using ih
    · by_cases ho : k = other
      · subst ho
        simp [erase, get?, hk]
      · simpa [erase, get?, hk, ho] using ih

theorem get?_mapValues (f : α → β) (entries : Entries α) (key : String) :
    get? (mapValues f entries) key = (get? entries key).map f := by
  induction entries with
  | nil => rfl
  | cons e rest ih =>
    obtain ⟨k, v⟩ := e
    by_cases h : k = key
    · simp [mapValues, get?, h]
    · simpa [mapValues, get?, h] using ih

end Entries

end ModelStore
