import ModelStore.Filter.Parse
import ModelStore.Proofs.Noted
import ModelStore.Proofs.Value.Keyed

/-! The branches of a filter, at any depth, and what the operands of a filter that was read
from a value have from it. -/

namespace ModelStore

def Condition.operand : Condition → Value
  | .literal v => v
  | .operator _ v _ => v

mutual

/-- Whether every operand in a filter names its keys once. -/
def Clause.Keyed : Clause → Prop
  | .field _ condition => condition.operand.Keyed
  | .logical _ branches => Filter.AllKeyed branches

def Filter.Keyed : List Clause → Prop
  | [] => True
  | clause :: rest => clause.Keyed ∧ Filter.Keyed rest

def Filter.AllKeyed : List (List Clause) → Prop
  | [] => True
  | branch :: rest => Filter.Keyed branch ∧ Filter.AllKeyed rest

end

mutual

/-- Whether no branch of a filter has two clauses that join branches in one way. -/
def Clause.Once : Clause → Prop
  | .field _ _ => True
  | .logical _ branches => Filter.AllOnce branches

def Filter.Once : List Clause → Prop
  | [] => True
  | clause :: rest =>
    clause.Once ∧ (∀ op bs bs', clause = .logical op bs → .logical op bs' ∉ rest) ∧
      Filter.Once rest

def Filter.AllOnce : List (List Clause) → Prop
  | [] => True
  | branch :: rest => Filter.Once branch ∧ Filter.AllOnce rest

end

namespace Filter

/-- Whether a list of clauses is the filter itself or a branch below one of its clauses. -/
inductive HasBranch (tree : Filter) : Filter → Prop where
  | whole : HasBranch tree tree
  | inside {outer branch : Filter} {op : Junction} {branches : List Filter}
      (within : HasBranch tree outer) (clause : .logical op branches ∈ outer)
      (one : branch ∈ branches) : HasBranch tree branch

theorem keyed_iff {filter : Filter} : Keyed filter ↔ ∀ c ∈ filter, c.Keyed := by
  induction filter with
  | nil => simp [Keyed]
  | cons c rest ih => rw [Keyed, ih, List.forall_mem_cons]

theorem allKeyed_iff {branches : List Filter} : AllKeyed branches ↔ ∀ b ∈ branches, Keyed b := by
  induction branches with
  | nil => simp [AllKeyed]
  | cons b rest ih => rw [AllKeyed, ih, List.forall_mem_cons]

theorem HasBranch.keyed {tree branch : Filter} (h : tree.HasBranch branch)
    (keyed : Keyed tree) : Keyed branch := by
  induction h with
  | whole => exact keyed
  | inside within clause one ih => exact allKeyed_iff.1 (keyed_iff.1 ih _ clause) _ one

end Filter

theorem Condition.parse_keyed {v : Value} (keyed : v.Keyed) {conditions : List Condition}
    (h : Condition.parse v = .ok conditions) : ∀ c ∈ conditions, c.operand.Keyed := by
  intro c hc
  cases v with
  | object fields =>
    obtain ⟨options, -, rfl⟩ := Except.map_eq_ok.1 h
    split at hc
    · cases List.mem_singleton.1 hc
      exact keyed
    · obtain ⟨e, he, rfl⟩ := List.mem_map.1 hc
      exact (Value.keyed_object.1 keyed).2 e (List.mem_filter.1 he).1
  | _ =>
    cases h
    cases List.mem_singleton.1 hc
    exact keyed

namespace Filter

mutual

theorem parse_keyed {tree : Filter} (v : Value) (keyed : v.Keyed)
    (h : parse v = .ok tree) : Keyed tree := by
  cases v with
  | object fields => exact parseEntries_keyed fields keyed.2 h
  | scalar s =>
    cases s with
    | null =>
      cases h
      trivial
    | _ => cases h
  | _ => cases h

theorem parseEntries_keyed {tree : Filter} (entries : List (String × Value))
    (keyed : Value.FieldsKeyed entries) (h : parseEntries entries = .ok tree) :
    Keyed tree := by
  cases entries with
  | nil =>
    cases h
    trivial
  | cons e rest =>
    obtain ⟨key, v⟩ := e
    rw [parseEntries] at h
    split at h
    · obtain ⟨branches, first, h⟩ := Except.bind_eq_ok.1 h
      obtain ⟨clauses, others, h⟩ := Except.bind_eq_ok.1 h
      cases h
      exact ⟨parseBranches_keyed v keyed.1 first, parseEntries_keyed rest keyed.2 others⟩
    · obtain ⟨conditions, first, h⟩ := Except.bind_eq_ok.1 h
      obtain ⟨clauses, others, h⟩ := Except.bind_eq_ok.1 h
      cases h
      refine keyed_iff.2 fun c hc => ?_
      rcases List.mem_append.1 hc with new | old
      · obtain ⟨condition, hcondition, rfl⟩ := List.mem_map.1 new
        exact Condition.parse_keyed keyed.1 first condition hcondition
      · exact keyed_iff.1 (parseEntries_keyed rest keyed.2 others) c old

theorem parseBranches_keyed {key : String} {branches : List Filter} (v : Value)
    (keyed : v.Keyed) (h : parseBranches key v = .ok branches) : AllKeyed branches := by
  cases v with
  | array items => exact parseAll_keyed items keyed h
  | tuple items => exact parseAll_keyed items keyed h
  | _ => cases h

theorem parseAll_keyed {branches : List Filter} (items : List Value)
    (keyed : Value.AllKeyed items) (h : parseAll items = .ok branches) :
    AllKeyed branches := by
  cases items with
  | nil =>
    cases h
    trivial
  | cons v rest =>
    rw [parseAll] at h
    obtain ⟨branch, first, h⟩ := Except.bind_eq_ok.1 h
    obtain ⟨branches, others, h⟩ := Except.bind_eq_ok.1 h
    cases h
    exact ⟨parse_keyed v keyed.1 first, parseAll_keyed rest keyed.2 others⟩

end

theorem key_of_logical_mem {entries : List (String × Value)} {tree : Filter}
    (h : parseEntries entries = .ok tree) {op : Junction} {branches : List Filter}
    (clause : .logical op branches ∈ tree) : op.name ∈ Entries.keys entries := by
  induction entries generalizing tree with
  | nil =>
    cases h
    cases clause
  | cons e rest ih =>
    obtain ⟨key, v⟩ := e
    rw [parseEntries] at h
    split at h
    · rename_i named
      obtain ⟨bs, -, h⟩ := Except.bind_eq_ok.1 h
      obtain ⟨clauses, others, h⟩ := Except.bind_eq_ok.1 h
      cases h
      rcases List.mem_cons.1 clause with first | later
      · cases first
        rw [Junction.name_of_ofName? named]
        exact List.mem_cons_self
      · exact List.mem_cons_of_mem _ (ih others later)
    · obtain ⟨conditions, -, h⟩ := Except.bind_eq_ok.1 h
      obtain ⟨clauses, others, h⟩ := Except.bind_eq_ok.1 h
      cases h
      rcases List.mem_append.1 clause with new | later
      · obtain ⟨c, -, field⟩ := List.mem_map.1 new
        cases field
      · exact List.mem_cons_of_mem _ (ih others later)

theorem once_fields {path : String} {conditions : List Condition} {rest : Filter}
    (h : Once rest) : Once (conditions.map (.field path) ++ rest) := by
  induction conditions with
  | nil => exact h
  | cons c others ih => exact ⟨trivial, by simp, ih⟩

mutual

theorem parse_once {tree : Filter} (v : Value) (keyed : v.Keyed) (h : parse v = .ok tree) :
    Once tree := by
  cases v with
  | object fields => exact parseEntries_once fields keyed.1 keyed.2 h
  | scalar s =>
    cases s with
    | null =>
      cases h
      trivial
    | _ => cases h
  | _ => cases h

theorem parseEntries_once {tree : Filter} (entries : List (String × Value))
    (distinct : (Entries.keys entries).Nodup) (keyed : Value.FieldsKeyed entries)
    (h : parseEntries entries = .ok tree) : Once tree := by
  cases entries with
  | nil =>
    cases h
    trivial
  | cons e rest =>
    obtain ⟨key, v⟩ := e
    obtain ⟨fresh, distinct⟩ := List.nodup_cons.1 distinct
    rw [parseEntries] at h
    split at h
    · rename_i named
      obtain ⟨branches, first, h⟩ := Except.bind_eq_ok.1 h
      obtain ⟨clauses, others, h⟩ := Except.bind_eq_ok.1 h
      cases h
      refine ⟨parseBranches_once v keyed.1 first, ?_,
        parseEntries_once rest distinct keyed.2 others⟩
      rintro op _ bs' ⟨⟩ again
      have present := key_of_logical_mem others again
      rw [Junction.name_of_ofName? named] at present
      exact fresh present
    · obtain ⟨conditions, first, h⟩ := Except.bind_eq_ok.1 h
      obtain ⟨clauses, others, h⟩ := Except.bind_eq_ok.1 h
      cases h
      exact once_fields (parseEntries_once rest distinct keyed.2 others)

theorem parseBranches_once {key : String} {branches : List Filter} (v : Value)
    (keyed : v.Keyed) (h : parseBranches key v = .ok branches) : AllOnce branches := by
  cases v with
  | array items => exact parseAll_once items keyed h
  | tuple items => exact parseAll_once items keyed h
  | _ => cases h

theorem parseAll_once {branches : List Filter} (items : List Value)
    (keyed : Value.AllKeyed items) (h : parseAll items = .ok branches) :
    AllOnce branches := by
  cases items with
  | nil =>
    cases h
    trivial
  | cons v rest =>
    rw [parseAll] at h
    obtain ⟨branch, first, h⟩ := Except.bind_eq_ok.1 h
    obtain ⟨branches, others, h⟩ := Except.bind_eq_ok.1 h
    cases h
    exact ⟨parse_once v keyed.1 first, parseAll_once rest keyed.2 others⟩

end

end Filter

end ModelStore
