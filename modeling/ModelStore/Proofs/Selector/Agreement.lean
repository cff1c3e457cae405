import ModelStore.Proofs.Selector.Matching
import ModelStore.Proofs.Selector.Merging

/-! What merging keeps. Two conditions under one key agree if they are the same, or if both
are objects that are read entry by entry and whatever stands under their common keys agrees.
An operator's operand is one whole, so only the names of fields and `$elemMatch` lead to
objects of the other kind. Conditions that agree are merged without loss, and of conditions
that are all still there after the merge any two agree. -/

namespace ModelStore.Selector

variable {key : String} {later earlier part whole v w : Value} {fields gs : Fields}

/-- Whether the entries of an object under a key are conditions one by one. -/
def opens (key : String) (fields : Fields) : Bool :=
  (!isOperator key || key == elemKey) && !fields.isEmpty &&
    fields.all fun e => (Junction.ofKey? e.1).isNone

def opened (key : String) : Value → Bool
  | .object fields => opens key fields
  | _ => false

mutual

/-- Whether a later condition may be merged into an earlier one without loss. -/
def Agrees (key : String) : Value → Value → Prop
  | .object later, earlier =>
    if opens key later then
      ∃ fields, earlier = .object fields ∧ opens key fields ∧ AllAgree later fields
    else earlier = .object later
  | later, earlier => earlier = later

def AllAgree : List (String × Value) → Fields → Prop
  | [], _ => True
  | (key, v) :: rest, fields =>
    (∀ w, Entries.get? fields key = some w → Agrees key v w) ∧ AllAgree rest fields

end

mutual

def Kept (key : String) : Value → Value → Prop
  | .object part, whole =>
    if opens key part then
      ∃ fields, whole = .object fields ∧ opens key fields ∧ AllKept part fields
    else whole = .object part
  | part, whole => whole = part

def AllKept : List (String × Value) → Fields → Prop
  | [], _ => True
  | (key, v) :: rest, fields =>
    (∃ w, Entries.get? fields key = some w ∧ Kept key v w) ∧ AllKept rest fields

end

theorem opens_iff : opens key fields = true ↔
    (isOperator key = false ∨ key = elemKey) ∧ (∃ k, k ∈ Entries.keys fields) ∧
      ∀ k ∈ Entries.keys fields, Junction.ofKey? k = none := by
  cases fields with
  | nil => simp [opens, Entries.keys]
  | cons e rest => simp [opens, Entries.keys]

theorem opens_mergeAll (h : opens key fields = true) (h' : opens key gs = true) :
    opens key (mergeAll fields gs) = true := by
  obtain ⟨leads, ⟨k, hk⟩, plain⟩ := opens_iff.1 h
  obtain ⟨-, -, plain'⟩ := opens_iff.1 h'
  refine opens_iff.2 ⟨leads, ⟨k, mem_keys_mergeAll.2 (.inl hk)⟩, ?_⟩
  intro l hl
  rcases mem_keys_mergeAll.1 hl with old | new
  · exact plain l old
  · exact plain' l new

theorem allAgree_iff {later : List (String × Value)} :
    AllAgree later fields ↔
      ∀ e ∈ later, ∀ w, Entries.get? fields e.1 = some w → Agrees e.1 e.2 w :=
  Entries.forall_iff (AllAgree · fields) (by simp [AllAgree]) (by simp [AllAgree])

theorem allKept_iff {part : List (String × Value)} :
    AllKept part fields ↔
      ∀ e ∈ part, ∃ w, Entries.get? fields e.1 = some w ∧ Kept e.1 e.2 w :=
  Entries.forall_iff (AllKept · fields) (by simp [AllKept]) (by simp [AllKept])

theorem agrees_closed (h : opened key later = false) :
    Agrees key later earlier ↔ earlier = later := by
  cases later with
  | object fs =>
    have closed : opens key fs = false := h
    simp [Agrees, closed]
  | _ => simp [Agrees]

theorem agrees_opened (h : opens key fields = true) :
    Agrees key (.object fields) earlier ↔
      ∃ gs, earlier = .object gs ∧ opens key gs = true ∧ AllAgree fields gs := by
  simp [Agrees, h]

theorem kept_closed (h : opened key part = false) : Kept key part whole ↔ whole = part := by
  cases part with
  | object fs =>
    have closed : opens key fs = false := h
    simp [Kept, closed]
  | _ => simp [Kept]

theorem kept_opened (h : opens key fields = true) :
    Kept key (.object fields) whole ↔
      ∃ gs, whole = .object gs ∧ opens key gs = true ∧ AllKept fields gs := by
  simp [Kept, h]

theorem Agrees.opened_eq (h : Agrees key later earlier) :
    opened key earlier = opened key later := by
  cases hl : opened key later with
  | false => rw [(agrees_closed hl).1 h, hl]
  | true =>
    cases later with
    | object fs =>
      obtain ⟨gs, rfl, hg, -⟩ := (agrees_opened hl).1 h
      exact hg
    | _ => cases hl

theorem Kept.opened_eq (h : Kept key part whole) : opened key whole = opened key part := by
  cases hp : opened key part with
  | false => rw [(kept_closed hp).1 h, hp]
  | true =>
    cases part with
    | object fs =>
      obtain ⟨gs, rfl, hg, -⟩ := (kept_opened hp).1 h
      exact hg
    | _ => cases hp

mutual

theorem kept_merged {key : String} (v : Value) (keyed : v.Keyed) {before : Option Value}
    (agrees : ∀ w, before = some w → Agrees key v w) : Kept key v (merged before v) := by
  cases hv : opened key v with
  | false =>
    rw [kept_closed hv]
    cases before with
    | none => exact merged_none v
    | some w => rw [(agrees_closed hv).1 (agrees w rfl), merged_self v keyed]
  | true =>
    cases v with
    | object fs =>
      obtain ⟨distinct, each⟩ := keyed
      rw [kept_opened hv]
      cases before with
      | none =>
        refine ⟨fs, merged_none _, hv, allKept_of_merged fs each fun e he => ⟨none, ?_, by simp⟩⟩
        rw [merged_none, Entries.get?_of_mem distinct he]
      | some w =>
        obtain ⟨gs, rfl, hg, inner⟩ := (agrees_opened hv).1 (agrees w rfl)
        refine ⟨_, rfl, opens_mergeAll hg hv, allKept_of_merged fs each fun e he => ?_⟩
        refine ⟨Entries.get? gs e.1, ?_, allAgree_iff.1 inner e he⟩
        rw [get?_mergeAll _ distinct, Entries.get?_of_mem distinct he]
    | _ => cases hv

theorem allKept_of_merged {fields : Fields} (part : List (String × Value))
    (keyed : Value.FieldsKeyed part)
    (h : ∀ e ∈ part, ∃ before, Entries.get? fields e.1 = some (merged before e.2) ∧
      ∀ w, before = some w → Agrees e.1 e.2 w) : AllKept part fields := by
  cases part with
  | nil => trivial
  | cons e rest =>
    obtain ⟨key, v⟩ := e
    obtain ⟨before, found, agrees⟩ := h _ List.mem_cons_self
    refine ⟨⟨_, found, kept_merged v keyed.1 agrees⟩, ?_⟩
    exact allKept_of_merged rest keyed.2 fun e he => h e (List.mem_cons_of_mem _ he)

end

mutual

theorem Kept.merged {key : String} {v w : Value} (part : Value) (kept : Kept key part w)
    (agrees : Agrees key v w) (keyed : v.Keyed) :
    Kept key part (merged (some w) v) := by
  have same := agrees.opened_eq
  rw [kept.opened_eq] at same
  cases hp : opened key part with
  | false =>
    rw [(agrees_closed (same.symm.trans hp)).1 agrees] at kept ⊢
    rwa [merged_self v keyed]
  | true =>
    cases part with
    | object fs =>
      obtain ⟨gs, rfl, hg, inner⟩ := (kept_opened hp).1 kept
      cases v with
      | object hs =>
        have hh : opens key hs = true := same.symm.trans hp
        obtain ⟨_, ⟨⟩, -, across⟩ := (agrees_opened hh).1 agrees
        refine (kept_opened hp).2 ⟨_, rfl, opens_mergeAll hg hh, ?_⟩
        exact AllKept.mergeAll fs inner across keyed
      | _ => cases same.symm.trans hp
    | _ => cases hp

theorem AllKept.mergeAll {fields gs : Fields} (part : List (String × Value))
    (kept : AllKept part fields) (agree : AllAgree gs fields)
    (keyed : (Value.object gs).Keyed) : AllKept part (mergeAll fields gs) := by
  cases part with
  | nil => trivial
  | cons e rest =>
    obtain ⟨key, p⟩ := e
    obtain ⟨⟨w, found, here⟩, others⟩ := kept
    refine ⟨?_, AllKept.mergeAll rest others agree keyed⟩
    rw [get?_mergeAll _ keyed.1, found]
    cases h : Entries.get? gs key with
    | none => exact ⟨w, rfl, here⟩
    | some v =>
      have agrees : Agrees key v w := allAgree_iff.1 agree _ (Entries.mem_of_get? h) w found
      exact ⟨_, rfl, Kept.merged p here agrees (keyed.get? h)⟩

end

mutual

theorem Agrees.merged {key : String} {v w : Value} (later : Value)
    (first : Agrees key later w) (second : Agrees key later v) (agrees : Agrees key v w)
    (keyed : v.Keyed) : Agrees key later (merged (some w) v) := by
  cases hl : opened key later with
  | false =>
    have hw : w = later := (agrees_closed hl).1 first
    have hv : v = later := (agrees_closed hl).1 second
    subst hw hv
    rwa [merged_self v keyed]
  | true =>
    cases later with
    | object fs =>
      obtain ⟨gs, rfl, hg, inner⟩ := (agrees_opened hl).1 first
      obtain ⟨hs, rfl, hh, inner'⟩ := (agrees_opened hl).1 second
      obtain ⟨_, ⟨⟩, -, across⟩ := (agrees_opened hh).1 agrees
      refine (agrees_opened hl).2 ⟨_, rfl, opens_mergeAll hg hh, ?_⟩
      exact AllAgree.mergeAll fs inner inner' across keyed
    | _ => cases hl

theorem AllAgree.mergeAll {fields gs : Fields} (later : List (String × Value))
    (first : AllAgree later fields) (second : AllAgree later gs) (agree : AllAgree gs fields)
    (keyed : (Value.object gs).Keyed) : AllAgree later (mergeAll fields gs) := by
  cases later with
  | nil => trivial
  | cons e rest =>
    obtain ⟨key, q⟩ := e
    refine ⟨?_, AllAgree.mergeAll rest first.2 second.2 agree keyed⟩
    intro x
    rw [get?_mergeAll _ keyed.1]
    cases h : Entries.get? gs key with
    | none => exact first.1 x
    | some v =>
      rintro ⟨⟩
      have here : Agrees key q v := second.1 v h
      cases h' : Entries.get? fields key with
      | none => rwa [merged_none]
      | some w =>
        have agrees : Agrees key v w := allAgree_iff.1 agree _ (Entries.mem_of_get? h) w h'
        exact Agrees.merged q (first.1 w h') here agrees (keyed.get? h)

end

mutual

theorem Kept.agrees {key : String} {part whole : Value} (later : Value)
    (first : Kept key part whole) (second : Kept key later whole) : Agrees key later part := by
  cases hl : opened key later with
  | false =>
    rw [(kept_closed hl).1 second] at first
    have closed : opened key part = false := by rw [← first.opened_eq, hl]
    exact (agrees_closed hl).2 ((kept_closed closed).1 first).symm
  | true =>
    cases later with
    | object fs =>
      obtain ⟨ws, rfl, hw, inner⟩ := (kept_opened hl).1 second
      have hp : opened key part = true := by rw [← first.opened_eq]; exact hw
      cases part with
      | object gs =>
        obtain ⟨_, ⟨⟩, -, inner'⟩ := (kept_opened hp).1 first
        exact (agrees_opened hl).2 ⟨gs, rfl, hp, AllKept.agree fs inner' inner⟩
      | _ => cases hp
    | _ => cases hl

theorem AllKept.agree {part fields : Fields} (later : List (String × Value))
    (first : AllKept part fields) (second : AllKept later fields) : AllAgree later part := by
  cases later with
  | nil => trivial
  | cons e rest =>
    obtain ⟨key, q⟩ := e
    obtain ⟨⟨w, found, here⟩, others⟩ := second
    refine ⟨?_, AllKept.agree rest first others⟩
    intro p hp
    obtain ⟨u, found', there⟩ := allKept_iff.1 first _ (Entries.mem_of_get? hp)
    cases found.symm.trans found'
    exact Kept.agrees q there here

end

/-- Whether an entry may be merged after another one without loss. -/
def Compatible (e f : String × Value) : Prop := e.1 = f.1 → Agrees f.1 f.2 e.2

theorem AllKept.mergeAt {part : List (String × Value)} (kept : AllKept part fields)
    (agrees : ∀ w, Entries.get? fields key = some w → Agrees key v w) (keyed : v.Keyed) :
    AllKept (part ++ [(key, v)]) (mergeAt fields key v) := by
  refine allKept_iff.2 fun e he => ?_
  rcases List.mem_append.1 he with old | new
  · obtain ⟨w, found, here⟩ := allKept_iff.1 kept e old
    rw [get?_mergeAt]
    by_cases same : key = e.1
    · rw [if_pos same]
      subst same
      rw [found]
      exact ⟨_, rfl, here.merged _ (agrees w found) keyed⟩
    · rw [if_neg same]
      exact ⟨w, found, here⟩
  · cases List.mem_singleton.1 new
    exact ⟨_, get?_mergeAt_self fields key v, kept_merged v keyed agrees⟩

theorem AllAgree.mergeAt {later : List (String × Value)} (agree : AllAgree later fields)
    (next : ∀ e ∈ later, Compatible (key, v) e)
    (agrees : ∀ w, Entries.get? fields key = some w → Agrees key v w) (keyed : v.Keyed) :
    AllAgree later (mergeAt fields key v) := by
  refine allAgree_iff.2 fun e he x hx => ?_
  rw [get?_mergeAt] at hx
  by_cases same : key = e.1
  · rw [if_pos same] at hx
    subst same
    cases hx
    cases found : Entries.get? fields e.1 with
    | none =>
      rw [merged_none]
      exact next e he rfl
    | some w =>
      exact (allAgree_iff.1 agree e he w found).merged _ (next e he rfl) (agrees w found) keyed
  · rw [if_neg same] at hx
    exact allAgree_iff.1 agree e he x hx

/-- A merge keeps what was there and what it adds if each entry agrees with those before it. -/
theorem AllKept.append_mergeAll {part entries : List (String × Value)}
    (kept : AllKept part fields) (agree : AllAgree entries fields)
    (compatible : entries.Pairwise Compatible) (keyed : ∀ e ∈ entries, e.2.Keyed) :
    AllKept (part ++ entries) (Selector.mergeAll fields entries) := by
  induction entries generalizing part fields with
  | nil => rwa [List.append_nil]
  | cons e rest ih =>
    obtain ⟨key, v⟩ := e
    obtain ⟨next, compatible⟩ := List.pairwise_cons.1 compatible
    obtain ⟨here, others⟩ := List.forall_mem_cons.1 keyed
    have agree' : AllAgree rest (Selector.mergeAt fields key v) :=
      AllAgree.mergeAt agree.2 next agree.1 here
    rw [Selector.mergeAll, ← List.singleton_append, ← List.append_assoc]
    exact ih (kept.mergeAt agree.1 here) agree' compatible others

theorem allKept_mergeAll_iff {entries : List (String × Value)}
    (keyed : ∀ e ∈ entries, e.2.Keyed) :
    AllKept entries (mergeAll [] entries) ↔ entries.Pairwise Compatible := by
  constructor
  · intro kept
    refine List.pairwise_of_forall_mem_list ?_
    rintro ⟨k, p⟩ he ⟨l, q⟩ hf same
    cases same
    obtain ⟨w, found, first⟩ := allKept_iff.1 kept _ he
    obtain ⟨u, found', second⟩ := allKept_iff.1 kept _ hf
    cases found.symm.trans found'
    exact Kept.agrees q first second
  · intro compatible
    have empty : AllAgree entries [] := allAgree_iff.2 (by simp)
    have nothing : AllKept [] [] := trivial
    exact nothing.append_mergeAll empty compatible keyed

end ModelStore.Selector
