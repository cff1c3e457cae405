import ModelStore.Proofs.Selector.Matching
import ModelStore.Proofs.Selector.Merging

/-! Merging as conjunction. Conditions on one field that name different operators end up side
by side, so a selector merged from entries that stand apart is met where each of them is. -/

namespace ModelStore.Selector

variable {search : Search} {joins : Bool} {key : String} {v : Option Value}

/-- What a condition becomes: a value to equal, or operators that are each named once. -/
def IsCondition (fragment : Value) : Prop :=
  ∀ fields, fragment = .object fields →
    fields ≠ [] ∧ (Entries.keys fields).Nodup ∧ ∀ k ∈ Entries.keys fields, isOperator k = true

/-- Whether two entries name different operators if they are about one field. -/
def Apart (e f : String × Value) : Prop :=
  e.1 = f.1 → ∃ gs hs, e.2 = .object gs ∧ f.2 = .object hs ∧
    ∀ k ∈ Entries.keys gs, k ∉ Entries.keys hs

def IsPlain (e : String × Value) : Prop :=
  IsCondition e.2 ∧ (isObject e.2 = true → isOperator e.1 = false)

theorem holdsAll_append {gs hs : Fields} :
    holdsAll search joins (gs ++ hs) v =
      (holdsAll search joins gs v && holdsAll search joins hs v) := by
  induction gs with
  | nil => rfl
  | cons e rest ih => rw [List.cons_append, holdsAll, holdsAll, ih, Bool.and_assoc]

theorem holds_operators {fields : Fields} (field : isOperator key = false)
    (condition : IsCondition (.object fields)) :
    holds search joins key (.object fields) v =
      holdsAll search false fields (v.bind (fieldAt key)) := by
  obtain ⟨some_, -, operators⟩ := condition fields rfl
  have all : (fields.all fun e => isOperator e.1) = true :=
    List.all_eq_true.2 fun e he => operators _ (List.mem_map.2 ⟨e, he, rfl⟩)
  rw [holds_field field (by simpa using some_), if_pos all]

theorem mergeAll_of_disjoint {gs hs : Fields} (distinct : (Entries.keys hs).Nodup)
    (apart : ∀ k ∈ Entries.keys gs, k ∉ Entries.keys hs) : mergeAll gs hs = gs ++ hs := by
  induction hs generalizing gs with
  | nil => rw [mergeAll, List.append_nil]
  | cons e rest ih =>
    obtain ⟨key, v⟩ := e
    obtain ⟨fresh, distinct⟩ := List.nodup_cons.1 distinct
    have absent : Entries.get? gs key = none :=
      Entries.get?_eq_none.2 fun present => apart key present List.mem_cons_self
    have apart' : ∀ k ∈ Entries.keys (gs ++ [(key, v)]), k ∉ Entries.keys rest := by
      intro k hk
      rw [Entries.keys, List.map_append, List.mem_append, List.map_singleton,
        List.mem_singleton] at hk
      rcases hk with old | rfl
      · exact fun present => apart k old (List.mem_cons_of_mem _ present)
      · exact fresh
    rw [mergeAll, mergeAt_eq, absent, merged_none, Entries.set_of_get?_none absent,
      ih distinct apart', List.append_assoc, List.singleton_append]

theorem merged_of_apart {gs hs : Fields} (later : IsCondition (.object hs))
    (apart : ∀ k ∈ Entries.keys gs, k ∉ Entries.keys hs) :
    merged (some (.object gs)) (.object hs) = .object (gs ++ hs) := by
  rw [merged_object, mergeAll_of_disjoint (later hs rfl).2.1 apart]

theorem isCondition_append {gs hs : Fields} (first : IsCondition (.object gs))
    (later : IsCondition (.object hs)) (apart : ∀ k ∈ Entries.keys gs, k ∉ Entries.keys hs) :
    IsCondition (.object (gs ++ hs)) := by
  obtain ⟨some_, distinct, operators⟩ := first gs rfl
  obtain ⟨-, distinct', operators'⟩ := later hs rfl
  rintro _ ⟨⟩
  have keys : Entries.keys (gs ++ hs) = Entries.keys gs ++ Entries.keys hs := List.map_append
  rw [keys]
  refine ⟨by simp [some_], List.nodup_append.2 ⟨distinct, distinct', ?_⟩, ?_⟩
  · rintro k hk _ hl rfl
    exact apart k hk hl
  · intro k hk
    rcases List.mem_append.1 hk with old | new
    · exact operators k old
    · exact operators' k new

variable {target : Fields} {added : Value}

theorem holdsAll_mergeAt (distinct : (Entries.keys target).Nodup)
    (plain : ∀ e ∈ target, IsPlain e) (new : IsPlain (key, added))
    (apart : ∀ e ∈ target, Apart e (key, added)) :
    holdsAll search true (mergeAt target key added) v = true ↔
      holdsAll search true target v = true ∧ holds search true key added v = true := by
  rw [mergeAt_eq]
  cases found : Entries.get? target key with
  | none =>
    rw [merged_none, Entries.set_of_get?_none found, holdsAll_append, Bool.and_eq_true_iff]
    simp [holdsAll]
  | some w =>
    have here : (key, w) ∈ target := Entries.mem_of_get? found
    obtain ⟨gs, hs, first, second, disjoint⟩ := apart _ here rfl
    cases first
    cases second
    have field : isOperator key = false := new.2 rfl
    have both := isCondition_append (plain _ here).1 new.1 disjoint
    have before : (∀ e ∈ target, holds search true e.1 e.2 v = true) ↔
        holds search true key (.object gs) v = true ∧
          ∀ e ∈ target, e.1 ≠ key → holds search true e.1 e.2 v = true :=
      Entries.forall_mem_of_get? distinct found
    rw [merged_of_apart new.1 disjoint, holdsAll_iff, holdsAll_iff, before,
      Entries.forall_mem_set distinct found, holds_operators field both,
      holds_operators field new.1, holds_operators field (plain _ here).1, holdsAll_append,
      Bool.and_eq_true_iff]
    exact and_right_comm

theorem isPlain_mergeAt (plain : ∀ e ∈ target, IsPlain e) (new : IsPlain (key, added))
    (apart : ∀ e ∈ target, Apart e (key, added)) :
    ∀ e ∈ mergeAt target key added, IsPlain e := by
  rintro ⟨k, w⟩ he
  rw [mergeAt_eq] at he
  rcases Entries.mem_set he with written | old
  · cases written
    cases found : Entries.get? target key with
    | none => rwa [merged_none]
    | some w =>
      have here : (key, w) ∈ target := Entries.mem_of_get? found
      obtain ⟨gs, hs, first, second, disjoint⟩ := apart _ here rfl
      cases first
      cases second
      rw [merged_of_apart new.1 disjoint]
      exact ⟨isCondition_append (plain _ here).1 new.1 disjoint, fun _ => new.2 rfl⟩
  · exact plain _ old

theorem apart_mergeAt {f : String × Value} (new : IsPlain (key, added))
    (apart : ∀ e ∈ target, Apart e (key, added)) (others : ∀ e ∈ target, Apart e f)
    (next : Apart (key, added) f) : ∀ e ∈ mergeAt target key added, Apart e f := by
  rintro ⟨k, w⟩ he
  rw [mergeAt_eq] at he
  rcases Entries.mem_set he with written | old
  · cases written
    cases found : Entries.get? target key with
    | none => rwa [merged_none]
    | some w =>
      have here : (key, w) ∈ target := Entries.mem_of_get? found
      obtain ⟨gs, hs, first, second, disjoint⟩ := apart _ here rfl
      cases first
      cases second
      rw [merged_of_apart new.1 disjoint]
      intro same
      obtain ⟨_, fs, ⟨⟩, third, disjoint'⟩ := others _ here same
      obtain ⟨_, _, ⟨⟩, third', disjoint''⟩ := next same
      cases third.symm.trans third'
      refine ⟨_, fs, rfl, third, fun k hk => ?_⟩
      rw [Entries.keys, List.map_append, List.mem_append] at hk
      exact hk.elim (disjoint' k) (disjoint'' k)
  · exact others _ old

/-- A selector merged from entries that stand apart is met where each of them is met. -/
theorem holdsAll_mergeAll {es : List (String × Value)}
    (distinct : (Entries.keys target).Nodup) (plain : ∀ e ∈ target, IsPlain e)
    (new : ∀ f ∈ es, IsPlain f) (apart : ∀ e ∈ target, ∀ f ∈ es, Apart e f)
    (pairwise : es.Pairwise Apart) :
    holdsAll search true (mergeAll target es) v = true ↔
      holdsAll search true target v = true ∧ ∀ f ∈ es, holds search true f.1 f.2 v = true := by
  induction es generalizing target with
  | nil => simp [mergeAll]
  | cons f rest ih =>
    obtain ⟨key, added⟩ := f
    obtain ⟨here, others⟩ := List.forall_mem_cons.1 new
    obtain ⟨next, pairwise⟩ := List.pairwise_cons.1 pairwise
    have first : ∀ e ∈ target, Apart e (key, added) := fun e he => apart e he _ List.mem_cons_self
    have distinct' : (Entries.keys (mergeAt target key added)).Nodup := by
      rw [mergeAt_eq]
      exact Entries.nodup_set distinct _ _
    have apart' : ∀ e ∈ mergeAt target key added, ∀ g ∈ rest, Apart e g := by
      intro e he g hg
      exact apart_mergeAt here first (fun e he => apart e he g (List.mem_cons_of_mem _ hg))
        (next g hg) e he
    rw [mergeAll, ih distinct' (isPlain_mergeAt plain here first) others apart' pairwise,
      holdsAll_mergeAt distinct plain here first, List.forall_mem_cons, and_assoc]

theorem holdsAll_mergeAll_nil {es : List (String × Value)} (plain : ∀ e ∈ es, IsPlain e)
    (pairwise : es.Pairwise Apart) :
    holdsAll search true (mergeAll [] es) v = true ↔
      ∀ e ∈ es, holds search true e.1 e.2 v = true := by
  rw [holdsAll_mergeAll (by simp [Entries.keys]) (by simp) plain (by simp) pairwise]
  simp [holdsAll]

end ModelStore.Selector
