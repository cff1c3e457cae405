import ModelStore.Entries

/-! Entries as tables. Looking up a key and having an entry under it are the same where no key
is repeated; writing and merging are told by what a look-up finds afterwards. -/

namespace ModelStore.Entries

variable {α : Type u}

theorem forall_iff {P : String × α → Prop} (Q : List (String × α) → Prop) (nil : Q [])
    (cons : ∀ e rest, Q (e :: rest) ↔ P e ∧ Q rest) {entries : List (String × α)} :
    Q entries ↔ ∀ e ∈ entries, P e := by
  induction entries with
  | nil => simp [nil]
  | cons e rest ih => rw [cons, ih, List.forall_mem_cons]

theorem keys_cons (e : String × α) (rest : Entries α) : keys (e :: rest) = e.1 :: keys rest := rfl

theorem mem_keys {entries : Entries α} {key : String} :
    key ∈ keys entries ↔ ∃ v, (key, v) ∈ entries := by
  simp [keys]

theorem mem_of_get? {entries : Entries α} {key : String} {v : α}
    (h : get? entries key = some v) : (key, v) ∈ entries := by
  induction entries with
  | nil => cases h
  | cons e rest ih =>
    obtain ⟨k, w⟩ := e
    rw [get?_cons] at h
    split at h
    · rename_i same
      cases h
      simp [same]
    · exact List.mem_cons_of_mem _ (ih h)

theorem get?_of_mem {entries : Entries α} (distinct : (keys entries).Nodup) {key : String} {v : α}
    (h : (key, v) ∈ entries) : get? entries key = some v := by
  induction entries with
  | nil => cases h
  | cons e rest ih =>
    obtain ⟨k, w⟩ := e
    obtain ⟨fresh, distinct⟩ := List.nodup_cons.1 distinct
    rw [get?_cons]
    rcases List.mem_cons.1 h with same | tail
    · cases same
      simp
    · have other : k ≠ key := by
        rintro rfl
        exact fresh (List.mem_map.2 ⟨_, tail, rfl⟩)
      rw [if_neg other, ih distinct tail]

theorem get?_eq_none {entries : Entries α} {key : String} :
    get? entries key = none ↔ key ∉ keys entries := by
  induction entries with
  | nil => simp [keys]
  | cons e rest ih =>
    obtain ⟨k, w⟩ := e
    rw [get?_cons]
    by_cases h : k = key
    · simp [keys, h]
    · simpa [keys, h, Ne.symm h] using ih

theorem set_get? {entries : Entries α} {key : String} {v : α}
    (h : get? entries key = some v) : set entries key v = entries := by
  induction entries with
  | nil => cases h
  | cons e rest ih =>
    obtain ⟨k, w⟩ := e
    rw [get?_cons] at h
    rw [set]
    split at h
    · rename_i same
      cases h
      simp [same]
    · rename_i other
      rw [if_neg other, ih h]

theorem set_of_get?_none {entries : Entries α} {key : String} (h : get? entries key = none)
    (v : α) : set entries key v = entries ++ [(key, v)] := by
  induction entries with
  | nil => rfl
  | cons e rest ih =>
    obtain ⟨k, w⟩ := e
    rw [get?_cons] at h
    split at h
    · cases h
    · rename_i other
      rw [set, if_neg other, ih h, List.cons_append]

theorem forall_mem_set {entries : Entries α} (distinct : (keys entries).Nodup) {key : String}
    {w : α} (h : get? entries key = some w) (v : α) {P : String × α → Prop} :
    (∀ e ∈ set entries key v, P e) ↔ P (key, v) ∧ ∀ e ∈ entries, e.1 ≠ key → P e := by
  induction entries with
  | nil => cases h
  | cons e rest ih =>
    obtain ⟨k, u⟩ := e
    obtain ⟨fresh, distinct⟩ := List.nodup_cons.1 distinct
    by_cases same : k = key
    · subst same
      have others : ∀ e ∈ rest, e.1 ≠ k := by
        rintro e he rfl
        exact fresh (List.mem_map.2 ⟨e, he, rfl⟩)
      rw [set, if_pos rfl, List.forall_mem_cons, List.forall_mem_cons]
      refine and_congr_right fun _ => ⟨fun each => ?_, fun each e he => each.2 e he (others e he)⟩
      exact ⟨fun ne => absurd rfl ne, fun e he _ => each e he⟩
    · rw [get?_cons, if_neg same] at h
      rw [set, if_neg same, List.forall_mem_cons, List.forall_mem_cons, ih distinct h]
      constructor
      · rintro ⟨first, here, others⟩
        exact ⟨here, fun _ => first, others⟩
      · rintro ⟨here, first, others⟩
        exact ⟨first same, here, others⟩

theorem forall_mem_of_get? {entries : Entries α} (distinct : (keys entries).Nodup)
    {key : String} {v : α} (h : get? entries key = some v) {P : String × α → Prop} :
    (∀ e ∈ entries, P e) ↔ P (key, v) ∧ ∀ e ∈ entries, e.1 ≠ key → P e := by
  rw [← forall_mem_set distinct h v, set_get? h]

theorem keys_set (entries : Entries α) (key : String) (v : α) :
    keys (set entries key v) =
      if key ∈ keys entries then keys entries else keys entries ++ [key] := by
  induction entries with
  | nil => simp [set, keys]
  | cons e rest ih =>
    obtain ⟨k, w⟩ := e
    by_cases h : k = key
    · simp [set, keys, h]
    · simp only [keys] at ih
      simp only [set, h, if_false, keys, List.map_cons, ih, List.mem_cons, Ne.symm h, false_or]
      by_cases hk : key ∈ rest.map Prod.fst <;> simp [hk]

theorem nodup_set {entries : Entries α} (distinct : (keys entries).Nodup) (key : String) (v : α) :
    (keys (set entries key v)).Nodup := by
  rw [keys_set]
  split
  · exact distinct
  · rename_i fresh
    rw [List.nodup_append]
    refine ⟨distinct, by simp, ?_⟩
    intro k hk l hl
    rw [List.mem_singleton.1 hl]
    rintro rfl
    exact fresh hk

theorem mem_set {entries : Entries α} {key k : String} {v w : α}
    (h : (k, w) ∈ set entries key v) : (k, w) = (key, v) ∨ (k, w) ∈ entries := by
  induction entries with
  | nil => exact .inl (by simpa [set] using h)
  | cons e rest ih =>
    obtain ⟨l, u⟩ := e
    rw [set] at h
    split at h
    · rename_i same
      rcases List.mem_cons.1 h with head | tail
      · exact .inl (by rw [head, same])
      · exact .inr (List.mem_cons_of_mem _ tail)
    · rcases List.mem_cons.1 h with head | tail
      · exact .inr (by rw [head]; exact List.mem_cons_self)
      · rcases ih tail with new | old
        · exact .inl new
        · exact .inr (List.mem_cons_of_mem _ old)

theorem nodup_update {entries : Entries α} (distinct : (keys entries).Nodup) (later : Entries α) :
    (keys (update entries later)).Nodup := by
  induction later generalizing entries with
  | nil => exact distinct
  | cons e rest ih => exact ih (nodup_set distinct e.1 e.2)

theorem get?_update {later : Entries α} (distinct : (keys later).Nodup) (entries : Entries α)
    (key : String) : get? (update entries later) key = (get? later key).or (get? entries key) := by
  induction later generalizing entries with
  | nil => rfl
  | cons e rest ih =>
    obtain ⟨k, v⟩ := e
    obtain ⟨fresh, distinct⟩ := List.nodup_cons.1 distinct
    have rest_ := ih distinct (set entries k v)
    rw [get?_cons]
    by_cases same : k = key
    · subst same
      have absent : get? rest k = none := get?_eq_none.2 fresh
      rw [if_pos rfl]
      simpa [update, absent] using rest_
    · rw [if_neg same]
      simpa [update, get?_set_ne _ _ same] using rest_

theorem of_get?_update {entries later : Entries α} {key : String} {v : α}
    (h : get? (update entries later) key = some v) :
    (key, v) ∈ later ∨ key ∉ keys later ∧ get? entries key = some v := by
  induction later generalizing entries with
  | nil => exact .inr ⟨by simp [keys], h⟩
  | cons e rest ih =>
    obtain ⟨k, w⟩ := e
    have after : get? (update (set entries k w) rest) key = some v := h
    rcases ih after with mem | ⟨absent, there⟩
    · exact .inl (List.mem_cons_of_mem _ mem)
    · by_cases same : k = key
      · subst same
        rw [get?_set_self] at there
        cases there
        exact .inl List.mem_cons_self
      · rw [get?_set_ne _ _ same] at there
        exact .inr ⟨List.not_mem_cons_of_ne_of_not_mem (Ne.symm same) absent, there⟩

theorem nodup_erase {entries : Entries α} (distinct : (keys entries).Nodup) (key : String) :
    (keys (erase entries key)).Nodup :=
  (List.Sublist.map _ List.filter_sublist).nodup distinct

theorem get?_ofList {entries : Entries α} (distinct : (keys entries).Nodup) (key : String) :
    get? (ofList entries) key = get? entries key := by
  rw [ofList, get?_update distinct, get?_nil, Option.or_none]

theorem get?_filter {entries : Entries α} (distinct : (keys entries).Nodup) (keep : α → Bool)
    (key : String) :
    get? (entries.filter fun e => keep e.2) key = (get? entries key).filter keep := by
  induction entries with
  | nil => rfl
  | cons e rest ih =>
    obtain ⟨k, v⟩ := e
    obtain ⟨fresh, distinct⟩ := List.nodup_cons.1 distinct
    have rest_ := ih distinct
    rw [get?_cons]
    by_cases same : k = key
    · subst same
      have absent : get? rest k = none := get?_eq_none.2 fresh
      rw [absent] at rest_
      cases kept : keep v <;> simp [kept, get?_cons, rest_, Option.filter]
    · rw [if_neg same, ← rest_]
      cases kept : keep v <;> simp [kept, get?_cons, same]

theorem mem_keys_filter {entries : Entries α} (distinct : (keys entries).Nodup) {key : String}
    {v : α} (mem : (key, v) ∈ entries) (keep : String × α → Bool) :
    key ∈ keys (entries.filter keep) ↔ keep (key, v) = true := by
  simp only [mem_keys, List.mem_filter]
  constructor
  · intro kept
    obtain ⟨w, mem', kept⟩ := kept
    have same := (get?_of_mem distinct mem').symm.trans (get?_of_mem distinct mem)
    cases same
    exact kept
  · exact fun kept => ⟨v, mem, kept⟩

end ModelStore.Entries
