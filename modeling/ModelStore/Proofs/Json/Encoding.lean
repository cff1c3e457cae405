import ModelStore.Json.Encodable
import ModelStore.Proofs.Entries
import ModelStore.Proofs.Noted
import ModelStore.Value.Serial

/-! The JSON form of entries, look-up by look-up. Encoding goes value by value, so writing and
leaving out entries may be done before or after it. A value in the form for storing is its
own JSON form, if it has one, and what JSON was read is in the form for storing. -/

namespace ModelStore.Json

variable {fields coded : Fields} {key : String} {v w : Value}

theorem encodeFields_cons {name : String} {rest : Fields} :
    encodeFields ((name, v) :: rest) = .ok coded ↔
      ∃ w ws, encode v = .ok w ∧ encodeFields rest = .ok ws ∧ coded = (name, w) :: ws := by
  rw [encodeFields]
  constructor
  · intro h
    obtain ⟨w, first, h⟩ := Except.bind_eq_ok.1 h
    obtain ⟨ws, others, h⟩ := Except.bind_eq_ok.1 h
    cases h
    exact ⟨w, ws, first, others, rfl⟩
  · rintro ⟨w, ws, first, others, rfl⟩
    exact Except.bind_eq_ok.2 ⟨w, first, Except.bind_eq_ok.2 ⟨ws, others, rfl⟩⟩

theorem keys_encodeFields (h : encodeFields fields = .ok coded) :
    Entries.keys coded = Entries.keys fields := by
  induction fields generalizing coded with
  | nil =>
    cases h
    rfl
  | cons e rest ih =>
    obtain ⟨w, ws, -, others, rfl⟩ := encodeFields_cons.1 h
    rw [Entries.keys_cons, Entries.keys_cons, ih others]

theorem get?_encodeFields_none (h : encodeFields fields = .ok coded)
    (absent : Entries.get? fields key = none) : Entries.get? coded key = none := by
  rw [Entries.get?_eq_none] at absent ⊢
  rwa [keys_encodeFields h]

theorem get?_encodeFields_some (h : encodeFields fields = .ok coded)
    (present : Entries.get? fields key = some v) :
    ∃ w, encode v = .ok w ∧ Entries.get? coded key = some w := by
  induction fields generalizing coded with
  | nil => cases present
  | cons e rest ih =>
    obtain ⟨name, u⟩ := e
    obtain ⟨w, ws, first, others, rfl⟩ := encodeFields_cons.1 h
    rw [Entries.get?_cons] at present ⊢
    split at present
    · rename_i same
      cases present
      exact ⟨w, first, if_pos same⟩
    · rename_i other
      rw [if_neg other]
      exact ih others present

theorem of_get?_encodeFields (h : encodeFields fields = .ok coded)
    (present : Entries.get? coded key = some w) :
    ∃ v, Entries.get? fields key = some v ∧ encode v = .ok w := by
  cases given : Entries.get? fields key with
  | none =>
    rw [get?_encodeFields_none h given] at present
    cases present
  | some v =>
    obtain ⟨w', form, there⟩ := get?_encodeFields_some h given
    rw [present] at there
    cases there
    exact ⟨v, rfl, form⟩

/-- How a value that may be absent is sent: in its JSON form. -/
def Sends (v w : Option Value) : Prop := Option.Rel (fun v w => encode v = .ok w) v w

theorem sends_of_encodeFields (h : encodeFields fields = .ok coded) (key : String) :
    Sends (Entries.get? fields key) (Entries.get? coded key) := by
  cases given : Entries.get? fields key with
  | none =>
    rw [get?_encodeFields_none h given]
    exact .none
  | some v =>
    obtain ⟨w, form, there⟩ := get?_encodeFields_some h given
    rw [there]
    exact .some form

theorem Sends.eq_none {w : Option Value} (h : Sends none w) : w = none := by
  cases h
  rfl

theorem Sends.eq_int {n : Int} {w : Option Value} (h : Sends (some (.int n)) w) :
    w = some (.int n) := by
  cases h with
  | some form =>
    cases form
    rfl

theorem encodeFields_set (h : encodeFields fields = .ok coded) (form : encode v = .ok w) :
    encodeFields (Entries.set fields key v) = .ok (Entries.set coded key w) := by
  induction fields generalizing coded with
  | nil =>
    cases h
    exact encodeFields_cons.2 ⟨w, [], form, rfl, rfl⟩
  | cons e rest ih =>
    obtain ⟨name, u⟩ := e
    obtain ⟨x, xs, first, others, rfl⟩ := encodeFields_cons.1 h
    rw [Entries.set, Entries.set]
    split
    · exact encodeFields_cons.2 ⟨w, xs, form, others, rfl⟩
    · exact encodeFields_cons.2 ⟨x, _, first, ih others, rfl⟩

theorem encodeFields_erase (h : encodeFields fields = .ok coded) :
    encodeFields (Entries.erase fields key) = .ok (Entries.erase coded key) := by
  induction fields generalizing coded with
  | nil =>
    cases h
    rfl
  | cons e rest ih =>
    obtain ⟨name, u⟩ := e
    obtain ⟨x, xs, first, others, rfl⟩ := encodeFields_cons.1 h
    have tail := ih others
    by_cases same : name = key
    · simpa [Entries.erase, same] using tail
    · simp only [Entries.erase, List.filter_cons, same, ne_eq, not_false_eq_true, decide_true,
        if_true] at tail ⊢
      exact encodeFields_cons.2 ⟨x, _, first, tail, rfl⟩

theorem encodeFields_append {more : Fields} (h : encodeFields (fields ++ more) = .ok coded) :
    ∃ first second, encodeFields fields = .ok first ∧ encodeFields more = .ok second ∧
      coded = first ++ second := by
  induction fields generalizing coded with
  | nil => exact ⟨[], coded, rfl, h, rfl⟩
  | cons e rest ih =>
    obtain ⟨name, u⟩ := e
    obtain ⟨w, ws, head, others, rfl⟩ := encodeFields_cons.1 h
    obtain ⟨first, second, left, right, rfl⟩ := ih others
    exact ⟨(name, w) :: first, second, encodeFields_cons.2 ⟨w, first, head, left, rfl⟩, right, rfl⟩

theorem encodeFields_append_of {more first second : Fields}
    (left : encodeFields fields = .ok first) (right : encodeFields more = .ok second) :
    encodeFields (fields ++ more) = .ok (first ++ second) := by
  induction fields generalizing first with
  | nil =>
    cases left
    exact right
  | cons e rest ih =>
    obtain ⟨w, ws, head, others, rfl⟩ := encodeFields_cons.1 left
    exact encodeFields_cons.2 ⟨w, ws ++ second, head, ih others, rfl⟩

theorem eq_str_of_encode {s : String} (h : encode v = .ok (.str s)) : v = .str s := by
  cases v with
  | scalar a =>
    rw [encode] at h
    split at h <;> cases h
    rfl
  | array items =>
    obtain ⟨ws, -, same⟩ := Except.map_eq_ok.1 h
    cases same
  | tuple items =>
    obtain ⟨ws, -, same⟩ := Except.map_eq_ok.1 h
    cases same
  | object fields =>
    obtain ⟨ws, -, same⟩ := Except.map_eq_ok.1 h
    cases same
  | _ => cases h

theorem encodeItems_cons {rest ws : List Value} :
    encodeItems (v :: rest) = .ok ws ↔
      ∃ w others, encode v = .ok w ∧ encodeItems rest = .ok others ∧ ws = w :: others := by
  rw [encodeItems]
  constructor
  · intro h
    obtain ⟨w, first, h⟩ := Except.bind_eq_ok.1 h
    obtain ⟨others, tail, h⟩ := Except.bind_eq_ok.1 h
    cases h
    exact ⟨w, others, first, tail, rfl⟩
  · rintro ⟨w, others, first, tail, rfl⟩
    exact Except.bind_eq_ok.2 ⟨w, first, Except.bind_eq_ok.2 ⟨others, tail, rfl⟩⟩

theorem mem_encodeItems {items ws : List Value} (h : encodeItems items = .ok ws)
    (mem : w ∈ ws) : ∃ v ∈ items, encode v = .ok w := by
  induction items generalizing ws with
  | nil =>
    cases h
    cases mem
  | cons v rest ih =>
    obtain ⟨w', others, first, tail, rfl⟩ := encodeItems_cons.1 h
    rcases List.mem_cons.1 mem with rfl | mem
    · exact ⟨v, List.mem_cons_self, first⟩
    · obtain ⟨v', mem', form⟩ := ih tail mem
      exact ⟨v', List.mem_cons_of_mem _ mem', form⟩

mutual

theorem encode_stored (v : Value) {w : Value} (h : encode v.stored = .ok w) : w = v.stored := by
  cases v with
  | scalar s =>
    rw [Value.stored, encode] at h
    split at h
    · cases h
      rw [Value.stored]
    · cases h
  | array items =>
    rw [Value.stored, encode] at h
    obtain ⟨ws, form, rfl⟩ := Except.map_eq_ok.1 h
    rw [Value.stored, encodeItems_stored items form]
  | tuple items =>
    rw [Value.stored, encode] at h
    obtain ⟨ws, form, rfl⟩ := Except.map_eq_ok.1 h
    rw [Value.stored, encodeItems_stored items form]
  | object fields =>
    rw [Value.stored, encode] at h
    obtain ⟨ws, form, rfl⟩ := Except.map_eq_ok.1 h
    rw [Value.stored, encodeFields_stored fields form]
  | record fields => simp [Value.stored, encode] at h
  | property p => simp [Value.stored, encode] at h
  | index i => simp [Value.stored, encode] at h

theorem encodeItems_stored (items : List Value) {ws : List Value}
    (h : encodeItems (Value.storedItems items) = .ok ws) : ws = Value.storedItems items := by
  cases items with
  | nil =>
    cases h
    rfl
  | cons v rest =>
    rw [Value.storedItems] at h ⊢
    obtain ⟨w, others, first, tail, rfl⟩ := encodeItems_cons.1 h
    rw [encode_stored v first, encodeItems_stored rest tail]

theorem encodeFields_stored (fields : List (String × Value)) {ws : List (String × Value)}
    (h : encodeFields (Value.storedFields fields) = .ok ws) : ws = Value.storedFields fields := by
  cases fields with
  | nil =>
    cases h
    rfl
  | cons e rest =>
    obtain ⟨name, v⟩ := e
    rw [Value.storedFields] at h ⊢
    obtain ⟨w, others, first, tail, rfl⟩ := encodeFields_cons.1 h
    rw [encode_stored v first, encodeFields_stored rest tail]

end

mutual

theorem stored_of_encode (v : Value) (h : encode v = .ok v) : v.stored = v := by
  cases v with
  | scalar s =>
    rw [encode] at h
    cases s <;> first | rfl | cases h
  | array items =>
    rw [encode] at h
    obtain ⟨ws, form, same⟩ := Except.map_eq_ok.1 h
    cases same
    rw [Value.stored, storedItems_of_encode items form]
  | tuple items =>
    rw [encode] at h
    obtain ⟨ws, form, other⟩ := Except.map_eq_ok.1 h
    cases other
  | object fields =>
    rw [encode] at h
    obtain ⟨ws, form, same⟩ := Except.map_eq_ok.1 h
    cases same
    rw [Value.stored, storedFields_of_encode fields form]
  | record fields => rfl
  | property p => rfl
  | index i => rfl

theorem storedItems_of_encode (items : List Value) (h : encodeItems items = .ok items) :
    Value.storedItems items = items := by
  cases items with
  | nil => rfl
  | cons v rest =>
    obtain ⟨w, others, first, tail, same⟩ := encodeItems_cons.1 h
    cases same
    rw [Value.storedItems, stored_of_encode v first, storedItems_of_encode rest tail]

theorem storedFields_of_encode (fields : List (String × Value))
    (h : encodeFields fields = .ok fields) : Value.storedFields fields = fields := by
  cases fields with
  | nil => rfl
  | cons e rest =>
    obtain ⟨name, v⟩ := e
    obtain ⟨w, others, first, tail, same⟩ := encodeFields_cons.1 h
    cases same
    rw [Value.storedFields, stored_of_encode v first, storedFields_of_encode rest tail]

end

/-- A table as a reader of JSON makes it: no key twice, and values that JSON can hold. -/
structure Table (fields : Fields) : Prop where
  distinct : (Entries.keys fields).Nodup
  coded : encodeFields fields = .ok fields

theorem Table.encode_get? (h : Table fields) (present : Entries.get? fields key = some v) :
    encode v = .ok v := by
  obtain ⟨w, form, here⟩ := get?_encodeFields_some h.coded present
  rw [present] at here
  cases here
  exact form

end ModelStore.Json
