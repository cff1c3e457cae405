import Mathlib.Logic.Function.Iterate
import ModelStore.Proofs.Calendar.Text
import ModelStore.Proofs.Mapper
import ModelStore.Proofs.Number.Numeral

/-! Model data stored and read back. The id comes back from its text, the dates from theirs,
and the discriminator is taken off again. Each name of a date field is gone through in turn, so
the data that come back are the data if no date is gone through twice, and a handle lists every
date field once. -/

namespace ModelStore

namespace Value

mutual

theorem signals_of_encode (v : Value) (h : Json.encode v = .ok v) : v.signals = false := by
  cases v with
  | scalar s =>
    rw [Json.encode] at h
    cases s <;> first | rfl | cases h
  | array items =>
    rw [Json.encode] at h
    obtain ⟨ws, form, same⟩ := Except.map_eq_ok.1 h
    cases same
    rw [signals, anySignals_of_encode items form]
  | tuple items =>
    rw [Json.encode] at h
    obtain ⟨ws, form, other⟩ := Except.map_eq_ok.1 h
    cases other
  | object fields =>
    rw [Json.encode] at h
    obtain ⟨ws, form, same⟩ := Except.map_eq_ok.1 h
    cases same
    rw [signals, fieldsSignal_of_encode fields form]
  | record fields => rfl
  | property p => rfl
  | index i => rfl

theorem anySignals_of_encode (items : List Value) (h : Json.encodeItems items = .ok items) :
    anySignals items = false := by
  cases items with
  | nil => rfl
  | cons v rest =>
    obtain ⟨w, others, first, tail, same⟩ := Json.encodeItems_cons.1 h
    cases same
    rw [anySignals, signals_of_encode v first, anySignals_of_encode rest tail, Bool.or_self]

theorem fieldsSignal_of_encode (fields : List (String × Value))
    (h : Json.encodeFields fields = .ok fields) : fieldsSignal fields = false := by
  cases fields with
  | nil => rfl
  | cons e rest =>
    obtain ⟨name, v⟩ := e
    obtain ⟨w, others, first, tail, same⟩ := Json.encodeFields_cons.1 h
    cases same
    rw [fieldsSignal, signals_of_encode v first, fieldsSignal_of_encode rest tail, Bool.or_self]

end

theorem fieldsSignal_eq_false {fields : Fields} :
    fieldsSignal fields = false ↔ ∀ e ∈ fields, e.2.signals = false :=
  Entries.forall_iff (fieldsSignal · = false) rfl fun e rest => by simp [fieldsSignal]

/-- A date of the calendar, or a moment that is written in full. -/
inductive IsDate : Value → Prop where
  | date {d : Date} (valid : d.valid = true) : IsDate (scalar (.date d))
  | moment {t : Moment} (regular : t.Regular) : IsDate (scalar (.moment t))

end Value

namespace Mapper

/-- The id, the dates and the discriminator of a mapper stand under different names. -/
structure Apart (m : Mapper) : Prop where
  mark : ∀ mark, m.mark? = some mark → mark ≠ m.idName ∧ mark ≠ "_id" ∧ mark ∉ m.dateFields
  id : m.idName ∉ m.dateFields

/-- An id as the mapper hands it out: a whole number that can be read from its digits, or a
text. -/
def IsId (m : Mapper) (id : Value) : Prop :=
  if m.idIsNumeric then ∃ n, id = .int n ∧ (Nat.toDigits 10 n.natAbs).length ≤ 4300
  else ∃ s, id = .str s

/-- Model data as a caller of the mapper has it: with an id, nothing under the names of the
store's own, dates where dates are declared, and values that are their own JSON form
elsewhere. -/
structure Fits (m : Mapper) (data : Fields) : Prop where
  distinct : (Entries.keys data).Nodup
  id : ∃ id, Entries.get? data m.idName = some id ∧ m.IsId id
  reserved : m.idName ≠ "_id" → Entries.get? data "_id" = none
  unmarked : ∀ mark, m.mark? = some mark → Entries.get? data mark = none
  dates : ∀ name ∈ m.dateFields, ∀ v, Entries.get? data name = some v → v.IsDate
  plain : ∀ name ∉ m.dateFields, ∀ v, Entries.get? data name = some v →
    v.isNull = false ∧ Json.encode v = .ok v

variable {m : Mapper} {data doc source : Fields}

theorem nodup_eraseUnless (condition : Bool) (distinct : (Entries.keys doc).Nodup)
    (key : String) : (Entries.keys (eraseUnless condition doc key)).Nodup := by
  unfold eraseUnless
  split
  · exact distinct
  · exact Entries.nodup_erase distinct key

theorem nodup_storeId (id : Option Value) (distinct : (Entries.keys doc).Nodup) :
    (Entries.keys (m.storeId id doc)).Nodup := by
  unfold storeId
  split
  · exact distinct
  · exact nodup_eraseUnless _ (Entries.nodup_erase distinct _) _
  · exact nodup_eraseUnless _ (Entries.nodup_set distinct _ _) _

theorem nodup_layOut (distinct : (Entries.keys source).Nodup) :
    (Entries.keys (m.layOut source)).Nodup := by
  have kept : (Entries.keys (withoutNulls source)).Nodup :=
    (List.Sublist.map _ List.filter_sublist).nodup distinct
  unfold layOut stamp
  split
  · exact Entries.nodup_set (nodup_storeId _ kept) _ _
  · exact nodup_storeId _ kept

theorem exists_toDoc_of_silent {id : Value} (here : Entries.get? source m.idName = some id)
    (given : id.isNull = false) (distinct : (Entries.keys source).Nodup)
    (silent : ∀ key v, Entries.get? source key = some v → v.signals = false) :
    ∃ doc, m.toDoc (.object source) = .ok doc := by
  have laid : Value.fieldsSignal (m.layOut source) = false := by
    refine Value.fieldsSignal_eq_false.2 ?_
    rintro ⟨key, v⟩ mem
    have found := Entries.get?_of_mem (nodup_layOut distinct) mem
    rw [layOut, get?_stamp, here, get?_storeId given, withoutNulls,
      Entries.get?_filter distinct fun v => !v.isNull] at found
    split at found
    · cases found
      rfl
    split at found
    · cases found
      rfl
    split at found
    · cases found
    · exact silent key v (Option.filter_eq_some_iff.1 found).1
  exact ⟨_, if_neg (by simp [laid])⟩

theorem isNull_of_isId {id : Value} (given : m.IsId id) : id.isNull = false := by
  unfold IsId at given
  split at given
  · obtain ⟨n, rfl, -⟩ := given
    rfl
  · obtain ⟨s, rfl⟩ := given
    rfl

theorem parseId_text {id : Value} (given : m.IsId id) : m.parseId (.str id.text) = id := by
  unfold IsId at given
  split at given
  · rename_i numeric
    obtain ⟨n, rfl, short⟩ := given
    have read : Number.integer? (Number.integerText n) = some n :=
      Number.integer?_integerText short
    show (if m.idIsNumeric then _ else _) = _
    rw [if_pos numeric]
    show ((Number.integer? (Number.integerText n)).map Value.int).getD _ = _
    rw [read]
    rfl
  · rename_i textual
    obtain ⟨s, rfl⟩ := given
    exact if_neg textual

theorem Fits.isNull (fits : m.Fits data) {name : String} {v : Value}
    (here : Entries.get? data name = some v) : v.isNull = false := by
  by_cases declared : name ∈ m.dateFields
  · cases fits.dates name declared v here <;> rfl
  · exact (fits.plain name declared v here).1

theorem Fits.signals (fits : m.Fits data) {name : String} {v : Value}
    (here : Entries.get? data name = some v) : v.signals = false := by
  by_cases declared : name ∈ m.dateFields
  · cases fits.dates name declared v here <;> rfl
  · exact Value.signals_of_encode v (fits.plain name declared v here).2

theorem Fits.toDoc_ok (fits : m.Fits data) : ∃ doc, m.toDoc (.object data) = .ok doc := by
  obtain ⟨id, here, given⟩ := fits.id
  exact exists_toDoc_of_silent here (isNull_of_isId given) fits.distinct fun _ _ => fits.signals

def asDate (v : Value) : Value := ((dateOf? v).map Value.scalar).getD v

theorem dateOf?_isDate {v : Value} {s : Scalar} (h : dateOf? v = some s) :
    (∃ d, s = .date d) ∨ ∃ t, s = .moment t := by
  unfold dateOf? at h
  split at h
  · split at h
    · obtain ⟨d, -, rfl⟩ := Option.map_eq_some_iff.1 h
      exact .inl ⟨d, rfl⟩
    · obtain ⟨t, -, rfl⟩ := Option.map_eq_some_iff.1 h
      exact .inr ⟨t, rfl⟩
  · obtain ⟨t, -, rfl⟩ := Option.map_eq_some_iff.1 h
    exact .inr ⟨t, rfl⟩

def Passable (v : Value) : Prop := v.truthy = true ∧ ∃ s, dateOf? v = some s

theorem Passable.asDate {v : Value} (passable : Passable v) : Passable (asDate v) := by
  obtain ⟨-, s, read⟩ := passable
  rcases dateOf?_isDate read with ⟨d, rfl⟩ | ⟨t, rfl⟩
  · rw [Mapper.asDate, read]
    exact ⟨rfl, _, rfl⟩
  · rw [Mapper.asDate, read]
    exact ⟨rfl, _, rfl⟩

theorem exists_parseDate (distinct : (Entries.keys doc).Nodup) {name : String}
    (passable : ∀ v, Entries.get? doc name = some v → Passable v) :
    ∃ next, m.parseDate doc name = .ok next ∧ (Entries.keys next).Nodup ∧
      ∀ key, Entries.get? next key =
        if key = name then (Entries.get? doc key).map asDate else Entries.get? doc key := by
  cases here : Entries.get? doc name with
  | none =>
    refine ⟨doc, by simp [parseDate, here], distinct, fun key => ?_⟩
    split
    · rename_i same
      rw [same, here]
      rfl
    · rfl
  | some v =>
    obtain ⟨filled, s, read⟩ := passable v here
    have next : m.parseDate doc name = .ok (Entries.set doc name (.scalar s)) := by
      simp [parseDate, here, filled, read]
    refine ⟨_, next, Entries.nodup_set distinct _ _, fun key => ?_⟩
    rw [Entries.get?_set]
    by_cases same : key = name
    · subst same
      simp [here, asDate, read]
    · simp [same, Ne.symm same]

theorem exists_foldlM_parseDate {names : List String} (distinct : (Entries.keys doc).Nodup)
    (passable : ∀ name ∈ names, ∀ v, Entries.get? doc name = some v → Passable v) :
    ∃ back, names.foldlM m.parseDate doc = .ok back ∧ (Entries.keys back).Nodup ∧
      ∀ key, Entries.get? back key = (Entries.get? doc key).map asDate^[names.count key] := by
  induction names generalizing doc with
  | nil => exact ⟨doc, rfl, distinct, fun key => by simp⟩
  | cons name rest ih =>
    obtain ⟨next, first, distinct, found⟩ :=
      exists_parseDate (m := m) distinct (passable name List.mem_cons_self)
    have passable : ∀ other ∈ rest, ∀ v, Entries.get? next other = some v → Passable v := by
      intro other mem v here
      rw [found] at here
      split at here
      · obtain ⟨w, before, rfl⟩ := Option.map_eq_some_iff.1 here
        exact (passable other (List.mem_cons_of_mem _ mem) w before).asDate
      · exact passable other (List.mem_cons_of_mem _ mem) v here
    obtain ⟨back, others, distinct, after⟩ := ih distinct passable
    refine ⟨back, ?_, distinct, fun key => ?_⟩
    · rw [List.foldlM_cons, first]
      exact others
    · rw [after, found, List.count_cons]
      by_cases same : key = name
      · subst same
        simp only [if_true, beq_self_eq_true, Option.map_map, Function.iterate_succ]
      · simp [same, Ne.symm same]

theorem dateOf?_stored {v : Value} (date : v.IsDate) :
    v.stored.truthy = true ∧ ∃ s, v = .scalar s ∧ dateOf? v.stored = some s := by
  cases date with
  | @date d valid =>
    have length : d.text.length = 10 := by rw [Date.text, String.length_ofList, d.length_chars]
    have written : d.text ≠ "" := by
      intro empty
      rw [empty] at length
      cases length
    refine ⟨by simpa [Value.stored, Value.storedScalar, Value.truthy] using written, _, rfl, ?_⟩
    simp [Value.stored, Value.storedScalar, dateOf?, length, Moment.readDate?,
      Date.ofText?_text valid]
  | @moment t regular =>
    have length := t.length_text
    have written : t.text ≠ "" := by
      intro empty
      rw [empty] at length
      cases length
    have long : t.text.length ≠ 10 := by omega
    refine ⟨by simpa [Value.stored, Value.storedScalar, Value.truthy] using written, _, rfl, ?_⟩
    simp [Value.stored, Value.storedScalar, dateOf?, long, Moment.read?,
      Moment.ofText?_text regular]

/-- What comes back of a field that the mapper goes through so many times. -/
def returned (times : Nat) (v : Value) : Value :=
  match v with
  | .scalar (.date d) => if times ≤ 1 then v else .scalar (.moment (Moment.midnight d))
  | v => v

theorem asDate_iterate {v : Value} (date : v.IsDate) (times : Nat) :
    asDate^[times + 1] v.stored = returned (times + 1) v := by
  obtain ⟨-, s, same, read⟩ := dateOf?_stored date
  have first : asDate v.stored = v := by
    rw [asDate, read, same]
    rfl
  have settled (t : Moment) (more : Nat) :
      asDate^[more] (.scalar (.moment t)) = .scalar (.moment t) := Function.iterate_fixed rfl more
  rw [Function.iterate_succ_apply, first]
  cases date with
  | @date d valid =>
    cases times with
    | zero => rfl
    | succ more => exact settled (Moment.midnight d) more
  | @moment t regular => exact settled t times

theorem returned_zero (v : Value) : returned 0 v = v := by
  unfold returned
  split
  · exact if_pos (Nat.zero_le 1)
  · rfl

theorem get?_unstamp (fields : Fields) (key : String) :
    Entries.get? (m.unstamp fields) key =
      if m.mark? = some key then none else Entries.get? fields key := by
  unfold unstamp
  cases mark : m.mark? with
  | none => simp
  | some name =>
    by_cases same : name = key
    · subst same
      simp
    · simp [same, Entries.get?_erase_ne _ same]

theorem nodup_unstamp (distinct : (Entries.keys doc).Nodup) :
    (Entries.keys (m.unstamp doc)).Nodup := by
  unfold unstamp
  split
  · exact Entries.nodup_erase distinct _
  · exact distinct

theorem get?_restored (apart : m.Apart) (fits : m.Fits data)
    (made : m.toDoc (.object data) = .ok doc) {id : Value}
    (here : Entries.get? data m.idName = some id) (given : m.IsId id) (key : String) :
    Entries.get? (m.restoreId true (.str id.text) (Entries.erase doc "_id")) key =
      if m.mark? = some key then some (.str m.model)
      else if key = m.idName then some id
      else (Entries.get? data key).map Value.stored := by
  have found := get?_toDoc made here (isNull_of_isId given) fits.distinct
  show Entries.get? (Entries.set (Entries.erase doc "_id") m.idName _) key = _
  rw [Entries.get?_set, parseId_text given]
  by_cases own : m.idName = key
  · have unmarked : m.mark? ≠ some key := fun mark => (apart.mark key mark).1 own.symm
    rw [if_pos own, if_neg unmarked, if_pos own.symm]
  rw [if_neg own, if_neg (Ne.symm own)]
  by_cases reserved : "_id" = key
  · subst reserved
    have unmarked : m.mark? ≠ some "_id" := fun mark => (apart.mark _ mark).2.1 rfl
    rw [Entries.get?_erase_self, if_neg unmarked, fits.reserved own]
    rfl
  · have kept : (Entries.get? data key).filter (fun v => !v.isNull) = Entries.get? data key := by
      cases there : Entries.get? data key with
      | none => rfl
      | some v => simp [Option.filter, fits.isNull there]
    rw [Entries.get?_erase_ne _ reserved, found, kept, if_neg (Ne.symm reserved),
      if_neg (Ne.symm own)]

theorem exists_fromDoc (apart : m.Apart) (fits : m.Fits data) :
    ∃ doc back, m.toDoc (.object data) = .ok doc ∧ m.fromDoc .null (.object doc) = .ok back ∧
      (Entries.keys back).Nodup ∧
      ∀ key, Entries.get? back key =
        (Entries.get? data key).map (returned (m.dateFields.count key)) := by
  obtain ⟨id, here, given⟩ := fits.id
  obtain ⟨doc, made⟩ := fits.toDoc_ok
  have restored := get?_restored apart fits made here given
  have distinct : (Entries.keys doc).Nodup := by
    rw [toDoc_ok made, Value.keys_storedFields]
    exact nodup_layOut fits.distinct
  have distinct : (Entries.keys
      (m.restoreId true (.str id.text) (Entries.erase doc "_id"))).Nodup :=
    Entries.nodup_set (Entries.nodup_erase distinct "_id") _ _
  have passable : ∀ name ∈ m.dateFields, ∀ v,
      Entries.get? (m.restoreId true (.str id.text) (Entries.erase doc "_id")) name = some v →
        Passable v := by
    intro name mem v there
    have unmarked : m.mark? ≠ some name := fun mark => (apart.mark name mark).2.2 mem
    have other : name ≠ m.idName := fun own => apart.id (own ▸ mem)
    rw [restored, if_neg unmarked, if_neg other] at there
    obtain ⟨w, before, rfl⟩ := Option.map_eq_some_iff.1 there
    obtain ⟨filled, s, -, read⟩ := dateOf?_stored (fits.dates name mem w before)
    exact ⟨filled, s, read⟩
  obtain ⟨gone, passed, distinct, after⟩ := exists_foldlM_parseDate (m := m) distinct passable
  refine ⟨doc, m.unstamp gone, made, ?_, nodup_unstamp distinct, fun key => ?_⟩
  · have stored : Entries.get? doc "_id" = some (.str id.text) := by
      have unmarked : m.mark? ≠ some "_id" := fun mark => (apart.mark _ mark).2.1 rfl
      rw [get?_toDoc made here (isNull_of_isId given) fits.distinct, if_neg unmarked, if_pos rfl]
    simp only [fromDoc, stored, returnsId, Value.isNull, if_true, bind, Except.bind, passed]
  · rw [get?_unstamp, after, restored]
    by_cases mark : m.mark? = some key
    · rw [if_pos mark, fits.unmarked key mark]
      rfl
    rw [if_neg mark, if_neg mark]
    by_cases own : key = m.idName
    · rw [if_pos own, own, List.count_eq_zero.2 apart.id, here]
      exact congrArg some (returned_zero id).symm
    rw [if_neg own]
    cases there : Entries.get? data key with
    | none => rfl
    | some v =>
      refine congrArg some ?_
      cases times : m.dateFields.count key with
      | zero =>
        have plain := (fits.plain key (List.count_eq_zero.1 times) v there).2
        rw [returned_zero]
        exact Json.stored_of_encode v plain
      | succ more =>
        have mem : key ∈ m.dateFields := List.count_pos_iff.1 (by omega)
        exact asDate_iterate (fits.dates key mem v there) more

/-- What comes back is what was stored exactly if no date stands in a field that is listed more than
once. -/
theorem fromDoc_toDoc_iff (apart : m.Apart) (fits : m.Fits data) :
    ∃ doc back, m.toDoc (.object data) = .ok doc ∧ m.fromDoc .null (.object doc) = .ok back ∧
      (Entries.keys back).Nodup ∧
      ((∀ key, Entries.get? back key = Entries.get? data key) ↔
        ∀ name d, Entries.get? data name = some (.scalar (.date d)) →
          m.dateFields.count name ≤ 1) := by
  obtain ⟨doc, back, made, read, distinct, each⟩ := exists_fromDoc apart fits
  refine ⟨doc, back, made, read, distinct, fun same name d here => ?_, fun once key => ?_⟩
  · by_contra twice
    have found := each name
    rw [same, here, Option.map_some, returned, if_neg twice] at found
    cases found
  · rw [each]
    cases here : Entries.get? data key with
    | none => rfl
    | some v =>
      refine congrArg some ?_
      unfold returned
      split
      · rename_i d
        exact if_pos (once key d here)
      · rfl

theorem nodup_dateFields (h : Handle) (distinct : (Entries.keys h.definition.properties).Nodup) :
    (ofHandle h).dateFields.Nodup :=
  (List.Sublist.map Prod.fst List.filter_sublist).nodup distinct

/-- Model data that are stored can be read back and are what they were. -/
theorem fromDoc_toDoc (apart : m.Apart) (once : m.dateFields.Nodup) (fits : m.Fits data) :
    ∃ doc back, m.toDoc (.object data) = .ok doc ∧ m.fromDoc .null (.object doc) = .ok back ∧
      (Entries.keys back).Nodup ∧ ∀ key, Entries.get? back key = Entries.get? data key := by
  obtain ⟨doc, back, made, read, distinct, same⟩ := fromDoc_toDoc_iff apart fits
  exact ⟨doc, back, made, read, distinct,
    same.2 fun name _ _ => List.nodup_iff_count.1 once name⟩

/-- A date of a leap year, a moment east of UTC that ends in microseconds, and a date left out. -/
theorem fromDoc_toDoc_customer :
    let m : Mapper := ⟨"Customer", "id", true, ["born", "joined", "left"], some "kind"⟩
    let joined : Moment := ⟨⟨2020, 1, 2⟩, 3, 4, 5, 60, some 19800000000⟩
    let data : Fields := [("id", .int (-7)), ("born", .scalar (.date ⟨2020, 2, 29⟩)),
      ("joined", .scalar (.moment joined)), ("tags", .array [.null, .object [("kind", .str "x")]])]
    m.Apart ∧ m.dateFields.Nodup ∧ m.Fits data ∧
      ∃ doc back, m.toDoc (.object data) = .ok doc ∧ m.fromDoc .null (.object doc) = .ok back ∧
        (Entries.keys back).Nodup ∧ ∀ key, Entries.get? back key = Entries.get? data key := by
  intro m joined data
  have apart : m.Apart := by
    refine ⟨?_, by decide⟩
    rintro mark ⟨⟩
    decide
  have regular : joined.Regular :=
    ⟨by decide, by decide, by decide, by decide, by decide, fun offset east => by
      cases east
      exact ⟨330, by decide⟩⟩
  have fits : m.Fits data := by
    refine ⟨by decide, ⟨.int (-7), rfl, -7, rfl, by decide⟩, fun _ => rfl, ?_, ?_, ?_⟩
    · rintro mark ⟨⟩
      rfl
    · intro name declared v here
      simp only [m, List.mem_cons, List.not_mem_nil, or_false] at declared
      rcases declared with rfl | rfl | rfl
      · cases here
        exact .date (by decide)
      · cases here
        exact .moment regular
      · cases here
    · intro name other v here
      have mem := Entries.mem_of_get? here
      simp only [m, data, List.mem_cons, List.not_mem_nil, or_false, Prod.mk.injEq, not_or]
        at mem other
      rcases mem with ⟨rfl, rfl⟩ | ⟨rfl, rfl⟩ | ⟨rfl, rfl⟩ | ⟨rfl, rfl⟩
      · exact ⟨rfl, rfl⟩
      · exact absurd rfl other.1
      · exact absurd rfl other.2.1
      · exact ⟨rfl, rfl⟩
  have once : m.dateFields.Nodup := by decide
  exact ⟨apart, once, fits, fromDoc_toDoc apart once fits⟩

end Mapper

end ModelStore
