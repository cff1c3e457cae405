import ModelStore.Proofs.Mapper.RoundTrip

/-! Stored documents read and written back. The dates come back from their texts as often as
their fields are declared, and so does the id, if it is one of them; a numeric id is read by
its value. What is written back has the id's own text again, so a document returns to its
place if the text that it is stored under is the one that its id is written as. -/

namespace ModelStore

namespace Mapper

variable {m : Mapper} {doc back data : Fields} {s : String}

def dated (v : Value) : Value := if v.truthy then asDate v else v

theorem dated_of_read {v : Value} {d : Scalar} (filled : v.truthy = true)
    (read : dateOf? v = some d) : dated v = .scalar d := by
  rw [dated, if_pos filled, asDate, read]
  rfl

theorem signals_dated {v : Value} (silent : v.signals = false) : (dated v).signals = false := by
  unfold dated
  split
  · cases read : dateOf? v with
    | none => simpa [asDate, read] using silent
    | some d =>
      rcases dateOf?_isDate read with ⟨d, rfl⟩ | ⟨t, rfl⟩ <;> simp [asDate, read, Value.signals]
  · exact silent

theorem isNull_dated (v : Value) : (dated v).isNull = v.isNull := by
  unfold dated
  split
  · rename_i filled
    have full : v.isNull = false := by
      cases null : v.isNull with
      | false => rfl
      | true =>
        rw [Value.eq_null_of_isNull null] at filled
        cases filled
    cases read : dateOf? v with
    | none => simp [asDate, read]
    | some d =>
      rw [full]
      rcases dateOf?_isDate read with ⟨d, rfl⟩ | ⟨t, rfl⟩ <;> simp [asDate, read, Value.isNull]
  · rfl

theorem of_parseDate {name : String} {next : Fields} (read : m.parseDate doc name = .ok next)
    (distinct : (Entries.keys doc).Nodup) :
    (Entries.keys next).Nodup ∧
      (∀ key, Entries.get? next key =
        if key = name then (Entries.get? doc key).map dated else Entries.get? doc key) ∧
      ∀ v, Entries.get? doc name = some v → v.truthy = true → ∃ d, dateOf? v = some d := by
  unfold parseDate at read
  cases here : Entries.get? doc name with
  | none =>
    rw [here] at read
    cases read
    refine ⟨distinct, fun key => ?_, nofun⟩
    split
    · rename_i same
      rw [same, here]
      rfl
    · rfl
  | some v =>
    rw [here] at read
    by_cases filled : v.truthy = true
    · cases found : dateOf? v with
      | none =>
        simp only [filled, found, if_true] at read
        cases read
      | some d =>
        simp only [filled, found, if_true] at read
        cases read
        refine ⟨Entries.nodup_set distinct _ _, fun key => ?_, ?_⟩
        · rw [Entries.get?_set]
          by_cases same : key = name
          · subst same
            simp [here, dated_of_read filled found]
          · simp [same, Ne.symm same]
        · rintro _ ⟨⟩ _
          exact ⟨d, found⟩
    · simp only [filled, if_false, Bool.false_eq_true] at read
      cases read
      refine ⟨distinct, fun key => ?_, fun _ same yes => ?_⟩
      · split
        · rename_i same
          rw [same, here, Option.map_some, dated, if_neg filled]
        · rfl
      · cases same
        exact absurd yes filled

theorem of_foldlM_parseDate {names : List String}
    (read : names.foldlM m.parseDate doc = .ok back) (distinct : (Entries.keys doc).Nodup) :
    (Entries.keys back).Nodup ∧
      (∀ key, Entries.get? back key = (Entries.get? doc key).map dated^[names.count key]) ∧
      ∀ name ∈ names, ∀ v, Entries.get? doc name = some v → v.truthy = true →
        ∃ d, dateOf? v = some d := by
  induction names generalizing doc with
  | nil =>
    cases read
    exact ⟨distinct, fun key => by simp, by simp⟩
  | cons name rest ih =>
    rw [List.foldlM_cons] at read
    obtain ⟨next, first, read⟩ := Except.bind_eq_ok.1 read
    obtain ⟨distinct, found, passed⟩ := of_parseDate first distinct
    obtain ⟨distinct, after, others⟩ := ih read distinct
    refine ⟨distinct, fun key => ?_, fun other mem v here filled => ?_⟩
    · rw [after, found, List.count_cons]
      by_cases same : key = name
      · subst same
        simp only [if_true, beq_self_eq_true, Option.map_map, Function.iterate_succ]
      · simp [same, Ne.symm same]
    · by_cases same : other = name
      · subst same
        exact passed v here filled
      · have later := (List.mem_cons.1 mem).resolve_left same
        exact others other later v (by rw [found, if_neg same]; exact here) filled

def handed (m : Mapper) (s : String) : Value :=
  dated^[m.dateFields.count m.idName] (m.parseId (.str s))

/-- The texts of ids that are written as what they are read as. An id that is no date is read by
its value if it is numeric. One that is a date has the text of that date, if it is gone
through once, or else of a moment. -/
def Returns (m : Mapper) (s : String) : Prop :=
  if m.mark? = some "_id" then s = m.model
  else
    match m.dateFields.count m.idName, m.parseId (.str s) with
    | 0, .int n => s = Number.integerText n
    | 0, _ => True
    | times + 1, id =>
      if id.truthy then
        (∃ d, dateOf? id = some (.date d) ∧ times = 0 ∧ s = d.text) ∨
          ∃ t, dateOf? id = some (.moment t) ∧ s = t.spaced
      else s = id.text

/-- What becomes of a revision that is read and written back. -/
def KeepsRevision (m : Mapper) (rev : Option Value) : Prop :=
  if m.mark? = some "_rev" then rev = some (.str m.model)
  else if m.idName = "_rev" then rev = none
  else ∀ v, rev = some v → v.isNull = false ∧
    ("_rev" ∈ m.dateFields → (dated^[m.dateFields.count "_rev"] v).stored = v)

theorem parseId_str (s : String) :
    m.parseId (.str s) = .str s ∨ ∃ n, m.parseId (.str s) = .int n := by
  show (if m.idIsNumeric then _ else _) = _ ∨ ∃ n, (if m.idIsNumeric then _ else _) = _
  split
  · cases Number.integer? s with
    | none => exact .inl rfl
    | some n => exact .inr ⟨n, rfl⟩
  · exact .inl rfl

theorem dated_iterate {v : Value} {d : Scalar} (filled : v.truthy = true)
    (read : dateOf? v = some d) (times : Nat) :
    dated^[times + 1] v = returned (times + 1) (.scalar d) := by
  have settled (t : Moment) (more : Nat) :
      dated^[more] (.scalar (.moment t)) = .scalar (.moment t) :=
    Function.iterate_fixed (dated_of_read rfl rfl) more
  rw [Function.iterate_succ_apply, dated_of_read filled read]
  rcases dateOf?_isDate read with ⟨d, rfl⟩ | ⟨t, rfl⟩
  · cases times with
    | zero => rfl
    | succ more => exact settled (Moment.midnight d) more
  · exact settled t times

theorem length_spaced (t : Moment) : 10 < t.spaced.length := by
  rw [Moment.spaced, String.length_ofList, Moment.charsWith, List.append_assoc,
    List.length_append, Date.length_chars, List.cons_append, List.length_cons]
  omega

theorem length_of_date {d : Date} (read : dateOf? (m.parseId (.str s)) = some (.date d)) :
    s.length = 10 := by
  rcases m.parseId_str s with same | ⟨n, same⟩
  · rw [same, dateOf?] at read
    split at read
    · assumption
    · obtain ⟨t, -, other⟩ := Option.map_eq_some_iff.1 read
      cases other
  · rw [same] at read
    obtain ⟨t, -, other⟩ := Option.map_eq_some_iff.1 read
    cases other

theorem text_returned_date_iff (short : s.length = 10) (d : Date) (times : Nat) :
    (returned (times + 1) (.scalar (.date d))).text = s ↔ times = 0 ∧ s = d.text := by
  cases times with
  | zero =>
    rw [and_iff_right rfl]
    exact eq_comm
  | succ more =>
    have long := length_spaced (Moment.midnight d)
    constructor
    · intro same
      rw [show (Moment.midnight d).spaced = s from same] at long
      omega
    · intro both
      cases both.1

/-- An id that can be read has its own text again exactly if that is a text that returns. -/
theorem text_handed_iff (plain : m.mark? ≠ some "_id")
    (passed : m.idName ∈ m.dateFields → (m.parseId (.str s)).truthy = true →
      ∃ d, dateOf? (m.parseId (.str s)) = some d) :
    (m.handed s).text = s ↔ m.Returns s := by
  rw [handed, Returns, if_neg plain]
  cases listed : m.dateFields.count m.idName with
  | zero =>
    rcases m.parseId_str s with same | ⟨n, same⟩
    · rw [same]
      simp
    · rw [same]
      exact eq_comm
  | succ times =>
    have mem : m.idName ∈ m.dateFields := List.count_pos_iff.1 (by omega)
    show (dated^[times + 1] (m.parseId (.str s))).text = s ↔ if _ then _ else _
    split
    · rename_i filled
      obtain ⟨d, read⟩ := passed mem filled
      rw [dated_iterate filled read]
      rcases dateOf?_isDate read with ⟨d, rfl⟩ | ⟨t, rfl⟩
      · rw [text_returned_date_iff (length_of_date read), read]
        simp
      · rw [read]
        simp only [Option.some.injEq, Scalar.moment.injEq, exists_eq_left', reduceCtorEq,
          false_and, exists_false, false_or]
        exact eq_comm
    · rename_i empty
      have left : dated (m.parseId (.str s)) = m.parseId (.str s) := if_neg empty
      rw [Function.iterate_fixed left]
      exact eq_comm

/-- Everything that is read of a stored document. -/
theorem of_fromDoc (unmarked : m.mark? ≠ some m.idName) (table : Json.Table doc)
    (named : Entries.get? doc "_id" = some (.str s))
    (read : m.fromDoc .null (.object doc) = .ok data) :
    (Entries.keys data).Nodup ∧
      (∀ key, Entries.get? data key =
        if m.mark? = some key then none
        else if key = m.idName then some (m.handed s)
        else (Entries.get? (Entries.erase doc "_id") key).map dated^[m.dateFields.count key]) ∧
      (m.idName ∈ m.dateFields → (m.parseId (.str s)).truthy = true →
        ∃ d, dateOf? (m.parseId (.str s)) = some d) := by
  simp only [fromDoc, named, returnsId, Value.isNull, if_true, bind, Except.bind] at read
  cases parsed : m.dateFields.foldlM m.parseDate
      (m.restoreId true (.str s) (Entries.erase doc "_id")) with
  | error f =>
    rw [parsed] at read
    cases read
  | ok back =>
    rw [parsed] at read
    cases read
    have restored : ∀ key,
        Entries.get? (m.restoreId true (.str s) (Entries.erase doc "_id")) key =
          if key = m.idName then some (m.parseId (.str s))
          else Entries.get? (Entries.erase doc "_id") key := by
      intro key
      show Entries.get? (Entries.set (Entries.erase doc "_id") m.idName _) key = _
      rw [Entries.get?_set]
      exact if_congr eq_comm rfl rfl
    obtain ⟨distinct, found, passed⟩ := of_foldlM_parseDate parsed
      (Entries.nodup_set (Entries.nodup_erase table.distinct "_id") _ _)
    refine ⟨nodup_unstamp distinct, fun key => ?_, fun mem filled => ?_⟩
    · rw [get?_unstamp, found, restored]
      by_cases own : key = m.idName
      · subst own
        simp [unmarked, handed]
      · simp [own]
    · exact passed m.idName mem _ (by rw [restored, if_pos rfl]) filled

theorem signals_iterate {v : Value} (silent : v.signals = false) (times : Nat) :
    (dated^[times] v).signals = false := by
  induction times generalizing v with
  | zero => exact silent
  | succ times ih =>
    rw [Function.iterate_succ_apply]
    exact ih (signals_dated silent)

theorem isNull_iterate (v : Value) (times : Nat) : (dated^[times] v).isNull = v.isNull := by
  induction times generalizing v with
  | zero => rfl
  | succ times ih => rw [Function.iterate_succ_apply, ih, isNull_dated]

theorem handed_given (s : String) : (m.handed s).isNull = false ∧ (m.handed s).signals = false := by
  have silent : (m.parseId (.str s)).isNull = false ∧ (m.parseId (.str s)).signals = false := by
    rcases m.parseId_str s with same | ⟨n, same⟩ <;> rw [same] <;> exact ⟨rfl, rfl⟩
  exact ⟨(isNull_iterate _ _).trans silent.1, signals_iterate silent.2 _⟩

theorem exists_toDoc (unmarked : m.mark? ≠ some m.idName) (table : Json.Table doc)
    (named : Entries.get? doc "_id" = some (.str s))
    (read : m.fromDoc .null (.object doc) = .ok data) :
    ∃ out, m.toDoc (.object data) = .ok out := by
  obtain ⟨distinct, found, -⟩ := of_fromDoc unmarked table named read
  have here : Entries.get? data m.idName = some (m.handed s) := by
    rw [found, if_neg unmarked, if_pos rfl]
  refine exists_toDoc_of_silent here (m.handed_given s).1 distinct fun key v laid => ?_
  rw [found] at laid
  split at laid
  · cases laid
  split at laid
  · cases laid
    exact (m.handed_given s).2
  · obtain ⟨w, stored, rfl⟩ := Option.map_eq_some_iff.1 laid
    have own : "_id" ≠ key := by
      rintro rfl
      rw [Entries.get?_erase_self] at stored
      cases stored
    rw [Entries.get?_erase_ne _ own] at stored
    exact signals_iterate (Value.signals_of_encode w (table.encode_get? stored)) _

/-- A document that is read, and what it is written back as. -/
def Rewrites (m : Mapper) (doc out : Fields) : Prop :=
  ∃ data, m.fromDoc .null (.object doc) = .ok data ∧ m.toDoc (.object data) = .ok out

theorem Rewrites.get? {out : Fields} (unmarked : m.mark? ≠ some m.idName)
    (table : Json.Table doc) (named : Entries.get? doc "_id" = some (.str s))
    (rewrites : m.Rewrites doc out) (key : String) :
    Entries.get? out key =
      if m.mark? = some key then some (.str m.model)
      else if key = "_id" then some (.str (m.handed s).text)
      else if key = m.idName then none
      else ((Entries.get? doc key).filter fun v => !v.isNull).map fun v =>
        (dated^[m.dateFields.count key] v).stored := by
  obtain ⟨data, read, made⟩ := rewrites
  obtain ⟨distinct, found, -⟩ := of_fromDoc unmarked table named read
  have here : Entries.get? data m.idName = some (m.handed s) := by
    rw [found, if_neg unmarked, if_pos rfl]
  rw [get?_toDoc made here (m.handed_given s).1 distinct]
  by_cases mark : m.mark? = some key
  · rw [if_pos mark, if_pos mark]
  by_cases own : key = "_id"
  · rw [if_neg mark, if_neg mark, if_pos own, if_pos own]
  by_cases other : key = m.idName
  · rw [if_neg mark, if_neg mark, if_neg own, if_neg own, if_pos other, if_pos other]
  rw [if_neg mark, if_neg mark, if_neg own, if_neg own, if_neg other, if_neg other, found,
    if_neg mark, if_neg other, Entries.get?_erase_ne _ (Ne.symm own)]
  cases Entries.get? doc key with
  | none => rfl
  | some v =>
    rw [Option.map_some, Option.filter_some, Option.filter_some, isNull_iterate]
    cases v.isNull <;> rfl

theorem Rewrites.id_iff {out : Fields} (unmarked : m.mark? ≠ some m.idName)
    (table : Json.Table doc) (named : Entries.get? doc "_id" = some (.str s))
    (rewrites : m.Rewrites doc out) :
    Entries.get? out "_id" = some (.str s) ↔ m.Returns s := by
  rw [rewrites.get? unmarked table named]
  by_cases mark : m.mark? = some "_id"
  · rw [if_pos mark, Returns, if_pos mark]
    constructor
    · rintro ⟨⟩
      rfl
    · rintro rfl
      rfl
  · obtain ⟨data, read, -⟩ := rewrites
    have passed := (of_fromDoc unmarked table named read).2.2
    rw [if_neg mark, if_pos rfl, ← text_handed_iff mark passed]
    simp only [Option.some.injEq, Value.scalar.injEq, Scalar.str.injEq]

theorem Rewrites.rev_iff {out : Fields} (unmarked : m.mark? ≠ some m.idName)
    (table : Json.Table doc) (named : Entries.get? doc "_id" = some (.str s))
    (rewrites : m.Rewrites doc out) :
    Entries.get? out "_rev" = Entries.get? doc "_rev" ↔
      m.KeepsRevision (Entries.get? doc "_rev") := by
  rw [rewrites.get? unmarked table named, if_neg (show "_rev" ≠ "_id" by decide), KeepsRevision]
  by_cases mark : m.mark? = some "_rev"
  · rw [if_pos mark, if_pos mark]
    exact eq_comm
  by_cases own : m.idName = "_rev"
  · rw [if_neg mark, if_neg mark, if_pos own.symm, if_pos own]
    exact eq_comm
  rw [if_neg mark, if_neg mark, if_neg (Ne.symm own), if_neg own]
  cases here : Entries.get? doc "_rev" with
  | none => simp
  | some v =>
    have coded : v.stored = v := Json.stored_of_encode v (table.encode_get? here)
    rw [Option.filter_some]
    cases null : v.isNull with
    | true => simp [null]
    | false =>
      by_cases listed : "_rev" ∈ m.dateFields
      · simp [null, listed]
      · simp [null, listed, List.count_eq_zero_of_not_mem listed, coded]

/-- A document that is read can be written back. It has its own id again exactly if that is a
text that returns, and its own revision exactly if the mapper keeps it. Of two documents that
are written to one id, at least one has an id that does not return. -/
theorem fromDoc_returns (unmarked : m.mark? ≠ some m.idName) (table : Json.Table doc)
    (named : Entries.get? doc "_id" = some (.str s))
    (accepted : ∃ data, m.fromDoc .null (.object doc) = .ok data) :
    ∃ out, m.Rewrites doc out ∧
      (Entries.get? out "_id" = some (.str s) ↔ m.Returns s) ∧
      (Entries.get? out "_rev" = Entries.get? doc "_rev" ↔
        m.KeepsRevision (Entries.get? doc "_rev")) ∧
      ∀ doc' s' out', Json.Table doc' → Entries.get? doc' "_id" = some (.str s') →
        m.Rewrites doc' out' → Entries.get? out' "_id" = Entries.get? out "_id" →
        s' ≠ s → m.Returns s → ¬ m.Returns s' := by
  obtain ⟨data, read⟩ := accepted
  obtain ⟨out, written⟩ := exists_toDoc unmarked table named read
  have rewrites : m.Rewrites doc out := ⟨data, read, written⟩
  refine ⟨out, rewrites, rewrites.id_iff unmarked table named,
    rewrites.rev_iff unmarked table named, ?_⟩
  intro doc' s' out' table' named' rewrites' same other returns returns'
  have left := (rewrites.id_iff unmarked table named).2 returns
  have right := (rewrites'.id_iff unmarked table' named').2 returns'
  rw [same, left] at right
  cases right
  exact other rfl

/-- A number written with its digits only, and a date of birth beside it. -/
theorem fromDoc_returns_seven :
    let m : Mapper := ⟨"Customer", "id", true, ["born"], some "kind"⟩
    let doc : Fields := [("_id", .str "7"), ("_rev", .str "1-a"), ("born", .str "2020-02-29"),
      ("kind", .str "Customer")]
    ∃ out, m.Rewrites doc out ∧ Entries.get? out "_id" = some (.str "7") ∧
      Entries.get? out "_rev" = some (.str "1-a") := by
  intro m doc
  have accepted : ∃ data, m.fromDoc .null (.object doc) = .ok data := ⟨_, rfl⟩
  have table : Json.Table doc := ⟨by decide, rfl⟩
  obtain ⟨out, rewrites, id, rev, -⟩ :=
    fromDoc_returns (m := m) (s := "7") (by decide) table rfl accepted
  refine ⟨out, rewrites, id.2 ?_, rev.2 ?_⟩
  · show "7" = Number.integerText 7
    decide
  · rintro v ⟨⟩
    exact ⟨rfl, fun listed => absurd listed (by decide)⟩

/-- A number may be written with noughts in front. The document is written back to where
another one is, and both are the same then. -/
theorem fromDoc_moves_seven :
    let m : Mapper := ⟨"Customer", "id", true, [], some "kind"⟩
    let doc : Fields := [("_id", .str "007"), ("_rev", .str "1-a"), ("kind", .str "Customer")]
    let other : Fields := [("_id", .str "7"), ("_rev", .str "1-a"), ("kind", .str "Customer")]
    m.mark? ≠ some m.idName ∧ Json.Table doc ∧ Json.Table other ∧
      ∃ out, m.Rewrites doc out ∧ m.Rewrites other out ∧
        Entries.get? out "_id" = some (.str "7") ∧
        Entries.get? out "_id" ≠ Entries.get? doc "_id" := by
  intro m doc other
  have written : Number.integerText 7 = "7" := by decide
  let data : Fields := [("_rev", .str "1-a"), ("id", .int 7)]
  let out : Fields := [("_rev", .str "1-a"), ("_id", .str (Number.integerText 7)),
    ("kind", .str "Customer")]
  have made : m.toDoc (.object data) = .ok out := rfl
  refine ⟨by decide, ⟨by decide, rfl⟩, ⟨by decide, rfl⟩, out, ⟨data, rfl, made⟩,
    ⟨data, rfl, made⟩, congrArg (fun s => some (Value.str s)) written, ?_⟩
  have kept : Entries.get? out "_id" = some (.str (Number.integerText 7)) := rfl
  rw [kept, written]
  simp [doc, Entries.get?_cons]

end Mapper

end ModelStore
