import Mathlib.Algebra.Ring.Nat
import ModelStore.Calendar.Moment

/-! Dates and moments read back from their texts. A moment of the calendar whose offset from
UTC is in whole minutes is written in a form that reads as the same moment. -/

namespace ModelStore

namespace Date

open Number

theorem length_padded (width n : Nat) : (padded width n).length = width := by
  induction width generalizing n with
  | zero => rfl
  | succ width ih => rw [padded, List.length_append, ih, List.length_singleton]

theorem padded_succ (width n : Nat) :
    padded (width + 1) n = Text.digitChar (n / 10 ^ width % 10) :: padded width n := by
  induction width generalizing n with
  | zero => simp [padded]
  | succ width ih =>
    rw [padded, ih, Nat.div_div_eq_div_mul, ← Nat.pow_succ', List.cons_append, padded]

theorem isAsciiDigit_digitChar : ∀ d < 10, Text.isAsciiDigit (Text.digitChar d) = true := by
  decide

theorem digitChar_toNat : ∀ d < 10, (Text.digitChar d).toNat - 0x30 = d := by
  decide

theorem fixed?_padded (width n : Nat) (rest : List Char) :
    fixed? width (padded width n ++ rest) = some (n % 10 ^ width, rest) := by
  induction width with
  | zero => simp [fixed?, padded, Nat.mod_one]
  | succ width ih =>
    have digit : n / 10 ^ width % 10 < 10 := Nat.mod_lt _ (by decide)
    rw [padded_succ, List.cons_append, fixed?, if_pos (isAsciiDigit_digitChar _ digit), ih,
      digitChar_toNat _ digit, Option.map_some, Nat.mod_pow_succ, Nat.add_comm, Nat.mul_comm]
    rfl

theorem fixed?_padded_of_lt {width n : Nat} (fits : n < 10 ^ width) (rest : List Char) :
    fixed? width (padded width n ++ rest) = some (n, rest) := by
  rw [fixed?_padded, Nat.mod_eq_of_lt fits]

theorem past?_cons (c : Char) (rest : List Char) : past? c (c :: rest) = some rest :=
  if_pos rfl

theorem length_chars (d : Date) : d.chars.length = 10 := by
  simp [chars, length_padded]

theorem valid_iff {d : Date} : d.valid = true ↔
    1 ≤ d.year ∧ d.year ≤ 9999 ∧ 1 ≤ d.day ∧ d.day ≤ daysInMonth d.year d.month := by
  simp [valid, and_assoc]

theorem daysInMonth_le (year month : Nat) : daysInMonth year month ≤ 31 := by
  fun_cases daysInMonth year month <;> omega

theorem month_le {year month : Nat} (days : 1 ≤ daysInMonth year month) : month ≤ 12 := by
  revert days
  fun_cases daysInMonth year month <;> omega

theorem take?_chars {d : Date} (valid : d.valid = true) (rest : List Char) :
    take? (d.chars ++ rest) = some (d, rest) := by
  obtain ⟨-, year, first, last⟩ := valid_iff.1 valid
  have day := daysInMonth_le d.year d.month
  have month : d.month ≤ 12 := month_le (Nat.le_trans first last)
  have laid : d.chars ++ rest =
      padded 4 d.year ++ '-' :: (padded 2 d.month ++ '-' :: (padded 2 d.day ++ rest)) := by
    simp [chars]
  simp only [laid, take?, bind, Option.bind, fixed?_padded_of_lt (show d.year < 10 ^ 4 by omega),
    fixed?_padded_of_lt (show d.month < 10 ^ 2 by omega),
    fixed?_padded_of_lt (show d.day < 10 ^ 2 by omega), past?_cons, valid, if_true]

theorem ofText?_text {d : Date} (valid : d.valid = true) : ofText? d.text = some d := by
  have read := take?_chars valid []
  rw [List.append_nil] at read
  rw [ofText?, text, String.toList_ofList, ofChars?, read]

end Date

namespace Moment

open Number Date

/-- A moment of the calendar, in UTC plus or minus whole minutes below a day, or with no
offset at all. -/
structure Regular (m : Moment) : Prop where
  date : m.date.valid = true
  hour : m.hour < 24
  minute : m.minute < 60
  second : m.second < 60
  micro : m.micro < 1000000
  offset : ∀ offset, m.offset = some offset →
    ∃ minutes : Int, minutes.natAbs < 1440 ∧ offset = minutes * 60000000

theorem takeDigits_padded (width n : Nat) : ∃ ds, ds.length = width ∧
    Text.ofDigits 10 ds = n % 10 ^ width ∧
    ∀ rest, takeDigits (padded width n ++ rest) =
      (ds ++ (takeDigits rest).1, (takeDigits rest).2) := by
  induction width generalizing n with
  | zero => exact ⟨[], rfl, by simp [Text.ofDigits, Nat.mod_one], fun rest => rfl⟩
  | succ width ih =>
    obtain ⟨ds, length, value, taken⟩ := ih (n / 10)
    have digit : n % 10 < 10 := Nat.mod_lt _ (by decide)
    refine ⟨ds ++ [n % 10], by simp [length], ?_, fun rest => ?_⟩
    · rw [Text.ofDigits_append, value, List.foldl_cons, List.foldl_nil, Nat.pow_succ',
        Nat.mod_mul]
      omega
    · rw [padded, List.append_assoc, List.singleton_append, taken, takeDigits,
        if_pos (isAsciiDigit_digitChar _ digit), digitChar_toNat _ digit]
      simp

theorem fraction?_micro {micro : Nat} (fits : micro < 1000000) {rest : List Char}
    (ends : takeDigits rest = ([], rest)) :
    fraction? ('.' :: (padded 6 micro ++ rest)) = some (micro, rest) := by
  obtain ⟨ds, length, value, taken⟩ := takeDigits_padded 6 micro
  have digits : takeDigits (padded 6 micro ++ rest) = (ds, rest) := by simp [taken, ends]
  have whole : microOf ds = micro := by
    have kept : ds.take 6 = ds := List.take_of_length_le (by omega)
    have fits : micro % 10 ^ 6 = micro := Nat.mod_eq_of_lt fits
    simp only [microOf, kept, value, length, fits]
    exact Nat.mul_one micro
  cases ds with
  | nil => cases length
  | cons d ds => simp only [fraction?, digits, whole]

theorem seconds?_chars {second micro : Nat} (seconds : second < 60) (fits : micro < 1000000)
    {rest : List Char} (ends : takeDigits rest = ([], rest))
    (plain : fraction? rest = some (0, rest)) :
    seconds? (':' :: (padded 2 second ++
      ((if micro = 0 then [] else '.' :: padded 6 micro) ++ rest))) =
        some (second, micro, rest) := by
  have read (after : List Char) :
      fixed? 2 (padded 2 second ++ after) = some (second, after) :=
    fixed?_padded_of_lt (by omega) after
  simp only [seconds?, read, bind, Option.bind]
  by_cases whole : micro = 0
  · simp [whole, plain, seconds]
  · simp [whole, fraction?_micro fits ends, seconds]

theorem offsetChars_minutes (minutes : Int) :
    offsetChars (minutes * 60000000) =
      (if minutes < 0 then '-' else '+') ::
        (padded 2 (minutes.natAbs / 60) ++ ':' :: padded 2 (minutes.natAbs % 60)) := by
  have micros : (minutes * 60000000).natAbs = minutes.natAbs * 60000000 := by
    rw [Int.natAbs_mul]
    rfl
  have seconds : minutes.natAbs * 60000000 / 1000000 = minutes.natAbs * 60 := by omega
  have rest : minutes.natAbs * 60000000 % 1000000 = 0 := by omega
  have whole : minutes.natAbs * 60 % 60 = 0 := by omega
  have hours : minutes.natAbs * 60 / 3600 = minutes.natAbs / 60 := by omega
  have behind : minutes.natAbs * 60 / 60 % 60 = minutes.natAbs % 60 := by omega
  have sign : minutes * 60000000 < 0 ↔ minutes < 0 := by omega
  simp only [offsetChars, micros, seconds, rest, whole, hours, behind, sign]
  simp

theorem offset?_offsetChars {minutes : Int} (day : minutes.natAbs < 1440) :
    offset? (offsetChars (minutes * 60000000)) = some (some (minutes * 60000000)) := by
  have hours (rest : List Char) : fixed? 2 (padded 2 (minutes.natAbs / 60) ++ rest) =
      some (minutes.natAbs / 60, rest) := fixed?_padded_of_lt (by omega) rest
  have behind : fixed? 2 (padded 2 (minutes.natAbs % 60)) = some (minutes.natAbs % 60, []) := by
    have fits : minutes.natAbs % 60 < 10 ^ 2 := by omega
    have read := fixed?_padded_of_lt fits []
    rwa [List.append_nil] at read
  have day : minutes.natAbs / 60 < 24 := by omega
  have hour : minutes.natAbs % 60 < 60 := by omega
  rw [offsetChars_minutes]
  by_cases west : minutes < 0
  · have value : -1 * (((minutes.natAbs / 60 * 60 + minutes.natAbs % 60) * 60000000 : Nat) : Int) =
        minutes * 60000000 := by omega
    simp only [west, if_true, offset?, Char.reduceEq, or_self, if_false, offsetSign?, true_or,
      hours, behind, colon?, past?_cons, Option.getD_some, bind, Option.bind, List.isEmpty_nil, day,
      hour, and_self, value]
  · have value : 1 * (((minutes.natAbs / 60 * 60 + minutes.natAbs % 60) * 60000000 : Nat) : Int) =
        minutes * 60000000 := by omega
    simp only [west, if_true, offset?, Char.reduceEq, or_self, if_false, offsetSign?,
      hours, behind, colon?, past?_cons, Option.getD_some, bind, Option.bind, List.isEmpty_nil, day,
      hour, and_self, value]

theorem exists_zone {m : Moment} (regular : m.Regular) : ∃ zone,
    m.text = String.ofList (m.date.chars ++ 'T' :: (m.timeChars ++ zone)) ∧
      takeDigits zone = ([], zone) ∧ fraction? zone = some (0, zone) ∧
        offset? zone = some m.offset := by
  cases given : m.offset with
  | none => exact ⟨[], by simp [text, charsWith, given], rfl, rfl, rfl⟩
  | some offset =>
    obtain ⟨minutes, day, rfl⟩ := regular.offset offset given
    refine ⟨offsetChars (minutes * 60000000), by simp [text, charsWith, given], ?_, ?_,
      offset?_offsetChars day⟩
    · rw [offsetChars_minutes]
      split <;> rfl
    · rw [offsetChars_minutes]
      split <;> rfl

theorem ofTime?_timeChars {m : Moment} (regular : m.Regular) {zone : List Char}
    (ends : takeDigits zone = ([], zone)) (plain : fraction? zone = some (0, zone))
    (read : offset? zone = some m.offset) : ofTime? m.date (m.timeChars ++ zone) = some m := by
  have hour := regular.hour
  have minute := regular.minute
  have laid : m.timeChars ++ zone = padded 2 m.hour ++ ':' :: (padded 2 m.minute ++
      ':' :: (padded 2 m.second ++
        ((if m.micro = 0 then [] else '.' :: padded 6 m.micro) ++ zone))) := by
    simp [timeChars]
  simp only [laid, ofTime?, bind, Option.bind, fixed?_padded_of_lt (show m.hour < 10 ^ 2 by omega),
    fixed?_padded_of_lt (show m.minute < 10 ^ 2 by omega), colon?, past?_cons,
    seconds?_chars regular.second regular.micro ends plain, read, hour, minute, and_self, if_true]

theorem ofText?_text {m : Moment} (regular : m.Regular) : ofText? m.text = some m := by
  obtain ⟨zone, laid, ends, plain, read⟩ := exists_zone regular
  rw [ofText?, laid, String.toList_ofList]
  simp only [Date.take?_chars regular.date, bind, Option.bind, isSeparator]
  exact ofTime?_timeChars regular ends plain read

theorem length_text (m : Moment) : 10 < m.text.length := by
  rw [text, String.length_ofList, charsWith, List.append_assoc, List.length_append,
    Date.length_chars, List.cons_append, List.length_cons]
  omega

end Moment

end ModelStore
