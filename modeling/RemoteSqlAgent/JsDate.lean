import Mathlib.Tactic.SplitIfs
import RemoteSqlAgent.JsDigits

/-! Dates as text. A day is counted from the start of 1970; the years of a cycle of 400 are
counted from March, so that the day a leap year adds is the last of its year. The text
tells the times apart, whatever follows it. -/
namespace Js

/-- A day of a year that starts in March. -/
structure MarchDay where
  year : Int
  day : Nat

/-- A day of the calendar. -/
@[ext] structure Civil where
  year : Int
  month : Nat
  day : Nat

def marchDay (days : Int) : MarchDay :=
  let cycleDay := (days % 146097).toNat
  let century := min (cycleDay / 36524) 3
  let centuryDay := cycleDay - 36524 * century
  let olympiad := centuryDay / 1461
  let olympiadDay := centuryDay % 1461
  let year := min (olympiadDay / 365) 3
  { year := 400 * (days / 146097) + (100 * century + 4 * olympiad + year : Nat)
    day := olympiadDay - 365 * year }

/-- The date of a day that is counted from the start of 1970. -/
def civil (days : Int) : Civil :=
  let date := marchDay (days + 719468)
  let month := (5 * date.day + 2) / 153
  { year := if month < 10 then date.year else date.year + 1
    month := if month < 10 then month + 3 else month - 9
    day := date.day - (153 * month + 2) / 5 + 1 }

/-- A number with leading zeros. -/
def zeroPadded (width n : Nat) : JsString := padStart width (digitUnit 0) (digits n)

/-- A year outside four digits has a sign and six. -/
def isoYear (year : Int) : JsString :=
  if year < 0 then js "-" ++ zeroPadded 6 year.natAbs
  else if year ≤ 9999 then zeroPadded 4 year.natAbs
  else js "+" ++ zeroPadded 6 year.natAbs

/-- `new Date(time).toISOString()`, for a time that a date can have. -/
def toISOString (time : Int) : JsString :=
  let date := civil (time / 86400000)
  let ms := (time % 86400000).toNat
  isoYear date.year ++ js "-" ++ zeroPadded 2 date.month ++ js "-" ++ zeroPadded 2 date.day ++ js "T" ++
    zeroPadded 2 (ms / 3600000) ++ js ":" ++ zeroPadded 2 (ms / 60000 % 60) ++ js ":" ++
    zeroPadded 2 (ms / 1000 % 60) ++ js "." ++ zeroPadded 3 (ms % 1000) ++ js "Z"

/-! ## A date tells the day -/

/-- The day of a date, counted as `marchDay` counts. -/
def MarchDay.days (date : MarchDay) : Int :=
  let year := date.year % 400
  146097 * (date.year / 400) + 36524 * (year / 100) + 1461 * (year % 100 / 4) + 365 * (year % 4) + date.day

theorem days_mk (cycle : Int) {century olympiad year : Nat} (centuries : century ≤ 3) (olympiads : olympiad ≤ 24)
    (years : year ≤ 3) (day : Nat) :
    MarchDay.days ⟨400 * cycle + (100 * century + 4 * olympiad + year : Nat), day⟩ =
      146097 * cycle + 36524 * century + 1461 * olympiad + 365 * year + day := by
  have cycles : (400 * cycle + (100 * century + 4 * olympiad + year : Nat)) / 400 = cycle := by omega
  have within : (400 * cycle + (100 * century + 4 * olympiad + year : Nat)) % 400 =
      (100 * century + 4 * olympiad + year : Nat) := by omega
  simp only [MarchDay.days, cycles, within]
  omega

theorem days_marchDay (days : Int) : (marchDay days).days = days := by
  simp only [marchDay]
  rw [days_mk] <;> omega

theorem marchDay_lt (days : Int) : (marchDay days).day < 366 := by
  simp only [marchDay]
  omega

theorem civil_injective : Function.Injective civil := by
  intro a b same
  have shortA := marchDay_lt (a + 719468)
  have shortB := marchDay_lt (b + 719468)
  have counted : (marchDay (a + 719468)).days = (marchDay (b + 719468)).days := by
    simp only [civil, Civil.mk.injEq] at same
    obtain ⟨years, months, days⟩ := same
    generalize marchDay (a + 719468) = dateA at *
    generalize marchDay (b + 719468) = dateB at *
    have month : (5 * dateA.day + 2) / 153 = (5 * dateB.day + 2) / 153 := by
      split_ifs at months <;> omega
    rw [month] at years days
    have day : dateA.day = dateB.day := by omega
    have year : dateA.year = dateB.year := by
      split_ifs at years <;> omega
    rw [MarchDay.days, MarchDay.days, day, year]
  rw [days_marchDay, days_marchDay] at counted
  omega

/-! ## The text tells the time -/

theorem digitsValue_zeroPadded (width n : Nat) : digitsValue (zeroPadded width n) = n := by
  have zeros : ∀ count : Nat,
      (List.replicate count (digitUnit 0)).foldl (fun value unit => 10 * value + (unit.val - 0x30)) 0 = 0 := by
    intro count
    induction count with
    | zero => rfl
    | succ count ih => exact ih
  rw [zeroPadded, padStart, digitsValue, List.foldl_append, zeros]
  exact digitsValue_digits n

theorem isDigit_zeroPadded {width n : Nat} {unit : CodeUnit} (member : unit ∈ zeroPadded width n) :
    isDigit unit = true := by
  rcases List.mem_append.mp member with filler | digit
  · rw [List.eq_of_mem_replicate filler]
    rfl
  · exact digits_are_digits digit

/-- A numeral ends where the digits do. -/
theorem split_numeral {width m n : Nat} {first second : CodeUnit} {rest later : JsString}
    (stop : isDigit first = false) (also : isDigit second = false)
    (same : zeroPadded width m ++ first :: rest = zeroPadded width n ++ second :: later) : m = n ∧ rest = later := by
  have cut : ∀ {n : Nat} {unit : CodeUnit} {rest : JsString}, isDigit unit = false →
      (zeroPadded width n ++ unit :: rest).takeWhile isDigit = zeroPadded width n := by
    intro n unit rest stop
    rw [List.takeWhile_append_of_pos fun unit member => isDigit_zeroPadded member,
      List.takeWhile_cons_of_neg (by simp [stop]), List.append_nil]
  have numerals := congrArg (List.takeWhile isDigit) same
  rw [cut stop, cut also] at numerals
  have numbers := congrArg digitsValue numerals
  rw [digitsValue_zeroPadded, digitsValue_zeroPadded] at numbers
  rw [numerals] at same
  exact ⟨numbers, (List.cons.inj (List.append_cancel_left same)).2⟩

theorem head_zeroPadded {width n : Nat} {rest : JsString} {unit : CodeUnit} {later : JsString}
    (same : zeroPadded width n ++ rest = unit :: later) : isDigit unit = true := by
  cases numeral : zeroPadded width n with
  | nil =>
    have none_ := (List.append_eq_nil_iff.mp numeral).2
    exact absurd none_ (digits_ne_nil n)
  | cons first digits =>
    rw [numeral, List.cons_append] at same
    rw [← (List.cons.inj same).1]
    exact isDigit_zeroPadded (numeral ▸ List.mem_cons_self)

/-- A year with what follows it starts with its sign, or with a digit if it has none. -/
theorem split_year {a b : Int} {rest later : JsString}
    (same : isoYear a ++ (js "-" ++ rest) = isoYear b ++ (js "-" ++ later)) : a = b ∧ rest = later := by
  have dash : js "-" = [Fin.ofNat _ 0x2D] := rfl
  have plus : js "+" = [Fin.ofNat _ 0x2B] := rfl
  have notDash : isDigit (Fin.ofNat _ 0x2D) = false := rfl
  have notPlus : isDigit (Fin.ofNat _ 0x2B) = false := rfl
  have signed : ∀ {sign : CodeUnit} {n : Nat} {rest later : JsString}, isDigit sign = false →
      [sign] ++ rest = zeroPadded 4 n ++ later → False := by
    intro sign n rest later stop same
    rw [List.singleton_append] at same
    exact absurd (head_zeroPadded same.symm) (by simp [stop])
  unfold isoYear at same
  rw [dash, plus] at same
  split_ifs at same with beforeA beforeB shortB shortA beforeB shortB beforeB shortB
  · rw [List.append_assoc, List.append_assoc] at same
    obtain ⟨years, rests⟩ := split_numeral notDash notDash (List.append_cancel_left same)
    exact ⟨by omega, rests⟩
  · rw [List.append_assoc] at same
    exact (signed notDash same).elim
  · rw [List.append_assoc, List.append_assoc] at same
    exact absurd (List.cons.inj same).1 (by decide)
  · rw [List.append_assoc _ _ ([_] ++ later)] at same
    exact (signed notDash same.symm).elim
  · obtain ⟨years, rests⟩ := split_numeral notDash notDash same
    exact ⟨by omega, rests⟩
  · rw [List.append_assoc _ _ ([_] ++ later)] at same
    exact (signed notPlus same.symm).elim
  · rw [List.append_assoc, List.append_assoc] at same
    exact absurd (List.cons.inj same).1 (by decide)
  · rw [List.append_assoc] at same
    exact (signed notPlus same).elim
  · rw [List.append_assoc, List.append_assoc] at same
    obtain ⟨years, rests⟩ := split_numeral notDash notDash (List.append_cancel_left same)
    exact ⟨by omega, rests⟩

/-- **The text tells the time, and where it ends.** -/
theorem split_toISOString {a b : Int} {rest later : JsString}
    (same : toISOString a ++ rest = toISOString b ++ later) : a = b ∧ rest = later := by
  simp only [toISOString, List.append_assoc] at same
  obtain ⟨years, same⟩ := split_year same
  obtain ⟨months, same⟩ := split_numeral rfl rfl same
  obtain ⟨days, same⟩ := split_numeral rfl rfl same
  obtain ⟨hours, same⟩ := split_numeral rfl rfl same
  obtain ⟨minutes, same⟩ := split_numeral rfl rfl same
  obtain ⟨seconds, same⟩ := split_numeral rfl rfl same
  obtain ⟨milliseconds, same⟩ := split_numeral rfl rfl same
  have date := civil_injective (Civil.ext years months days)
  exact ⟨by omega, same⟩

example : toISOString 951782400123 = js "2000-02-29T00:00:00.123Z" := by decide

end Js
