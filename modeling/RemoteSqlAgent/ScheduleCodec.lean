import RemoteSqlAgent.JobDefinition
import RemoteSqlAgent.JsDigits
import Mathlib.Data.List.Sublists

/-! The two forms of a schedule: integers as the agent stores them, and what an editor shows. Where
the integers mean something, nothing is lost either way. -/
namespace RemoteSqlAgent
open Js

namespace FreqType

abbrev Once : Int := 1
abbrev Daily : Int := 4
abbrev Weekly : Int := 8
abbrev Monthly : Int := 16
abbrev MonthlyRelative : Int := 32
abbrev OnAgentStart : Int := 64
abbrev OnIdle : Int := 128

end FreqType

namespace FreqSubdayType

/-- Fires once, at the start time. -/
abbrev AtSpecifiedTime : Int := 1
abbrev Seconds : Int := 2
abbrev Minutes : Int := 4
abbrev Hours : Int := 8

end FreqSubdayType

inductive Occurrence where
  | First | Second | Third | Fourth | Last
  deriving DecidableEq

inductive Weekday where
  | Sunday | Monday | Tuesday | Wednesday | Thursday | Friday | Saturday
  deriving DecidableEq

/-- A weekday, or a kind of day. -/
inductive DayKind where
  | Sunday | Monday | Tuesday | Wednesday | Thursday | Friday | Saturday | Day | Weekday | WeekendDay
  deriving DecidableEq

/-- `Object.entries(RelativeInterval)`. -/
def RELATIVE_INTERVAL_ENTRIES : List (Occurrence × Int) :=
  [(.First, 1), (.Second, 2), (.Third, 4), (.Fourth, 8), (.Last, 16)]

/-- `Object.entries(WeekdayFlag)`: one bit for each day. -/
def WEEKDAY_ENTRIES : List (Weekday × Int) :=
  [(.Sunday, 1), (.Monday, 2), (.Tuesday, 4), (.Wednesday, 8), (.Thursday, 16), (.Friday, 32), (.Saturday, 64)]

/-- `Object.entries(RelativeWeekday)`. These are numbers, and not the bits above. -/
def RELATIVE_WEEKDAY_ENTRIES : List (DayKind × Int) :=
  [(.Sunday, 1), (.Monday, 2), (.Tuesday, 3), (.Wednesday, 4), (.Thursday, 5), (.Friday, 6), (.Saturday, 7), (.Day, 8),
    (.Weekday, 9), (.WeekendDay, 10)]

/-- The value that a table of entries holds for a name. -/
def entryValue {α : Type} [DecidableEq α] (entries : List (α × Int)) (name : α) : Int :=
  ((entries.find? (·.1 = name)).map (·.2)).getD 0

def RelativeInterval : Occurrence → Int := entryValue RELATIVE_INTERVAL_ENTRIES

def WeekdayFlag : Weekday → Int := entryValue WEEKDAY_ENTRIES

def RelativeWeekday : DayKind → Int := entryValue RELATIVE_WEEKDAY_ENTRIES

inductive HumaneRecurrence where
  | once
  | onAgentStart
  | onIdle
  | daily (everyNDays : Int)
  | weekly (everyNWeeks : Int) (weekdays : List Weekday)
  | monthly (dayOfMonth everyNMonths : Int)
  | monthlyRelative (occurrence : Occurrence) (weekday : DayKind) (everyNMonths : Int)
  deriving DecidableEq

inductive SubdayUnit where
  | seconds | minutes | hours
  deriving DecidableEq

inductive HumaneDailyFrequency where
  | once (at_ : JsString)
  | every (interval : Int) (unit : SubdayUnit) (from_ to_ : JsString)
  deriving DecidableEq

structure HumaneSchedule where
  recurrence : HumaneRecurrence
  dailyFrequency : HumaneDailyFrequency
  startDate : JsString
  /-- None stands for no end. -/
  endDate : Option JsString
  deriving DecidableEq

/-! ## Times and dates -/

/-- hhmmss integer to `HH:MM:SS`. -/
def decodeTime (t : Int) : JsString :=
  let s := padStart 6 (digitUnit 0) (digits t.toNat)
  slice s 0 2 ++ js ":" ++ slice s 2 4 ++ js ":" ++ slice s 4 6

/-- `HH:MM:SS` or `HH:MM` to hhmmss integer. A part that is no number makes `NaN` of the whole. -/
def encodeTime (hhmmss : JsString) : Option Int :=
  let parts := hhmmss.splitOn (Fin.ofNat _ 0x3A)
  let part (i : Nat) : Option Int := (parts[i]?.map number).getD (some 0)
  do
    let h ← part 0
    let m ← part 1
    let s ← part 2
    return h * 10000 + m * 100 + s

/-- yyyymmdd integer to `yyyy-mm-dd`. -/
def decodeDate (d : Int) : JsString :=
  let s := padStart 8 (digitUnit 0) (digits d.toNat)
  slice s 0 4 ++ js "-" ++ slice s 4 6 ++ js "-" ++ slice s 6 8

/-- `yyyy-mm-dd` to yyyymmdd integer. -/
def encodeDate (iso : JsString) : Option Int := number (iso.filter fun unit => unit ≠ Fin.ofNat _ 0x2D)

/-! ## Schedules -/

def NO_END_DATE : Int := 99991231

/-- The weekdays whose bits are set. -/
def weekdaysIn (freqInterval : Int) : List Weekday :=
  (WEEKDAY_ENTRIES.filter fun entry => bitAnd freqInterval entry.2 ≠ 0).map (·.1)

/-- The bits of weekdays, together. -/
def weekdayMask (weekdays : List Weekday) : Int := weekdays.foldl (fun acc d => bitOr acc (WeekdayFlag d)) 0

/-- The first half of `toHumaneSchedule`. -/
def humaneRecurrence (s : ScheduleDefinition) : HumaneRecurrence :=
  if s.freqType = FreqType.Once then .once
  else if s.freqType = FreqType.OnAgentStart then .onAgentStart
  else if s.freqType = FreqType.OnIdle then .onIdle
  else if s.freqType = FreqType.Daily then .daily s.freqInterval
  else if s.freqType = FreqType.Weekly then .weekly s.freqRecurrenceFactor (weekdaysIn s.freqInterval)
  else if s.freqType = FreqType.Monthly then .monthly s.freqInterval s.freqRecurrenceFactor
  else if s.freqType = FreqType.MonthlyRelative then
    let occurrence := ((RELATIVE_INTERVAL_ENTRIES.find? (·.2 = s.freqRelativeInterval)).map (·.1)).getD .First
    let weekday := ((RELATIVE_WEEKDAY_ENTRIES.find? (·.2 = s.freqInterval)).map (·.1)).getD .Day
    .monthlyRelative occurrence weekday s.freqRecurrenceFactor
  else .once

/-- The second half of `toHumaneSchedule`. -/
def humaneDailyFrequency (s : ScheduleDefinition) : HumaneDailyFrequency :=
  if s.freqSubdayType = FreqSubdayType.AtSpecifiedTime then .once (decodeTime s.activeStartTime)
  else
    .every s.freqSubdayInterval
      (if s.freqSubdayType = FreqSubdayType.Seconds then .seconds
        else if s.freqSubdayType = FreqSubdayType.Hours then .hours
        else .minutes)
      (decodeTime s.activeStartTime) (decodeTime s.activeEndTime)

def toHumaneSchedule (s : ScheduleDefinition) : HumaneSchedule where
  recurrence := humaneRecurrence s
  dailyFrequency := humaneDailyFrequency s
  startDate := decodeDate s.activeStartDate
  endDate := if s.activeEndDate = NO_END_DATE then none else some (decodeDate s.activeEndDate)

/-- What a recurrence sets of a schedule. -/
structure EncodedRecurrence where
  freqType : Int := FreqType.Once
  freqInterval : Int := 0
  freqRelativeInterval : Int := 0
  freqRecurrenceFactor : Int := 0

/-- The switch of `fromHumaneSchedule`. -/
def encodeRecurrence : HumaneRecurrence → EncodedRecurrence
  | .once => { freqType := FreqType.Once, freqInterval := 0 }
  | .onAgentStart => { freqType := FreqType.OnAgentStart, freqInterval := 0 }
  | .onIdle => { freqType := FreqType.OnIdle, freqInterval := 0 }
  | .daily everyNDays => { freqType := FreqType.Daily, freqInterval := everyNDays }
  | .weekly everyNWeeks weekdays =>
    { freqType := FreqType.Weekly, freqInterval := weekdayMask weekdays, freqRecurrenceFactor := everyNWeeks }
  | .monthly dayOfMonth everyNMonths =>
    { freqType := FreqType.Monthly, freqInterval := dayOfMonth, freqRecurrenceFactor := everyNMonths }
  | .monthlyRelative occurrence weekday everyNMonths =>
    { freqType := FreqType.MonthlyRelative
      freqInterval := RelativeWeekday weekday
      freqRelativeInterval := RelativeInterval occurrence
      freqRecurrenceFactor := everyNMonths }

namespace HumaneDailyFrequency

def freqSubdayType : HumaneDailyFrequency → Int
  | once _ => FreqSubdayType.AtSpecifiedTime
  | every _ .seconds _ _ => FreqSubdayType.Seconds
  | every _ .hours _ _ => FreqSubdayType.Hours
  | every _ .minutes _ _ => FreqSubdayType.Minutes

def freqSubdayInterval : HumaneDailyFrequency → Int
  | once _ => 0
  | every interval _ _ _ => interval

def activeStartTime : HumaneDailyFrequency → Option Int
  | once at_ => encodeTime at_
  | every _ _ from_ _ => encodeTime from_

def activeEndTime : HumaneDailyFrequency → Option Int
  | once _ => some 235959
  | every _ _ _ to_ => encodeTime to_

end HumaneDailyFrequency

def encodeEndDate : Option JsString → Option Int
  | none => some NO_END_DATE
  | some endDate => encodeDate endDate

/-- A time or a date that is no number leaves no schedule. -/
def fromHumaneSchedule (name : JsString) (enabled : Bool) (h : HumaneSchedule) : Option ScheduleDefinition := do
  let recurrence := encodeRecurrence h.recurrence
  let activeStartDate ← encodeDate h.startDate
  let activeEndDate ← encodeEndDate h.endDate
  let activeStartTime ← h.dailyFrequency.activeStartTime
  let activeEndTime ← h.dailyFrequency.activeEndTime
  return {
    name := name
    enabled := enabled
    freqType := recurrence.freqType
    freqInterval := recurrence.freqInterval
    freqSubdayType := h.dailyFrequency.freqSubdayType
    freqSubdayInterval := h.dailyFrequency.freqSubdayInterval
    freqRelativeInterval := recurrence.freqRelativeInterval
    freqRecurrenceFactor := recurrence.freqRecurrenceFactor
    activeStartDate := activeStartDate
    activeEndDate := activeEndDate
    activeStartTime := activeStartTime
    activeEndTime := activeEndTime }

/-! ## Times and dates, both ways -/

/-- `HH:MM:SS`, with two digits for each. -/
def timeText (h m s : Nat) : JsString := padded 2 h ++ js ":" ++ padded 2 m ++ js ":" ++ padded 2 s

/-- `yyyy-mm-dd`, with four digits for the year. -/
def dateText (y m d : Nat) : JsString := padded 4 y ++ js "-" ++ padded 2 m ++ js "-" ++ padded 2 d

theorem decodeTime_eq {t : Nat} (six : t < 1000000) : decodeTime t = timeText (t / 10000) (t / 100) t := by
  have filled : padStart 6 (digitUnit 0) (digits t) = padded 2 (t / 10000) ++ (padded 2 (t / 100) ++ padded 2 t) := by
    rw [@padStart_digits 5 t six, padded_add 2 4 t, padded_add 2 2 t]
    rfl
  rw [decodeTime, Int.toNat_natCast, filled]
  simp [slice, timeText, padded]

theorem decodeDate_eq {d : Nat} (eight : d < 100000000) : decodeDate d = dateText (d / 10000) (d / 100) d := by
  have filled : padStart 8 (digitUnit 0) (digits d) = padded 4 (d / 10000) ++ (padded 2 (d / 100) ++ padded 2 d) := by
    rw [@padStart_digits 7 d eight, padded_add 4 4 d, padded_add 2 2 d]
    rfl
  rw [decodeDate, Int.toNat_natCast, filled]
  simp [slice, dateText, padded]

theorem encodeTime_timeText (h m s : Nat) :
    encodeTime (timeText h m s) = some ((h % 100 * 10000 + m % 100 * 100 + s % 100 : Nat) : Int) := by
  have free : ∀ n, Fin.ofNat _ 0x3A ∉ padded 2 n := fun n member => absurd (isDigit_padded member) (by decide)
  have parts : (timeText h m s).splitOn (Fin.ofNat _ 0x3A) = [padded 2 h, padded 2 m, padded 2 s] := by
    have colon : js ":" = [Fin.ofNat _ 0x3A] := rfl
    rw [timeText, colon, List.append_assoc, List.append_assoc, List.append_assoc, List.singleton_append,
      List.singleton_append, List.splitOn_append_cons_self_of_not_mem (free h),
      List.splitOn_append_cons_self_of_not_mem (free m), List.splitOn_eq_singleton (free s)]
  rw [encodeTime, parts]
  simp [number_padded]

theorem encodeDate_dateText (y m d : Nat) :
    encodeDate (dateText y m d) = some ((y % 10000 * 10000 + m % 100 * 100 + d % 100 : Nat) : Int) := by
  have kept : ∀ width n, (padded width n).filter (fun unit => unit ≠ Fin.ofNat _ 0x2D) = padded width n := by
    intro width n
    apply List.filter_eq_self.mpr
    intro unit member
    have digit := isDigit_padded member
    apply decide_eq_true
    rintro rfl
    exact absurd digit (by decide)
  have dash : (js "-").filter (fun unit => unit ≠ Fin.ofNat _ 0x2D) = [] := by decide
  have packed : padded 8 (y % 10000 * 10000 + m % 100 * 100 + d % 100) = padded 4 y ++ (padded 2 m ++ padded 2 d) := by
    generalize same : y % 10000 * 10000 + m % 100 * 100 + d % 100 = n
    have year : n / 10 ^ 4 = y % 10 ^ 4 := by omega
    have month : n / 10 ^ 2 % 10 ^ 2 = m % 10 ^ 2 := by omega
    have day : n % 10 ^ 2 = d % 10 ^ 2 := by omega
    rw [padded_add 4 4 n, padded_add 2 2 n, year, ← padded_mod 2 (n / 10 ^ 2), month, ← padded_mod 2 n, day, padded_mod,
      padded_mod, padded_mod]
  have whole : (dateText y m d).filter (fun unit => unit ≠ Fin.ofNat _ 0x2D) =
      padded 8 (y % 10000 * 10000 + m % 100 * 100 + d % 100) := by
    rw [packed]
    simp only [dateText, List.filter_append, kept, dash, List.nil_append, List.append_assoc]
  rw [encodeDate, whole, number_padded 7]
  congr 2
  omega

/-- `HH:MM:SS`, in range. -/
def IsTime (text : JsString) : Prop := ∃ h m s, h < 24 ∧ m < 60 ∧ s < 60 ∧ text = timeText h m s

/-- Four digits, two and two, as every date of a year of four digits is written. -/
def IsDate (text : JsString) : Prop := ∃ y m d, y < 10000 ∧ m < 100 ∧ d < 100 ∧ text = dateText y m d

theorem decode_encodeTime {text : JsString} (isTime : IsTime text) :
    ∃ t, encodeTime text = some t ∧ decodeTime t = text := by
  obtain ⟨h, m, s, hours, minutes, seconds, rfl⟩ := isTime
  refine ⟨_, encodeTime_timeText h m s, ?_⟩
  rw [decodeTime_eq (by omega)]
  generalize same : h % 100 * 10000 + m % 100 * 100 + s % 100 = t
  have hour : t / 10000 % 10 ^ 2 = h % 10 ^ 2 := by omega
  have minute : t / 100 % 10 ^ 2 = m % 10 ^ 2 := by omega
  have second : t % 10 ^ 2 = s % 10 ^ 2 := by omega
  simp only [timeText, ← padded_mod 2 (t / 10000), hour, ← padded_mod 2 (t / 100), minute, ← padded_mod 2 t, second,
    padded_mod]

theorem encode_decodeTime {t : Int} (range : 0 ≤ t ∧ t < 1000000) : encodeTime (decodeTime t) = some t := by
  obtain ⟨n, rfl⟩ := Int.eq_ofNat_of_zero_le range.1
  rw [decodeTime_eq (by omega), encodeTime_timeText]
  congr 2
  omega

theorem decode_encodeDate {text : JsString} (isDate : IsDate text) :
    ∃ d, encodeDate text = some d ∧ decodeDate d = text := by
  obtain ⟨y, m, d, years, months, days, rfl⟩ := isDate
  refine ⟨_, encodeDate_dateText y m d, ?_⟩
  rw [decodeDate_eq (by omega)]
  generalize same : y % 10000 * 10000 + m % 100 * 100 + d % 100 = n
  have year : n / 10000 % 10 ^ 4 = y % 10 ^ 4 := by omega
  have month : n / 100 % 10 ^ 2 = m % 10 ^ 2 := by omega
  have day : n % 10 ^ 2 = d % 10 ^ 2 := by omega
  simp only [dateText, ← padded_mod 4 (n / 10000), year, ← padded_mod 2 (n / 100), month, ← padded_mod 2 n, day,
    padded_mod]

theorem encode_decodeDate {d : Int} (range : 0 ≤ d ∧ d < 100000000) : encodeDate (decodeDate d) = some d := by
  obtain ⟨n, rfl⟩ := Int.eq_ofNat_of_zero_le range.1
  rw [decodeDate_eq (by omega), encodeDate_dateText]
  congr 2
  omega

/-! ## Weekdays, both ways -/

/-- Each weekday has a bit of its own, and the bits are found in week order. -/
theorem weekdaysIn_weekdayMask {weekdays : List Weekday} (ordered : weekdays.Sublist (WEEKDAY_ENTRIES.map (·.1))) :
    weekdaysIn (weekdayMask weekdays) = weekdays := by
  have each : ∀ weekdays ∈ (WEEKDAY_ENTRIES.map (·.1)).sublists, weekdaysIn (weekdayMask weekdays) = weekdays := by
    decide +kernel
  exact each weekdays (List.mem_sublists.mpr ordered)

theorem weekdayMask_weekdaysIn {mask : Int} (bits : 0 ≤ mask ∧ mask ≤ 127) : weekdayMask (weekdaysIn mask) = mask := by
  have each : ∀ mask < 128, weekdayMask (weekdaysIn (mask : Nat)) = (mask : Nat) := by decide +kernel
  obtain ⟨n, rfl⟩ := Int.eq_ofNat_of_zero_le bits.1
  exact each n (by omega)

/-! ## Schedules, both ways -/

/-- What the editor shows of a schedule that it can represent. -/
structure HumaneSchedule.Editable (h : HumaneSchedule) : Prop where
  weekdays : ∀ everyNWeeks weekdays, h.recurrence = .weekly everyNWeeks weekdays →
    weekdays.Sublist (WEEKDAY_ENTRIES.map (·.1))
  at_ : ∀ at_, h.dailyFrequency = .once at_ → IsTime at_
  window : ∀ interval unit from_ to_, h.dailyFrequency = .every interval unit from_ to_ → IsTime from_ ∧ IsTime to_
  startDate : IsDate h.startDate
  endDate : ∀ endDate ∈ h.endDate, IsDate endDate ∧ endDate ≠ js "9999-12-31"

/-- The kind of recurrence is known, its codes are, and what it does not use is zero. -/
def KnownRecurrence (s : ScheduleDefinition) : Prop :=
  ((s.freqType = FreqType.Once ∨ s.freqType = FreqType.OnAgentStart ∨ s.freqType = FreqType.OnIdle) ∧
      s.freqInterval = 0 ∧ s.freqRelativeInterval = 0 ∧ s.freqRecurrenceFactor = 0) ∨
    (s.freqType = FreqType.Daily ∧ s.freqRelativeInterval = 0 ∧ s.freqRecurrenceFactor = 0) ∨
    (s.freqType = FreqType.Weekly ∧ (0 ≤ s.freqInterval ∧ s.freqInterval ≤ 127) ∧ s.freqRelativeInterval = 0) ∨
    (s.freqType = FreqType.Monthly ∧ s.freqRelativeInterval = 0) ∨
    (s.freqType = FreqType.MonthlyRelative ∧ s.freqInterval ∈ RELATIVE_WEEKDAY_ENTRIES.map (·.2) ∧
      s.freqRelativeInterval ∈ RELATIVE_INTERVAL_ENTRIES.map (·.2))

/-- Once a day, or at intervals of a known unit. -/
def KnownSubday (s : ScheduleDefinition) : Prop :=
  (s.freqSubdayType = FreqSubdayType.AtSpecifiedTime ∧ s.freqSubdayInterval = 0 ∧ s.activeEndTime = 235959) ∨
    s.freqSubdayType = FreqSubdayType.Seconds ∨ s.freqSubdayType = FreqSubdayType.Minutes ∨
    s.freqSubdayType = FreqSubdayType.Hours

/-- A stored schedule whose fields mean something. Dates have eight digits at most, times six. -/
structure ScheduleDefinition.Encoded (s : ScheduleDefinition) : Prop where
  recurrence : KnownRecurrence s
  subday : KnownSubday s
  startDate : 0 ≤ s.activeStartDate ∧ s.activeStartDate < 100000000
  endDate : 0 ≤ s.activeEndDate ∧ s.activeEndDate < 100000000
  startTime : 0 ≤ s.activeStartTime ∧ s.activeStartTime < 1000000
  endTime : 0 ≤ s.activeEndTime ∧ s.activeEndTime < 1000000

/-- Every entry of a table is found by its value again, and by its name. -/
theorem relative_names : (∀ occurrence, ((RELATIVE_INTERVAL_ENTRIES.find? (·.2 = RelativeInterval occurrence)).map
      (·.1)).getD .First = occurrence) ∧
    ∀ weekday, ((RELATIVE_WEEKDAY_ENTRIES.find? (·.2 = RelativeWeekday weekday)).map (·.1)).getD .Day = weekday := by
  constructor
  · intro occurrence
    cases occurrence <;> rfl
  · intro weekday
    cases weekday <;> rfl

theorem relative_values : (∀ value ∈ RELATIVE_INTERVAL_ENTRIES.map (·.2),
      RelativeInterval (((RELATIVE_INTERVAL_ENTRIES.find? (·.2 = value)).map (·.1)).getD .First) = value) ∧
    ∀ value ∈ RELATIVE_WEEKDAY_ENTRIES.map (·.2),
      RelativeWeekday (((RELATIVE_WEEKDAY_ENTRIES.find? (·.2 = value)).map (·.1)).getD .Day) = value := by
  decide

theorem humaneRecurrence_encodeRecurrence {recurrence : HumaneRecurrence} {s : ScheduleDefinition}
    (ordered : ∀ everyNWeeks weekdays, recurrence = .weekly everyNWeeks weekdays →
      weekdays.Sublist (WEEKDAY_ENTRIES.map (·.1)))
    (freqType : s.freqType = (encodeRecurrence recurrence).freqType)
    (freqInterval : s.freqInterval = (encodeRecurrence recurrence).freqInterval)
    (freqRelativeInterval : s.freqRelativeInterval = (encodeRecurrence recurrence).freqRelativeInterval)
    (freqRecurrenceFactor : s.freqRecurrenceFactor = (encodeRecurrence recurrence).freqRecurrenceFactor) :
    humaneRecurrence s = recurrence := by
  rw [humaneRecurrence, freqType, freqInterval, freqRelativeInterval, freqRecurrenceFactor]
  cases recurrence with
  | once | onAgentStart | onIdle | daily | monthly => rfl
  | weekly everyNWeeks weekdays =>
    have whole := weekdaysIn_weekdayMask (ordered everyNWeeks weekdays rfl)
    exact congrArg (HumaneRecurrence.weekly everyNWeeks) whole
  | monthlyRelative occurrence weekday everyNMonths =>
    exact congrArg₂ (HumaneRecurrence.monthlyRelative · · everyNMonths) (relative_names.1 occurrence)
      (relative_names.2 weekday)

theorem encodeRecurrence_humaneRecurrence {s : ScheduleDefinition} (known : KnownRecurrence s) :
    encodeRecurrence (humaneRecurrence s) =
      ⟨s.freqType, s.freqInterval, s.freqRelativeInterval, s.freqRecurrenceFactor⟩ := by
  obtain ⟨name, enabled, freqType, freqInterval, subdayType, subdayInterval, relativeInterval, factor, dates⟩ := s
  dsimp only [KnownRecurrence] at known
  rcases known with ⟨rfl | rfl | rfl, rfl, rfl, rfl⟩ | ⟨rfl, rfl, rfl⟩ | ⟨rfl, mask, rfl⟩ | ⟨rfl, rfl⟩ |
    ⟨rfl, weekday, occurrence⟩
  · rfl
  · rfl
  · rfl
  · rfl
  · exact congrArg (EncodedRecurrence.mk FreqType.Weekly · 0 factor) (weekdayMask_weekdaysIn mask)
  · rfl
  · exact congrArg₂ (EncodedRecurrence.mk FreqType.MonthlyRelative · · factor) (relative_values.2 _ weekday)
      (relative_values.1 _ occurrence)

/-- The times of a daily frequency are read back, and so is the rest of it. -/
theorem decode_encodeDailyFrequency {frequency : HumaneDailyFrequency}
    (at_ : ∀ at_, frequency = .once at_ → IsTime at_)
    (window : ∀ interval unit from_ to_, frequency = .every interval unit from_ to_ → IsTime from_ ∧ IsTime to_) :
    ∃ start stop, frequency.activeStartTime = some start ∧ frequency.activeEndTime = some stop ∧
      ∀ s : ScheduleDefinition, s.freqSubdayType = frequency.freqSubdayType →
        s.freqSubdayInterval = frequency.freqSubdayInterval → s.activeStartTime = start → s.activeEndTime = stop →
        humaneDailyFrequency s = frequency := by
  cases frequency with
  | once time =>
    obtain ⟨start, starts, shown⟩ := decode_encodeTime (at_ time rfl)
    refine ⟨start, 235959, starts, rfl, fun s subday _ same _ => ?_⟩
    rw [humaneDailyFrequency, same, shown]
    exact if_pos subday
  | every interval unit from_ to_ =>
    obtain ⟨first, last⟩ := window interval unit from_ to_ rfl
    obtain ⟨start, starts, shownStart⟩ := decode_encodeTime first
    obtain ⟨stop, stops, shownStop⟩ := decode_encodeTime last
    refine ⟨start, stop, starts, stops, fun s subday count same same' => ?_⟩
    rw [humaneDailyFrequency, subday, count, same, same', shownStart, shownStop]
    cases unit <;> rfl

theorem decode_encodeEndDate {endDate : Option JsString}
    (dated : ∀ text ∈ endDate, IsDate text ∧ text ≠ js "9999-12-31") :
    ∃ stop, encodeEndDate endDate = some stop ∧
      (if stop = NO_END_DATE then none else some (decodeDate stop)) = endDate := by
  cases endDate with
  | none => exact ⟨NO_END_DATE, rfl, rfl⟩
  | some text =>
    obtain ⟨isDate, notLast⟩ := dated text rfl
    obtain ⟨stop, stops, shown⟩ := decode_encodeDate isDate
    have bounded : stop ≠ NO_END_DATE := by
      rintro rfl
      exact notLast (shown.symm.trans (by decide))
    exact ⟨stop, stops, by rw [if_neg bounded, shown]⟩

/-- What the editor shows is shown again after saving. -/
theorem decode_encodeSchedule {h : HumaneSchedule} (editable : h.Editable) (name : JsString) (enabled : Bool) :
    (fromHumaneSchedule name enabled h).map toHumaneSchedule = some h := by
  obtain ⟨startDate, starts, shownStart⟩ := decode_encodeDate editable.startDate
  obtain ⟨endDate, stops, shownEnd⟩ := decode_encodeEndDate editable.endDate
  obtain ⟨startTime, endTime, opens, closes, daily⟩ := decode_encodeDailyFrequency editable.at_ editable.window
  have recurrence := editable.weekdays
  obtain ⟨kind, dailyFrequency, start, stop⟩ := h
  rw [fromHumaneSchedule, starts, stops, opens, closes]
  refine congrArg some ?_
  simp only [toHumaneSchedule, HumaneSchedule.mk.injEq]
  exact ⟨humaneRecurrence_encodeRecurrence recurrence rfl rfl rfl rfl, daily _ rfl rfl rfl rfl, shownStart, shownEnd⟩

theorem encode_decodeEndDate {d : Int} (range : 0 ≤ d ∧ d < 100000000) :
    encodeEndDate (if d = NO_END_DATE then none else some (decodeDate d)) = some d := by
  by_cases last : d = NO_END_DATE
  · rw [if_pos last, last]
    rfl
  · rw [if_neg last]
    exact encode_decodeDate range

theorem encode_decodeDailyFrequency {s : ScheduleDefinition} (known : KnownSubday s)
    (startTime : 0 ≤ s.activeStartTime ∧ s.activeStartTime < 1000000)
    (endTime : 0 ≤ s.activeEndTime ∧ s.activeEndTime < 1000000) :
    (humaneDailyFrequency s).freqSubdayType = s.freqSubdayType ∧
      (humaneDailyFrequency s).freqSubdayInterval = s.freqSubdayInterval ∧
      (humaneDailyFrequency s).activeStartTime = some s.activeStartTime ∧
      (humaneDailyFrequency s).activeEndTime = some s.activeEndTime := by
  have opens := encode_decodeTime startTime
  have closes := encode_decodeTime endTime
  rcases known with ⟨once, interval, last⟩ | seconds | minutes | hours
  · rw [humaneDailyFrequency, once, interval, last]
    exact ⟨rfl, rfl, opens, rfl⟩
  · rw [humaneDailyFrequency, seconds]
    exact ⟨rfl, rfl, opens, closes⟩
  · rw [humaneDailyFrequency, minutes]
    exact ⟨rfl, rfl, opens, closes⟩
  · rw [humaneDailyFrequency, hours]
    exact ⟨rfl, rfl, opens, closes⟩

/-- What is stored is stored again after it was shown. -/
theorem encode_decodeSchedule {s : ScheduleDefinition} (encoded : s.Encoded) :
    fromHumaneSchedule s.name s.enabled (toHumaneSchedule s) = some s := by
  have recurrence := encodeRecurrence_humaneRecurrence encoded.recurrence
  have start := encode_decodeDate encoded.startDate
  have stop := encode_decodeEndDate encoded.endDate
  obtain ⟨subdayType, subdayInterval, opens, closes⟩ :=
    encode_decodeDailyFrequency encoded.subday encoded.startTime encoded.endTime
  simp only [fromHumaneSchedule, toHumaneSchedule, recurrence, start, stop, subdayType, subdayInterval, opens, closes]
  rfl

/-- **The codec of the schedule editor loses nothing.** A schedule that the editor can represent is
shown as it was saved, and a stored schedule whose fields mean something is saved as it was. -/
theorem schedule_round_trips :
    (∀ (h : HumaneSchedule) (name : JsString) (enabled : Bool), h.Editable →
      (fromHumaneSchedule name enabled h).map toHumaneSchedule = some h) ∧
    ∀ s : ScheduleDefinition, s.Encoded → fromHumaneSchedule s.name s.enabled (toHumaneSchedule s) = some s :=
  ⟨fun _ name enabled editable => decode_encodeSchedule editable name enabled, fun _ => encode_decodeSchedule⟩

/-- Every second Tuesday evening, from one date on. -/
def tuesdaySchedule : ScheduleDefinition where
  name := js "Evening"
  enabled := true
  freqType := FreqType.MonthlyRelative
  freqInterval := 3
  freqSubdayType := FreqSubdayType.Minutes
  freqSubdayInterval := 15
  freqRelativeInterval := 2
  freqRecurrenceFactor := 1
  activeStartDate := 20240131
  activeEndDate := NO_END_DATE
  activeStartTime := 180500
  activeEndTime := 235959

theorem schedule_round_trips_tuesday :
    fromHumaneSchedule (js "Evening") true (toHumaneSchedule tuesdaySchedule) = some tuesdaySchedule ∧
      (toHumaneSchedule tuesdaySchedule).recurrence = .monthlyRelative .Second .Tuesday 1 ∧
      (toHumaneSchedule tuesdaySchedule).dailyFrequency = .every 15 .minutes (timeText 18 5 0) (timeText 23 59 59) := by
  refine ⟨schedule_round_trips.2 tuesdaySchedule ⟨?_, .inr (.inr (.inl rfl)), ?_, ?_, ?_, ?_⟩, by decide, by decide⟩
  · exact .inr (.inr (.inr (.inr ⟨rfl, by decide, by decide⟩)))
  all_goals
    constructor <;> decide

end RemoteSqlAgent
