import RemoteSqlAgent.LintDiagnostics
import Mathlib.Data.Int.ConditionallyCompleteOrder
import Mathlib.Data.List.GetD
import Mathlib.Data.Prod.Lex
import Mathlib.Order.ConditionallyCompleteLattice.Basic
import Mathlib.Order.Interval.Set.Defs
import Mathlib.Order.Monotone.Defs

/-! What the locator says of an offset, in terms of the text alone. -/
namespace RemoteSqlAgent.Lint
open Js

/-! ## The search over the line starts -/

/-- Where the search still looks: the start at `low` is reached, those past `high` are not. -/
structure Window (starts : List Nat) (offset low high : Nat) : Prop where
  ordered : low ≤ high
  within : high < starts.length
  reached : starts.getD low 0 ≤ offset
  beyond : ∀ i, high < i → i < starts.length → offset < starts.getD i 0

theorem getD_le_getD {starts : List Nat} (increasing : starts.Pairwise (· < ·)) {i j : Nat} (ordered : i ≤ j)
    (within : j < starts.length) : starts.getD i 0 ≤ starts.getD j 0 := by
  rw [List.getD_eq_getElem _ _ (Nat.lt_of_le_of_lt ordered within), List.getD_eq_getElem _ _ within]
  rcases Nat.lt_or_eq_of_le ordered with earlier | rfl
  · exact Nat.le_of_lt (List.pairwise_iff_getElem.mp increasing i j _ within earlier)
  · exact Nat.le_refl _

/-- The midpoint rounds up, so it is past `low` and the window gets smaller on either side. -/
theorem Window.halve {starts : List Nat} (increasing : starts.Pairwise (· < ·)) {offset low high : Nat}
    (window : Window starts offset low high) {mid : Nat} (past : low < mid) (upTo : mid ≤ high) :
    (starts.getD mid 0 ≤ offset → Window starts offset mid high) ∧
      (¬ starts.getD mid 0 ≤ offset → Window starts offset low (mid - 1)) := by
  constructor
  · intro reached
    exact ⟨upTo, window.within, reached, window.beyond⟩
  · intro unreached
    have within := window.within
    refine ⟨by omega, by omega, window.reached, ?_⟩
    intro i after inside
    have notBefore := getD_le_getD increasing (show mid ≤ i by omega) inside
    omega

theorem window_rightmost {starts : List Nat} (increasing : starts.Pairwise (· < ·)) {offset low high : Nat}
    (window : Window starts offset low high) :
    Window starts offset (rightmost starts offset low high) (rightmost starts offset low high) := by
  induction low, high using rightmost.induct starts offset with
  | case1 low high wide mid reached ih =>
    have halves := window.halve increasing (show low < mid by omega) (by omega)
    rw [rightmost, if_pos wide]
    simp only [show (low + high + 1) / 2 = mid from rfl, if_pos reached]
    exact ih (halves.1 reached)
  | case2 low high wide mid unreached ih =>
    have halves := window.halve increasing (show low < mid by omega) (by omega)
    rw [rightmost, if_pos wide]
    simp only [show (low + high + 1) / 2 = mid from rfl, if_neg unreached]
    exact ih (halves.2 unreached)
  | case3 low high closed =>
    have closes : low = high := by
      have ordered := window.ordered
      omega
    rw [rightmost, if_neg closed]
    rw [← closes] at window
    exact window

/-- A window of one start counts the starts that are reached. -/
theorem countP_of_window {starts : List Nat} (increasing : starts.Pairwise (· < ·)) {offset last : Nat}
    (window : Window starts offset last last) : starts.countP (· ≤ offset) = last + 1 := by
  have reached : (starts.take (last + 1)).countP (· ≤ offset) = (starts.take (last + 1)).length := by
    rw [List.countP_eq_length]
    intro start member
    obtain ⟨i, inside, rfl⟩ := List.mem_take_iff_getElem.mp member
    have upTo : i ≤ last := by omega
    have ordered := getD_le_getD increasing upTo window.within
    rw [List.getD_eq_getElem _ _ (by omega)] at ordered
    exact decide_eq_true (Nat.le_trans ordered window.reached)
  have unreached : (starts.drop (last + 1)).countP (· ≤ offset) = 0 := by
    rw [List.countP_eq_zero]
    intro start member
    obtain ⟨i, inside, rfl⟩ := List.mem_drop_iff_getElem.mp member
    have beyond := window.beyond (last + 1 + i) (by omega) (by omega)
    rw [List.getD_eq_getElem _ _ (by omega)] at beyond
    simpa using beyond
  have split := congrArg (List.countP (· ≤ offset)) (List.take_append_drop (last + 1) starts)
  rw [List.countP_append, reached, unreached, List.length_take] at split
  have within := window.within
  omega

/-! ## The line starts of a text -/

/-- A line starts at the front of a text and after every line feed. -/
def IsLineStart (text : JsString) (start : Nat) : Prop :=
  start = 0 ∨ ∃ i, start = i + 1 ∧ text[i]? = some lineFeed

theorem mem_lineStarts {text : JsString} {start : Nat} : start ∈ lineStarts text ↔ IsLineStart text start := by
  unfold lineStarts IsLineStart
  rw [List.mem_cons, List.mem_map]
  refine or_congr_right ⟨?_, ?_⟩
  · rintro ⟨i, member, rfl⟩
    exact ⟨i, rfl, of_decide_eq_true (List.mem_filter.mp member).2⟩
  · rintro ⟨i, rfl, feed⟩
    exact ⟨i, List.mem_filter.mpr ⟨List.mem_range.mpr (lt_of_unit feed), decide_eq_true feed⟩, rfl⟩

theorem lineStarts_increasing (text : JsString) : (lineStarts text).Pairwise (· < ·) := by
  rw [lineStarts, List.pairwise_cons, List.pairwise_map]
  constructor
  · intro start member
    obtain ⟨i, -, rfl⟩ := List.mem_map.mp member
    exact Nat.succ_pos i
  · exact (List.pairwise_lt_range.filter _).imp Nat.succ_lt_succ

/-- The line feeds before an offset, found by position. -/
theorem count_take (text : JsString) (unit : CodeUnit) (offset : Nat) :
    (text.take offset).count unit =
      (List.range text.length).countP fun i => text[i]? = some unit ∧ i < offset := by
  induction text generalizing offset with
  | nil => simp
  | cons first rest ih =>
    cases offset with
    | zero => simp
    | succ offset =>
      rw [List.take_succ_cons, List.count_cons, ih, List.length_cons, List.range_succ_eq_map, List.countP_cons,
        List.countP_map]
      simp [Function.comp_def]

theorem countP_lineStarts (text : JsString) (offset : Nat) :
    (lineStarts text).countP (· ≤ offset) = 1 + (text.take offset).count lineFeed := by
  rw [count_take, lineStarts, List.countP_cons, List.countP_map, List.countP_filter, Nat.add_comm]
  congr 1
  apply List.countP_congr
  intro i _
  simp only [Function.comp_apply, Bool.decide_and, decide_eq_true_eq, Bool.and_eq_true]
  rw [Nat.succ_le_iff, and_comm]

/-! ## Locations -/

/-- The offset the locator looks at. -/
def clamp (text : JsString) (offset : Int) : Nat := (max 0 (min offset text.length)).toNat

/-- The line start that an offset's column is counted from. -/
def IsLastLineStart (text : JsString) (offset start : Nat) : Prop :=
  IsGreatest {other | IsLineStart text other ∧ other ≤ offset} start

theorem isLastLineStart_of_window {text : JsString} {offset last : Nat}
    (window : Window (lineStarts text) offset last last) :
    IsLastLineStart text offset ((lineStarts text).getD last 0) := by
  have increasing := lineStarts_increasing text
  refine ⟨⟨?_, window.reached⟩, ?_⟩
  · rw [← mem_lineStarts, List.getD_eq_getElem _ _ window.within]
    exact List.getElem_mem _
  · rintro other ⟨starts, upTo⟩
    obtain ⟨i, inside, rfl⟩ := List.mem_iff_getElem.mp (mem_lineStarts.mpr starts)
    rcases Nat.lt_or_ge last i with after | ordered
    · have beyond := window.beyond i after inside
      rw [List.getD_eq_getElem _ _ inside] at beyond
      omega
    · have notBefore := getD_le_getD increasing ordered window.within
      rw [List.getD_eq_getElem _ _ inside] at notBefore
      exact notBefore

theorem makeLocator_eq (text : JsString) (offset : Int) :
    ∃ start, IsLastLineStart text (clamp text offset) start ∧
      makeLocator text offset =
        ⟨1 + (text.take (clamp text offset)).count lineFeed, 1 + (clamp text offset - start)⟩ := by
  have whole : Window (lineStarts text) (clamp text offset) 0 ((lineStarts text).length - 1) := by
    refine ⟨Nat.zero_le _, ?_, Nat.zero_le _, ?_⟩
    · simp [lineStarts]
    · intro i after inside
      omega
  have window := window_rightmost (lineStarts_increasing text) whole
  have counted := countP_of_window (lineStarts_increasing text) window
  rw [countP_lineStarts] at counted
  refine ⟨_, isLastLineStart_of_window window, ?_⟩
  rw [counted, Nat.add_comm 1]
  rfl

/-- As long as no line feed is crossed, the line start stays. -/
theorem IsLastLineStart.eq_of_count {text : JsString} {first second start start' : Nat} (ordered : first ≤ second)
    (same : (text.take first).count lineFeed = (text.take second).count lineFeed)
    (last : IsLastLineStart text first start) (last' : IsLastLineStart text second start') : start = start' := by
  have upTo : start' ≤ first := by
    by_contra past
    obtain rfl | ⟨i, rfl, feed⟩ := last'.1.1
    · exact past (Nat.zero_le _)
    · have before := last'.1.2
      have crossed : (text.take first).count lineFeed < (text.take second).count lineFeed := by
        rw [show second = first + (second - first) by omega, List.take_add, List.count_append]
        have member : lineFeed ∈ (text.drop first).take (second - first) := by
          refine List.mem_iff_getElem?.mpr ⟨i - first, ?_⟩
          rw [List.getElem?_take_of_lt (by omega), List.getElem?_drop, show first + (i - first) = i by omega]
          exact feed
        exact Nat.lt_add_of_pos_right (List.count_pos_iff.mpr member)
      omega
  apply Nat.le_antisymm
  · exact last'.2 ⟨last.1.1, Nat.le_trans last.1.2 ordered⟩
  · exact last.2 ⟨last'.1.1, upTo⟩

theorem count_take_le (text : JsString) {first second : Nat} (ordered : first ≤ second) :
    (text.take first).count lineFeed ≤ (text.take second).count lineFeed :=
  (List.take_sublist_take_left ordered).count_le _

/-- The locator is exact, at any offset, and keeps the order of the offsets in the text. -/
theorem locator_exact (text : JsString) :
    (∀ offset : Int, ∃ start, IsLastLineStart text (clamp text offset) start ∧
      makeLocator text offset =
        ⟨1 + (text.take (clamp text offset)).count lineFeed, 1 + (clamp text offset - start)⟩) ∧
      StrictMonoOn (fun offset => toLex ((makeLocator text offset).line, (makeLocator text offset).column))
        (Set.Icc 0 (text.length : Int)) := by
  refine ⟨makeLocator_eq text, ?_⟩
  rintro first ⟨_, _⟩ second ⟨_, _⟩ earlier
  obtain ⟨start, last, located⟩ := makeLocator_eq text first
  obtain ⟨start', last', located'⟩ := makeLocator_eq text second
  have clamped : clamp text first < clamp text second := by
    unfold clamp
    omega
  simp only [located, located', Prod.Lex.toLex_lt_toLex]
  rcases Nat.lt_or_eq_of_le (count_take_le text (Nat.le_of_lt clamped)) with fewer | same
  · exact .inl (by omega)
  · have reached := last.1.2
    have unmoved := last.eq_of_count (Nat.le_of_lt clamped) same last'
    exact .inr ⟨by omega, by omega⟩

end RemoteSqlAgent.Lint
