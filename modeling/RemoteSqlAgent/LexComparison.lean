import Mathlib.Order.PiLex
import Mathlib.Data.List.Range

/-! Two sequences are compared at the first place where they differ. -/
namespace LexComparison

variable {α : Type} [LinearOrder α]

/-- `-1`, `0` or `1`, by the first of these places where the sequences differ. -/
def firstDifference (left right : Nat → α) : List Nat → Int
  | [] => 0
  | i :: later => if left i ≠ right i then if left i < right i then -1 else 1 else firstDifference left right later

/-- What a comparison can say. -/
inductive Compared {β : Type} [LT β] (first second : β) : Int → Prop
  | less (smaller : first < second) : Compared first second (-1)
  | same (equal : first = second) : Compared first second 0
  | greater (larger : second < first) : Compared first second 1

/-- The places before `start` agree, and so do those from `start + count` on. -/
theorem compared_firstDifference {left right : Nat → α} {start count : Nat}
    (before : ∀ i < start, left i = right i) (after : ∀ i, start + count ≤ i → left i = right i) :
    Compared (toLex left) (toLex right) (firstDifference left right (List.range' start count)) := by
  induction count generalizing start with
  | zero =>
    refine .same (congrArg toLex (funext fun i => ?_))
    rcases Nat.lt_or_ge i start with earlier | later
    · exact before i earlier
    · exact after i later
  | succ count ih =>
    rw [List.range'_succ, firstDifference]
    rcases lt_trichotomy (left start) (right start) with smaller | equal | larger
    · rw [if_pos (ne_of_lt smaller), if_pos smaller]
      exact .less ⟨start, before, smaller⟩
    · rw [if_neg (not_not_intro equal)]
      apply ih
      · intro i upTo
        rcases Nat.lt_or_eq_of_le (Nat.le_of_lt_succ upTo) with earlier | rfl
        · exact before i earlier
        · exact equal
      · intro i beyond
        exact after i (by omega)
    · rw [if_pos (ne_of_gt larger), if_neg (lt_asymm larger)]
      exact .greater ⟨start, fun i earlier => (before i earlier).symm, larger⟩

variable {β : Type} [LinearOrder β] {first second : β} {outcome : Int}

theorem Compared.nonpos_iff (compared : Compared first second outcome) : outcome ≤ 0 ↔ first ≤ second := by
  cases compared with
  | less smaller => simp [smaller.le]
  | same equal => simp [equal]
  | greater larger => simp [larger]

theorem Compared.neg_iff (compared : Compared first second outcome) : outcome < 0 ↔ first < second := by
  cases compared with
  | less smaller => simp [smaller]
  | same equal => simp [equal]
  | greater larger => simp [larger.le]

/-- Comparing the other way round says the opposite. -/
theorem Compared.eq_neg {outcome' : Int} (compared : Compared first second outcome)
    (reversed : Compared second first outcome') : outcome = -outcome' := by
  cases compared with
  | less smaller =>
    cases reversed with
    | less larger => exact absurd larger (lt_asymm smaller)
    | same equal => exact absurd equal.symm (ne_of_lt smaller)
    | greater _ => rfl
  | same equal =>
    cases reversed with
    | less larger => exact absurd equal (ne_of_gt larger)
    | same _ => rfl
    | greater smaller => exact absurd equal (ne_of_lt smaller)
  | greater larger =>
    cases reversed with
    | less _ => rfl
    | same equal => exact absurd equal (ne_of_lt larger)
    | greater smaller => exact absurd larger (lt_asymm smaller)

end LexComparison
