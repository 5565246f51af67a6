import RemoteSqlAgent.JsCase

/-! Numerals with leading zeros, reading numerals back, and the bits of numbers. -/
namespace Js

/-- The code unit of a digit. -/
def digitUnit (digit : Nat) : CodeUnit := Fin.ofNat _ (0x30 + digit)

/-- The last digits of a number, so many of them. -/
def padded : Nat → Nat → JsString
  | 0, _ => []
  | width + 1, n => padded width (n / 10) ++ [digitUnit (n % 10)]

/-- `String.prototype.padStart` with a filler of one unit. -/
def padStart (width : Nat) (filler : CodeUnit) (s : JsString) : JsString :=
  List.replicate (width - s.length) filler ++ s

/-- `String.prototype.slice` between two positions that are not negative. -/
def slice (s : JsString) (first last : Nat) : JsString := (s.drop first).take (last - first)

/-- The value of a row of digits. -/
def digitsValue (numeral : JsString) : Nat := numeral.foldl (fun value unit => 10 * value + (unit.val - 0x30)) 0

/-- `Number` of a string, where it is written as a whole number. White space around it is skipped,
and a blank text is 0. Fractions, exponents and other bases are not read here, and come out as
`NaN` does. -/
def number (text : JsString) : Option Int :=
  match trim text with
  | [] => some 0
  | first :: rest =>
    if (first :: rest).all isDigit then some (digitsValue (first :: rest))
    else if rest = [] ∨ rest.any (!isDigit ·) then none
    else if [first] = js "-" then some (-digitsValue rest)
    else if [first] = js "+" then some (digitsValue rest)
    else none

/-- `a & b`, on whole numbers. Both are taken modulo `2 ^ 32`. -/
def bitAnd (a b : Int) : Int := (BitVec.ofInt 32 a &&& BitVec.ofInt 32 b).toInt

/-- `a | b`, likewise. -/
def bitOr (a b : Int) : Int := (BitVec.ofInt 32 a ||| BitVec.ofInt 32 b).toInt

/-! ## Digits -/

@[simp] theorem length_padded (width n : Nat) : (padded width n).length = width := by
  induction width generalizing n with
  | zero => rfl
  | succ width ih => simp [padded, ih]

theorem isDigit_digitUnit {digit : Nat} (small : digit < 10) : isDigit (digitUnit digit) = true := by
  have value : (digitUnit digit).val = 0x30 + digit := Nat.mod_eq_of_lt (by omega)
  simp only [isDigit, value, Bool.and_eq_true, decide_eq_true_eq]
  omega

theorem isDigit_padded {width n : Nat} {unit : CodeUnit} (member : unit ∈ padded width n) : isDigit unit = true := by
  induction width generalizing n with
  | zero => cases member
  | succ width ih =>
    rcases List.mem_append.mp member with before | last
    · exact ih before
    · rw [List.mem_singleton.mp last]
      apply isDigit_digitUnit
      omega

theorem padded_zero (width : Nat) : padded width 0 = List.replicate width (digitUnit 0) := by
  induction width with
  | zero => rfl
  | succ width ih => rw [padded, Nat.zero_div, Nat.zero_mod, ih, List.replicate_succ']

/-- The first digits and the last. -/
theorem padded_add (first last n : Nat) : padded (first + last) n = padded first (n / 10 ^ last) ++ padded last n := by
  induction last generalizing n with
  | zero => simp [padded]
  | succ last ih =>
    rw [← Nat.add_assoc, padded, ih, padded, List.append_assoc, Nat.div_div_eq_div_mul, Nat.pow_succ']

/-- Only the last digits matter. -/
theorem padded_mod (width n : Nat) : padded width (n % 10 ^ width) = padded width n := by
  induction width generalizing n with
  | zero => rfl
  | succ width ih =>
    have before : n % 10 ^ (width + 1) / 10 = n / 10 % 10 ^ width := by
      rw [Nat.pow_succ', Nat.mod_mul_right_div_self]
    have last : n % 10 ^ (width + 1) % 10 = n % 10 := by
      rw [Nat.pow_succ', Nat.mod_mul_right_mod]
    rw [padded, padded, before, last, ih]

private theorem unitsOfChar_digitChar {digit : Nat} (small : digit < 10) :
    unitsOfChar (Nat.digitChar digit) = [digitUnit digit] := by
  have each : ∀ digit < 10, unitsOfChar (Nat.digitChar digit) = [digitUnit digit] := by decide
  exact each digit small

theorem digits_small {n : Nat} (small : n < 10) : digits n = [digitUnit n] := by
  rw [digits, Nat.toDigits_of_lt_base small, ofScalars, List.flatMap_singleton, unitsOfChar_digitChar small]

theorem digits_large {n : Nat} (large : 10 ≤ n) : digits n = digits (n / 10) ++ [digitUnit (n % 10)] := by
  have last : n % 10 < 10 := Nat.mod_lt n (by omega)
  rw [digits, Nat.toDigits_of_base_le (by omega) large, ofScalars_append, digits, ofScalars, ofScalars,
    List.flatMap_singleton, unitsOfChar_digitChar last]

/-- Leading zeros fill a numeral up. -/
theorem padStart_digits {width n : Nat} (fits : n < 10 ^ (width + 1)) :
    padStart (width + 1) (digitUnit 0) (digits n) = padded (width + 1) n := by
  induction width generalizing n with
  | zero =>
    have small : n < 10 := by simpa using fits
    rw [digits_small small, padded, padded, Nat.mod_eq_of_lt small]
    rfl
  | succ width ih =>
    by_cases small : n < 10
    · rw [digits_small small, padded, Nat.div_eq_of_lt small, padded_zero, Nat.mod_eq_of_lt small]
      rfl
    · have fewer : n / 10 < 10 ^ (width + 1) := by
        rw [Nat.pow_succ] at fits
        omega
      rw [digits_large (by omega), padded, ← ih fewer, padStart, padStart, List.length_append, List.length_singleton,
        Nat.add_sub_add_right, List.append_assoc]

theorem digitsValue_padded (width n : Nat) : digitsValue (padded width n) = n % 10 ^ width := by
  induction width generalizing n with
  | zero => simp [padded, digitsValue, Nat.mod_one]
  | succ width ih =>
    have unit : (digitUnit (n % 10)).val = 0x30 + n % 10 := Nat.mod_eq_of_lt (by omega)
    have before := ih (n / 10)
    rw [digitsValue] at before
    rw [padded, digitsValue, List.foldl_append, before, List.foldl_cons, List.foldl_nil, unit, Nat.add_sub_cancel_left,
      Nat.pow_succ', Nat.mod_mul, Nat.add_comm]

/-- A numeral is read as the number it was written for. -/
theorem digitsValue_digits (n : Nat) : digitsValue (digits n) = n := by
  induction n using Nat.strongRecOn with
  | _ n ih =>
    have unit : (digitUnit (n % 10)).val = 0x30 + n % 10 := Nat.mod_eq_of_lt (by omega)
    by_cases small : n < 10
    · rw [Nat.mod_eq_of_lt small] at unit
      rw [digits_small small, digitsValue, List.foldl_cons, List.foldl_nil, unit]
      omega
    · have before := ih (n / 10) (by omega)
      rw [digitsValue] at before
      rw [digits_large (by omega), digitsValue, List.foldl_append, before, List.foldl_cons, List.foldl_nil, unit]
      omega

private theorem isWhiteSpace_digit {unit : CodeUnit} (digit : isDigit unit = true) : isWhiteSpace unit.val = false := by
  simp only [isDigit, Bool.and_eq_true, decide_eq_true_eq] at digit
  simp only [isWhiteSpace, List.mem_cons, List.not_mem_nil, or_false, Bool.or_eq_false_iff, decide_eq_false_iff_not,
    Bool.and_eq_false_iff]
  omega

/-- A row of digits is read as its value. -/
theorem number_padded (width n : Nat) : number (padded (width + 1) n) = some ((n % 10 ^ (width + 1) : Nat) : Int) := by
  have trimmed : trim (padded (width + 1) n) = padded (width + 1) n := by
    apply trim_of_trimmed
    constructor
    · intro unit first
      exact isWhiteSpace_digit (isDigit_padded (List.mem_of_mem_head? first))
    · intro unit last
      exact isWhiteSpace_digit (isDigit_padded (List.mem_of_getLast? last))
  have all : (padded (width + 1) n).all isDigit = true := List.all_eq_true.mpr fun unit member => isDigit_padded member
  have value := digitsValue_padded (width + 1) n
  rw [number, trimmed]
  cases numeral : padded (width + 1) n with
  | nil => simpa [numeral] using length_padded (width + 1) n
  | cons first rest =>
    rw [numeral] at all value
    simp only [all, if_true, value]

end Js
