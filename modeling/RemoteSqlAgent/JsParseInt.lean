import RemoteSqlAgent.JsDigits

/-! `Number.parseInt`, and the doubles that whole numbers come out as. -/
namespace Js

/-- The double next to a whole number, the even one of two. Past 1024 bits there is none. -/
def nearestDouble (n : Nat) : Option Nat :=
  -- a double keeps 53 bits, and these are what is left over
  let spare := n.log2 - 52
  let kept := n / 2 ^ spare
  let lost := n % 2 ^ spare
  let rounded := if 2 * lost < 2 ^ spare ∨ 2 * lost = 2 ^ spare ∧ kept % 2 = 0 then kept else kept + 1
  if (rounded * 2 ^ spare).log2 < 1024 then some (rounded * 2 ^ spare) else none

theorem nearestDouble_of_lt {n : Nat} (exact : n < 2 ^ 53) : nearestDouble n = some n := by
  have bits : n.log2 < 53 := by
    rcases Nat.eq_zero_or_pos n with rfl | positive
    · decide
    · exact (Nat.log2_lt (by omega)).mpr exact
  have spare : n.log2 - 52 = 0 := by omega
  have finite : n.log2 < 1024 := by omega
  simp [nearestDouble, spare, Nat.mod_one, finite]

/-- A number that is read from the front of a text. -/
inductive Numeral where
  | nan
  | infinite (negative : Bool)
  | finite (value : Int)
deriving DecidableEq

def minusSign : CodeUnit := 0x2D

def plusSign : CodeUnit := 0x2B

def signedNumeral (negative : Bool) (numeral : JsString) : Numeral :=
  if numeral = [] then .nan
  else
    match nearestDouble (digitsValue numeral) with
    | some value => .finite (if negative then -value else value)
    | none => .infinite negative

/-- `Number.parseInt(text, 10)`. What follows the digits is not read. -/
def parseInt (text : JsString) : Numeral :=
  let trimmed := text.dropWhile fun unit => isWhiteSpace unit.val
  let negative := trimmed.head? == some minusSign
  let unsigned := if negative || trimmed.head? == some plusSign then trimmed.tail else trimmed
  signedNumeral negative (unsigned.takeWhile isDigit)

/-- `Number.isFinite(n) ? n : 0` -/
def Numeral.finiteOrZero : Numeral → Int
  | .finite value => value
  | .nan | .infinite _ => 0

theorem signedNumeral_nonneg (numeral : JsString) : 0 ≤ (signedNumeral false numeral).finiteOrZero := by
  unfold signedNumeral
  split
  · exact Int.le_refl 0
  · cases nearestDouble (digitsValue numeral) with
    | none => exact Int.le_refl 0
    | some value => exact Int.natCast_nonneg value

/-- Without a minus sign in the text nothing below zero is read. -/
theorem parseInt_nonneg {text : JsString} (unsigned : minusSign ∉ text) : 0 ≤ (parseInt text).finiteOrZero := by
  have positive : ((text.dropWhile fun unit => isWhiteSpace unit.val).head? == some minusSign) = false := by
    rw [beq_eq_false_iff_ne]
    intro first
    exact unsigned ((List.dropWhile_suffix _).mem (List.mem_of_mem_head? first))
  rw [parseInt, positive]
  exact signedNumeral_nonneg _

/-- A digit is read as one at the front of a text. -/
theorem digit_leads {unit : CodeUnit} (digit : isDigit unit = true) :
    isWhiteSpace unit.val = false ∧ unit ≠ minusSign ∧ unit ≠ plusSign := by
  simp only [isDigit, Bool.and_eq_true, decide_eq_true_eq] at digit
  refine ⟨?_, ?_, ?_⟩
  · simp [isWhiteSpace]
    omega
  · rintro rfl
    exact absurd digit (by decide)
  · rintro rfl
    exact absurd digit (by decide)

/-- What is written without leading zeros is read back. -/
theorem parseInt_digits {n : Nat} (exact : n < 2 ^ 53) : parseInt (digits n) = .finite n := by
  obtain ⟨unit, rest, spelled⟩ := List.exists_cons_of_ne_nil (digits_ne_nil n)
  have leads := digit_leads (digits_are_digits (n := n) (by rw [spelled]; exact List.mem_cons_self))
  have trimmed : ((digits n).dropWhile fun unit => isWhiteSpace unit.val) = digits n := by
    rw [spelled]
    exact List.dropWhile_cons_of_neg (by simp [leads.1])
  have whole : (digits n).takeWhile isDigit = digits n :=
    List.takeWhile_eq_self_iff.mpr fun unit member => digits_are_digits member
  have unsigned : ((digits n).head? == some minusSign) = false ∧ ((digits n).head? == some plusSign) = false := by
    rw [spelled]
    simp [leads.2.1, leads.2.2]
  simp only [parseInt, trimmed, unsigned.1, unsigned.2, Bool.or_self, Bool.false_eq_true, if_false, whole]
  simp [signedNumeral, digits_ne_nil, digitsValue_digits, nearestDouble_of_lt exact]

end Js
