import Mathlib.Algebra.GroupWithZero.Nat
import Mathlib.Algebra.Group.Nat.Defs
import Mathlib.Data.List.Lex
import Mathlib.Data.Fin.Basic
import Mathlib.Order.Fin.Basic

/-! Strings as JavaScript has them: sequences of UTF-16 code units, which need
not be well formed. The order of strings is the order of their code units, and
encoding to UTF-8 replaces every lone surrogate. -/
namespace Js

/-- One UTF-16 code unit. -/
abbrev CodeUnit := Fin 0x10000

instance codeUnitCount : NeZero 0x10000 := Nat.instNeZeroSucc

/-- A JavaScript string. Comparison with `<` is by code unit. -/
abbrev JsString := List CodeUnit

instance lawfulText : LawfulBEq JsString := inferInstance

def isHighSurrogate (unit : CodeUnit) : Bool := 0xD800 ≤ unit.val && unit.val ≤ 0xDBFF

def isLowSurrogate (unit : CodeUnit) : Bool := 0xDC00 ≤ unit.val && unit.val ≤ 0xDFFF

/-- The one or two code units that spell a Unicode scalar value. -/
def unitsOfChar (c : Char) : List CodeUnit :=
  if c.toNat < 0x10000 then [Fin.ofNat _ c.toNat]
  else [Fin.ofNat _ (0xD800 + (c.toNat - 0x10000) / 0x400),
    Fin.ofNat _ (0xDC00 + (c.toNat - 0x10000) % 0x400)]

def ofScalars (scalars : List Char) : JsString := scalars.flatMap unitsOfChar

/-- A string literal. -/
def js (text : String) : JsString := ofScalars text.toList

/-- A code unit read on its own: a surrogate has no meaning without its other
half and is replaced. -/
def loneScalar (unit : CodeUnit) : Char :=
  if isHighSurrogate unit || isLowSurrogate unit then Char.ofNat 0xFFFD else Char.ofNat unit.val

def pairScalar (high low : CodeUnit) : Char :=
  Char.ofNat (0x10000 + (high.val - 0xD800) * 0x400 + (low.val - 0xDC00))

/-- The scalar values a string spells, reading surrogate pairs left to right. -/
def toScalars : JsString → List Char
  | [] => []
  | [unit] => [loneScalar unit]
  | first :: second :: rest =>
    if isHighSurrogate first && isLowSurrogate second then pairScalar first second :: toScalars rest
    else loneScalar first :: toScalars (second :: rest)

/-- `String.prototype.isWellFormed`: no surrogate without its other half. -/
def IsWellFormed (s : JsString) : Prop := ofScalars (toScalars s) = s

instance (s : JsString) : Decidable (IsWellFormed s) :=
  inferInstanceAs (Decidable (ofScalars (toScalars s) = s))

/-- `Buffer.from(s, 'utf8')`. -/
def utf8 (s : JsString) : List UInt8 := (toScalars s).flatMap String.utf8EncodeChar

private theorem char_ranges (c : Char) :
    c.toNat < 0xD800 ∨ (0xDFFF < c.toNat ∧ c.toNat < 0x110000) := by
  have valid := c.valid
  simp only [UInt32.isValidChar, Nat.isValidChar] at valid
  exact valid

private theorem char_ofNat_toNat (c : Char) : Char.ofNat c.toNat = c := Char.ofNat_toNat c

/-- A character below the supplementary planes is one unit, and never a
surrogate. -/
private theorem units_basic {c : Char} (basic : c.toNat < 0x10000) :
    ∃ unit, unitsOfChar c = [unit] ∧ isHighSurrogate unit = false ∧ loneScalar unit = c := by
  have value : (Fin.ofNat 0x10000 c.toNat).val = c.toNat := Nat.mod_eq_of_lt basic
  have range := char_ranges c
  have notHigh : isHighSurrogate (Fin.ofNat 0x10000 c.toNat) = false := by
    simp only [isHighSurrogate, value, Bool.and_eq_false_iff, decide_eq_false_iff_not]
    omega
  have notLow : isLowSurrogate (Fin.ofNat 0x10000 c.toNat) = false := by
    simp only [isLowSurrogate, value, Bool.and_eq_false_iff, decide_eq_false_iff_not]
    omega
  refine ⟨Fin.ofNat _ c.toNat, by simp only [unitsOfChar, basic, ↓reduceIte], notHigh, ?_⟩
  simp only [loneScalar, notHigh, notLow, Bool.or_self, Bool.false_eq_true, ↓reduceIte, value,
    char_ofNat_toNat]

/-- A supplementary character is a surrogate pair that reads back as itself. -/
private theorem units_supplementary {c : Char} (high : ¬ c.toNat < 0x10000) :
    ∃ first second, unitsOfChar c = [first, second] ∧
      (isHighSurrogate first && isLowSurrogate second) = true ∧ pairScalar first second = c := by
  have range := char_ranges c
  have firstValue : (Fin.ofNat 0x10000 (0xD800 + (c.toNat - 0x10000) / 0x400)).val =
      0xD800 + (c.toNat - 0x10000) / 0x400 := Nat.mod_eq_of_lt (by omega)
  have secondValue : (Fin.ofNat 0x10000 (0xDC00 + (c.toNat - 0x10000) % 0x400)).val =
      0xDC00 + (c.toNat - 0x10000) % 0x400 := Nat.mod_eq_of_lt (by omega)
  refine ⟨_, _, if_neg high, ?_, ?_⟩
  · simp only [isHighSurrogate, isLowSurrogate, firstValue, secondValue, Bool.and_eq_true,
      decide_eq_true_eq]
    omega
  · have sum : 0x10000 + (0xD800 + (c.toNat - 0x10000) / 0x400 - 0xD800) * 0x400 +
        (0xDC00 + (c.toNat - 0x10000) % 0x400 - 0xDC00) = c.toNat := by omega
    simp only [pairScalar, firstValue, secondValue, sum, char_ofNat_toNat]

/-- Spelling scalar values and reading them back loses nothing. -/
theorem toScalars_ofScalars (scalars : List Char) : toScalars (ofScalars scalars) = scalars := by
  induction scalars with
  | nil => rfl
  | cons c rest ih =>
    change toScalars (unitsOfChar c ++ ofScalars rest) = c :: rest
    by_cases basic : c.toNat < 0x10000
    · obtain ⟨unit, spelled, notHigh, reads⟩ := units_basic basic
      rw [spelled, List.singleton_append]
      cases units : ofScalars rest with
      | nil =>
        rw [units] at ih
        simp only [toScalars, reads, ← ih]
      | cons next later =>
        rw [units] at ih
        simp only [toScalars, notHigh, Bool.false_and, Bool.false_eq_true, ↓reduceIte, reads, ih]
    · obtain ⟨first, second, spelled, paired, reads⟩ := units_supplementary basic
      rw [spelled, List.cons_append, List.singleton_append]
      simp only [toScalars, paired, ↓reduceIte, reads, ih]

theorem ofScalars_injective : Function.Injective ofScalars :=
  Function.LeftInverse.injective toScalars_ofScalars

theorem ofScalars_wellFormed (scalars : List Char) : IsWellFormed (ofScalars scalars) := by
  rw [IsWellFormed, toScalars_ofScalars]

theorem js_wellFormed (text : String) : IsWellFormed (js text) := ofScalars_wellFormed _

theorem ofScalars_append (first second : List Char) :
    ofScalars (first ++ second) = ofScalars first ++ ofScalars second := List.flatMap_append

theorem IsWellFormed.append {s t : JsString} (left : IsWellFormed s) (right : IsWellFormed t) :
    IsWellFormed (s ++ t) := by
  rw [← left, ← right, ← ofScalars_append]
  exact ofScalars_wellFormed _

private theorem toNat_ofNat {n : Nat} (scalar : n.isValidChar) : (Char.ofNat n).toNat = n := by
  rw [Char.ofNat, dif_pos scalar]
  rfl

/-- A unit that is no surrogate is well formed on its own. -/
theorem wellFormed_unit {unit : CodeUnit} (notHigh : isHighSurrogate unit = false)
    (notLow : isLowSurrogate unit = false) : IsWellFormed [unit] := by
  have bound := unit.isLt
  have scalar : Nat.isValidChar unit.val := by
    simp only [isHighSurrogate, isLowSurrogate, Bool.and_eq_false_iff, decide_eq_false_iff_not] at notHigh notLow
    simp only [Nat.isValidChar]
    omega
  have value : (Char.ofNat unit.val).toNat = unit.val := toNat_ofNat scalar
  simp only [IsWellFormed, toScalars, loneScalar, notHigh, notLow, Bool.or_self, Bool.false_eq_true,
    ↓reduceIte, ofScalars, List.flatMap_cons, List.flatMap_nil, List.append_nil, unitsOfChar, value, bound]
  simp

/-- A surrogate pair is well formed. -/
theorem wellFormed_pair {first second : CodeUnit}
    (paired : (isHighSurrogate first && isLowSurrogate second) = true) : IsWellFormed [first, second] := by
  have ranges := paired
  simp only [isHighSurrogate, isLowSurrogate, Bool.and_eq_true, decide_eq_true_eq] at ranges
  have scalar : Nat.isValidChar (0x10000 + (first.val - 0xD800) * 0x400 + (second.val - 0xDC00)) := by
    simp only [Nat.isValidChar]
    omega
  have value : (pairScalar first second).toNat =
      0x10000 + (first.val - 0xD800) * 0x400 + (second.val - 0xDC00) :=
    toNat_ofNat scalar
  have high : 0xD800 + ((pairScalar first second).toNat - 0x10000) / 0x400 = first.val := by omega
  have low : 0xDC00 + ((pairScalar first second).toNat - 0x10000) % 0x400 = second.val := by omega
  have supplementary : ¬ (pairScalar first second).toNat < 0x10000 := by omega
  simp only [IsWellFormed, toScalars, paired, ↓reduceIte, ofScalars, List.flatMap_cons, List.flatMap_nil,
    List.append_nil, unitsOfChar, supplementary, high, low]
  simp

private theorem utf8EncodeChars_injective {first second : List Char}
    (same : first.flatMap String.utf8EncodeChar = second.flatMap String.utf8EncodeChar) :
    first = second := by
  have bytes : first.utf8Encode = second.utf8Encode := by
    simp only [List.utf8Encode, same]
  exact String.ofList_inj.mp (String.toByteArray_inj.mp (by simpa [String.toByteArray_ofList] using bytes))

/-- The UTF-8 bytes of a well-formed string determine it. -/
theorem utf8_injective {s t : JsString} (left : IsWellFormed s) (right : IsWellFormed t)
    (same : utf8 s = utf8 t) : s = t := by
  rw [← left, ← right, utf8EncodeChars_injective same]

/-- `toLowerCase` on ASCII text. What it is used on is made of hexadecimal
digits and dashes, or compared with text that is. -/
def toLowerCase (s : JsString) : JsString :=
  s.map fun unit => if 0x41 ≤ unit.val && unit.val ≤ 0x5A then Fin.ofNat _ (unit.val + 0x20) else unit

/-! ## Decimal numerals -/

/-- The digits of a natural number, without leading zeros. -/
def digits (n : Nat) : JsString := ofScalars (Nat.toDigits 10 n)

/-- `String(n)` for an integer below `10 ^ 21`, above which JavaScript switches
to exponents. -/
def decimal (n : Int) : JsString :=
  if n < 0 then js "-" ++ digits n.natAbs else digits n.natAbs

def isDigit (unit : CodeUnit) : Bool := 0x30 ≤ unit.val && unit.val ≤ 0x39

theorem digits_injective : Function.Injective digits := by
  intro m n same
  have chars := ofScalars_injective same
  rw [← Nat.ofDigitChars_ten_toDigits (n := m), chars, Nat.ofDigitChars_ten_toDigits]

private theorem unitsOfChar_digit {c : Char} (digit : c.isDigit = true) :
    ∃ unit, unitsOfChar c = [unit] ∧ isDigit unit = true := by
  have bounds : 48 ≤ c.toNat ∧ c.toNat ≤ 57 := by
    simp only [Char.isDigit, Bool.and_eq_true, decide_eq_true_eq] at digit
    exact ⟨digit.1, digit.2⟩
  have value : (Fin.ofNat 0x10000 c.toNat).val = c.toNat := Nat.mod_eq_of_lt (by omega)
  refine ⟨Fin.ofNat _ c.toNat, ?_, ?_⟩
  · simp only [unitsOfChar, show c.toNat < 0x10000 by omega, ↓reduceIte]
  · simp only [isDigit, value, Bool.and_eq_true, decide_eq_true_eq]
    exact bounds

theorem digits_are_digits {n : Nat} {unit : CodeUnit} (member : unit ∈ digits n) :
    isDigit unit = true := by
  obtain ⟨c, inDigits, spelled⟩ := List.mem_flatMap.mp member
  have digit := Nat.isDigit_of_mem_toDigits (by decide) (by decide) inDigits
  obtain ⟨single, units, isDigit⟩ := unitsOfChar_digit digit
  rw [units, List.mem_singleton] at spelled
  exact spelled ▸ isDigit

theorem digits_ne_nil (n : Nat) : digits n ≠ [] := by
  intro empty
  have chars : Nat.toDigits 10 n = [] := ofScalars_injective empty
  exact Nat.toDigits_ne_nil chars

theorem decimal_wellFormed (n : Int) : IsWellFormed (decimal n) := by
  unfold decimal
  split
  · exact (js_wellFormed _).append (ofScalars_wellFormed _)
  · exact ofScalars_wellFormed _

/-! ## Splitting -/

/-- A piece between separators holds units of the text and no separator. -/
theorem mem_splitOn {separator : CodeUnit} {text piece : JsString} (member : piece ∈ text.splitOn separator) :
    separator ∉ piece ∧ ∀ unit ∈ piece, unit ∈ text := by
  induction text generalizing piece with
  | nil =>
    rw [List.splitOn_nil, List.mem_singleton] at member
    subst member
    simp
  | cons first rest ih =>
    rw [List.splitOn_cons_eq_if_modifyHead] at member
    obtain ⟨head, tail, split⟩ := List.exists_cons_of_ne_nil (List.splitOn_ne_nil separator rest)
    rw [split] at member
    by_cases ends : first = separator
    · rw [if_pos (by simpa using ends)] at member
      rcases List.mem_cons.mp member with rfl | later
      · simp
      · obtain ⟨clean, within⟩ := ih (split ▸ later)
        exact ⟨clean, fun unit there => List.mem_cons_of_mem _ (within unit there)⟩
    · rw [if_neg (by simpa using ends), List.modifyHead_cons] at member
      rcases List.mem_cons.mp member with rfl | later
      · have found : head ∈ rest.splitOn separator := split ▸ List.mem_cons_self
        obtain ⟨clean, within⟩ := ih found
        simp only [List.mem_cons, not_or, forall_eq_or_imp, true_or, true_and]
        exact ⟨⟨fun same => ends same.symm, clean⟩, fun unit there => .inr (within unit there)⟩
      · obtain ⟨clean, within⟩ := ih (split ▸ List.mem_cons_of_mem _ later)
        exact ⟨clean, fun unit there => List.mem_cons_of_mem _ (within unit there)⟩

end Js
