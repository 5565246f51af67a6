import RemoteSqlAgent.JsText

/-! Reading UTF-8. The decoder goes byte by byte and never fails: what cannot be part of a
character is replaced, and reading goes on with the byte that did not fit. -/
namespace Js

def replacement : Char := Char.ofNat 0xFFFD

/-- A character that has begun: its bits so far, how many bytes it takes after the next one,
and between which the next one lies. -/
structure Begun where
  bits : Nat
  more : Nat
  lower : Nat
  upper : Nat

/-- A byte between characters. -/
def lead (byte : UInt8) : List Char × Option Begun :=
  let value := byte.toNat
  if value < 0x80 then ([Char.ofNat value], none)
  else if value < 0xC2 then ([replacement], none)
  else if value < 0xE0 then ([], some ⟨value - 0xC0, 0, 0x80, 0xBF⟩)
  else if value < 0xF0 then
    ([], some ⟨value - 0xE0, 1, if value = 0xE0 then 0xA0 else 0x80, if value = 0xED then 0x9F else 0xBF⟩)
  else if value < 0xF5 then
    ([], some ⟨value - 0xF0, 2, if value = 0xF0 then 0x90 else 0x80, if value = 0xF4 then 0x8F else 0xBF⟩)
  else ([replacement], none)

/-- The next byte of a character. -/
def Begun.continue (begun : Begun) (byte : UInt8) : List Char × Option Begun :=
  if begun.lower ≤ byte.toNat ∧ byte.toNat ≤ begun.upper then
    let bits := begun.bits * 64 + (byte.toNat - 0x80)
    match begun.more with
    | 0 => ([Char.ofNat bits], none)
    | more + 1 => ([], some ⟨bits, more, 0x80, 0xBF⟩)
  else
    -- The byte does not belong to it, and may begin another.
    let (read, next) := lead byte
    (replacement :: read, next)

def scalarsFrom : Option Begun → List UInt8 → List Char
  | none, [] => []
  | some _, [] => [replacement]
  | none, byte :: rest => (lead byte).1 ++ scalarsFrom (lead byte).2 rest
  | some begun, byte :: rest => (begun.continue byte).1 ++ scalarsFrom (begun.continue byte).2 rest

/-- `buffer.toString('utf8')`. -/
def textOfUtf8 (bytes : List UInt8) : JsString := ofScalars (scalarsFrom none bytes)

/-! ## Round trip -/

private theorem toNat_ofNat_byte {n : Nat} (small : n < 256) : (UInt8.ofNat n).toNat = n := by
  simp [Nat.mod_eq_of_lt small]

private theorem continue_last (bits lower upper low : Nat) (low_lt : low < 64) (above : lower ≤ 0x80 + low)
    (below : 0x80 + low ≤ upper) : (Begun.mk bits 0 lower upper).continue (UInt8.ofNat (low + 0x80)) =
      ([Char.ofNat (bits * 64 + low)], none) := by
  simp only [Begun.continue, toNat_ofNat_byte (show low + 0x80 < 256 by omega)]
  rw [if_pos (by omega), Nat.add_sub_cancel]

private theorem continue_more (bits more lower upper low : Nat) (low_lt : low < 64) (above : lower ≤ 0x80 + low)
    (below : 0x80 + low ≤ upper) : (Begun.mk bits (more + 1) lower upper).continue (UInt8.ofNat (low + 0x80)) =
      ([], some ⟨bits * 64 + low, more, 0x80, 0xBF⟩) := by
  simp only [Begun.continue, toNat_ofNat_byte (show low + 0x80 < 256 by omega)]
  rw [if_pos (by omega), Nat.add_sub_cancel]

/-- The bytes of a character are read as that character, whatever follows. -/
theorem scalarsFrom_char (c : Char) (rest : List UInt8) :
    scalarsFrom none (String.utf8EncodeChar c ++ rest) = c :: scalarsFrom none rest := by
  have isChar : Char.ofNat c.val.toNat = c := Char.ofNat_toNat c
  have valid : c.val.toNat < 0xD800 ∨ 0xDFFF < c.val.toNat ∧ c.val.toNat < 0x110000 := c.valid
  unfold String.utf8EncodeChar
  generalize c.val.toNat = value at isChar valid
  dsimp only
  split
  next one =>
    have first : lead (UInt8.ofNat value) = ([c], none) := by
      simp only [lead, toNat_ofNat_byte (show value < 256 by omega)]
      rw [if_pos (by omega), isChar]
    simp [scalarsFrom, first]
  split
  next _ two =>
    have first : lead (UInt8.ofNat (value / 64 % 0x20 + 0xC0)) = ([], some ⟨value / 64, 0, 0x80, 0xBF⟩) := by
      simp only [lead, toNat_ofNat_byte (show value / 64 % 0x20 + 0xC0 < 256 by omega)]
      rw [if_neg (by omega), if_neg (by omega), if_pos (by omega),
        show value / 64 % 0x20 + 0xC0 - 0xC0 = value / 64 by omega]
    have second := continue_last (value / 64) 0x80 0xBF (value % 64)
      (by omega) (by omega) (by omega)
    simp only [List.cons_append, List.nil_append, scalarsFrom, first, second]
    rw [show value / 64 * 64 + value % 64 = value by omega, isChar]
  split
  next _ _ three =>
    have first : lead (UInt8.ofNat (value / 4096 % 0x10 + 0xE0)) = ([], some ⟨value / 4096, 1,
        if value / 4096 = 0 then 0xA0 else 0x80, if value / 4096 = 0xD then 0x9F else 0xBF⟩) := by
      simp only [lead, toNat_ofNat_byte (show value / 4096 % 0x10 + 0xE0 < 256 by omega)]
      rw [if_neg (by omega), if_neg (by omega), if_neg (by omega), if_pos (by omega),
        show value / 4096 % 0x10 + 0xE0 = value / 4096 + 0xE0 by omega, Nat.add_sub_cancel]
      simp
    -- Neither an overlong form nor a surrogate.
    have second := continue_more (value / 4096) 0 (if value / 4096 = 0 then 0xA0 else 0x80)
      (if value / 4096 = 0xD then 0x9F else 0xBF) (value / 64 % 64)
      (by omega) (by split <;> omega) (by split <;> omega)
    have third := continue_last (value / 4096 * 64 + value / 64 % 64) 0x80 0xBF (value % 64)
      (by omega) (by omega) (by omega)
    simp only [List.cons_append, List.nil_append, scalarsFrom, first, second, third]
    rw [show (value / 4096 * 64 + value / 64 % 64) * 64 + value % 64 = value by omega, isChar]
  next _ _ four =>
    have first : lead (UInt8.ofNat (value / 262144 % 0x08 + 0xF0)) = ([], some ⟨value / 262144, 2,
        if value / 262144 = 0 then 0x90 else 0x80, if value / 262144 = 4 then 0x8F else 0xBF⟩) := by
      simp only [lead, toNat_ofNat_byte (show value / 262144 % 0x08 + 0xF0 < 256 by omega)]
      rw [if_neg (by omega), if_neg (by omega), if_neg (by omega), if_neg (by omega), if_pos (by omega),
        show value / 262144 % 0x08 + 0xF0 = value / 262144 + 0xF0 by omega, Nat.add_sub_cancel]
      simp
    -- Neither an overlong form nor beyond the last plane.
    have second := continue_more (value / 262144) 1 (if value / 262144 = 0 then 0x90 else 0x80)
      (if value / 262144 = 4 then 0x8F else 0xBF) (value / 4096 % 64)
      (by omega) (by split <;> omega) (by split <;> omega)
    have third := continue_more (value / 262144 * 64 + value / 4096 % 64) 0 0x80 0xBF
      (value / 64 % 64) (by omega) (by omega) (by omega)
    have fourth := continue_last ((value / 262144 * 64 + value / 4096 % 64) * 64 + value / 64 % 64) 0x80 0xBF
      (value % 64) (by omega) (by omega) (by omega)
    simp only [List.cons_append, List.nil_append, scalarsFrom, first, second, third, fourth]
    rw [show ((value / 262144 * 64 + value / 4096 % 64) * 64 + value / 64 % 64) * 64 + value % 64 = value by omega,
      isChar]

theorem scalarsFrom_utf8 (scalars : List Char) :
    scalarsFrom none (scalars.flatMap String.utf8EncodeChar) = scalars := by
  induction scalars with
  | nil => rfl
  | cons c rest ih => rw [List.flatMap_cons, scalarsFrom_char, ih]

/-- Well-formed text comes back from its bytes. -/
theorem textOfUtf8_utf8 {text : JsString} (wellFormed : IsWellFormed text) : textOfUtf8 (utf8 text) = text := by
  rw [textOfUtf8, utf8, scalarsFrom_utf8]
  exact wellFormed

/-- A byte that fits nowhere is replaced, and one that fits elsewhere is not lost. -/
example : textOfUtf8 [0x70, 0xC3, 0x71, 0xE2, 0x82, 0xAC, 0xFF] = js "p\uFFFDq\u20AC\uFFFD" := by decide

end Js
