import RemoteSqlAgent.JsCase

/-! Base64. Three bytes are four letters of six bits each, and a last group that is shorter is
padded. The browser reads it strictly, apart from white space; Node takes the letters it finds
and leaves out the rest. -/
namespace Js

/-- The letter for six bits. -/
def base64Letter (bits : Nat) : CodeUnit :=
  Fin.ofNat _ (if bits < 26 then 0x41 + bits else if bits < 52 then 0x61 + (bits - 26)
    else if bits < 62 then 0x30 + (bits - 52) else if bits = 62 then 0x2B else 0x2F)

/-- The bits of a letter. -/
def base64Bits (unit : CodeUnit) : Option Nat :=
  let value := unit.val
  if 0x41 ≤ value ∧ value ≤ 0x5A then some (value - 0x41)
  else if 0x61 ≤ value ∧ value ≤ 0x7A then some (value - 0x61 + 26)
  else if 0x30 ≤ value ∧ value ≤ 0x39 then some (value - 0x30 + 52)
  else if value = 0x2B then some 62
  else if value = 0x2F then some 63
  else none

/-- The bits of a letter of either alphabet, the one for URLs included. -/
def base64AnyBits (unit : CodeUnit) : Option Nat :=
  if unit.val = 0x2D then some 62 else if unit.val = 0x5F then some 63 else base64Bits unit

def base64Pad : CodeUnit := 0x3D

/-- The groups of six bits of some bytes; the last is filled up with zeros. -/
def sextets : List UInt8 → List Nat
  | [] => []
  | [a] => [a.toNat / 4, a.toNat % 4 * 16]
  | [a, b] => [a.toNat / 4, a.toNat % 4 * 16 + b.toNat / 16, b.toNat % 16 * 4]
  | a :: b :: c :: rest =>
    a.toNat / 4 :: (a.toNat % 4 * 16 + b.toNat / 16) :: (b.toNat % 16 * 4 + c.toNat / 64) :: c.toNat % 64 :: sextets rest

/-- The bytes of some groups of six bits; bits that fill no byte are dropped. -/
def ofSextets : List Nat → List UInt8
  | a :: b :: c :: d :: rest =>
    .ofNat (a * 4 + b / 16) :: .ofNat (b % 16 * 16 + c / 4) :: .ofNat (c % 4 * 64 + d) :: ofSextets rest
  | [a, b, c] => [.ofNat (a * 4 + b / 16), .ofNat (b % 16 * 16 + c / 4)]
  | [a, b] => [.ofNat (a * 4 + b / 16)]
  | _ => []

/-- `btoa`, of a string that has a unit for each byte. -/
def btoa (bytes : List UInt8) : JsString :=
  (sextets bytes).map base64Letter ++ List.replicate ((3 - bytes.length % 3) % 3) base64Pad

/-- The white space that `atob` passes over. -/
def isAsciiSpace (unit : CodeUnit) : Bool :=
  unit.val = 0x09 || unit.val = 0x0A || unit.val = 0x0C || unit.val = 0x0D || unit.val = 0x20

/-- Up to two pads at the end of a text that they make a multiple of four. -/
def withoutPads (text : JsString) : JsString :=
  if text.length % 4 = 0 then
    if [base64Pad, base64Pad] <:+ text then text.dropLast.dropLast
    else if [base64Pad] <:+ text then text.dropLast
    else text
  else text

/-- `atob`, unless it throws. -/
def atob (text : JsString) : Option (List UInt8) :=
  let text := withoutPads (text.filter fun unit => !isAsciiSpace unit)
  if text.length % 4 = 1 then none else (text.mapM base64Bits).map ofSextets

/-- `Buffer.from(text, 'base64')`. -/
def bufferFromBase64 (text : JsString) : List UInt8 := ofSextets (text.filterMap base64AnyBits)

/-! ## Round trips -/

theorem ofSextets_sextets (bytes : List UInt8) : ofSextets (sextets bytes) = bytes := by
  induction bytes using sextets.induct with
  | case1 => rfl
  | case2 a =>
    have bound := a.toNat_lt
    simp only [sextets, ofSextets]
    rw [show a.toNat / 4 * 4 + a.toNat % 4 * 16 / 16 = a.toNat by omega, UInt8.ofNat_toNat]
  | case3 a b =>
    have bound := a.toNat_lt
    have bound' := b.toNat_lt
    simp only [sextets, ofSextets]
    rw [show a.toNat / 4 * 4 + (a.toNat % 4 * 16 + b.toNat / 16) / 16 = a.toNat by omega,
      show (a.toNat % 4 * 16 + b.toNat / 16) % 16 * 16 + b.toNat % 16 * 4 / 4 = b.toNat by omega,
      UInt8.ofNat_toNat, UInt8.ofNat_toNat]
  | case4 a b c rest ih =>
    have bound := a.toNat_lt
    have bound' := b.toNat_lt
    have bound'' := c.toNat_lt
    simp only [sextets, ofSextets, ih]
    rw [show a.toNat / 4 * 4 + (a.toNat % 4 * 16 + b.toNat / 16) / 16 = a.toNat by omega,
      show (a.toNat % 4 * 16 + b.toNat / 16) % 16 * 16 + (b.toNat % 16 * 4 + c.toNat / 64) / 4 = b.toNat by omega,
      show (b.toNat % 16 * 4 + c.toNat / 64) % 4 * 64 + c.toNat % 64 = c.toNat by omega,
      UInt8.ofNat_toNat, UInt8.ofNat_toNat, UInt8.ofNat_toNat]

theorem sextets_lt (bytes : List UInt8) : ∀ bits ∈ sextets bytes, bits < 64 := by
  induction bytes using sextets.induct with
  | case1 => simp [sextets]
  | case2 a =>
    have bound := a.toNat_lt
    simp only [sextets, List.mem_cons, List.not_mem_nil, or_false, forall_eq_or_imp, forall_eq]
    omega
  | case3 a b =>
    have bound := a.toNat_lt
    have bound' := b.toNat_lt
    simp only [sextets, List.mem_cons, List.not_mem_nil, or_false, forall_eq_or_imp, forall_eq]
    omega
  | case4 a b c rest ih =>
    have bound := a.toNat_lt
    have bound' := b.toNat_lt
    have bound'' := c.toNat_lt
    simp only [sextets, List.mem_cons, forall_eq_or_imp]
    exact ⟨by omega, by omega, by omega, by omega, ih⟩

/-- With its pads, a text has a multiple of four units. -/
theorem length_sextets (bytes : List UInt8) :
    (sextets bytes).length + (3 - bytes.length % 3) % 3 = (bytes.length + 2) / 3 * 4 := by
  induction bytes using sextets.induct with
  | case1 => rfl
  | case2 a => simp [sextets]
  | case3 a b => simp [sextets]
  | case4 a b c rest ih =>
    simp only [sextets, List.length_cons]
    omega

private theorem val_letter {bits : Nat} (small : bits < 64) : (base64Letter bits).val =
    if bits < 26 then 0x41 + bits else if bits < 52 then 0x61 + (bits - 26)
      else if bits < 62 then 0x30 + (bits - 52) else if bits = 62 then 0x2B else 0x2F := by
  rw [base64Letter, Fin.val_ofNat, Nat.mod_eq_of_lt]
  repeat' split
  all_goals omega

theorem base64Bits_letter {bits : Nat} (small : bits < 64) : base64Bits (base64Letter bits) = some bits := by
  have value := val_letter small
  simp only [base64Bits]
  generalize (base64Letter bits).val = unit at value
  split at value
  · rw [if_pos (by omega), show unit - 0x41 = bits by omega]
  split at value
  · rw [if_neg (by omega), if_pos (by omega), show unit - 0x61 + 26 = bits by omega]
  split at value
  · rw [if_neg (by omega), if_neg (by omega), if_pos (by omega), show unit - 0x30 + 52 = bits by omega]
  split at value
  · rw [if_neg (by omega), if_neg (by omega), if_neg (by omega), if_pos value, show 62 = bits by omega]
  · rw [if_neg (by omega), if_neg (by omega), if_neg (by omega), if_neg (by omega), if_pos value,
      show 63 = bits by omega]

/-- A letter is none of the units that are read apart. -/
theorem letter_apart {bits : Nat} (small : bits < 64) : (base64Letter bits).val ≠ 0x2D ∧
    (base64Letter bits).val ≠ 0x5F ∧ base64Letter bits ≠ base64Pad ∧ isAsciiSpace (base64Letter bits) = false := by
  have value := val_letter small
  have visible : (base64Letter bits).val ≠ 0x2D ∧ (base64Letter bits).val ≠ 0x5F ∧ (base64Letter bits).val ≠ 0x3D ∧
      0x20 < (base64Letter bits).val := by
    rw [value]
    repeat' split
    all_goals omega
  refine ⟨visible.1, visible.2.1, fun same => visible.2.2.1 (congrArg Fin.val same), ?_⟩
  simp only [isAsciiSpace, Bool.or_eq_false_iff, decide_eq_false_iff_not]
  omega

theorem base64AnyBits_letter {bits : Nat} (small : bits < 64) : base64AnyBits (base64Letter bits) = some bits := by
  have apart := letter_apart small
  rw [base64AnyBits, if_neg apart.1, if_neg apart.2.1, base64Bits_letter small]

theorem filterMap_letters {groups : List Nat} (small : ∀ bits ∈ groups, bits < 64) :
    (groups.map base64Letter).filterMap base64AnyBits = groups := by
  induction groups with
  | nil => rfl
  | cons bits rest ih =>
    obtain ⟨here, later⟩ := List.forall_mem_cons.mp small
    rw [List.map_cons, List.filterMap_cons_some (base64AnyBits_letter here), ih later]

theorem mapM_letters {groups : List Nat} (small : ∀ bits ∈ groups, bits < 64) :
    (groups.map base64Letter).mapM base64Bits = some groups := by
  induction groups with
  | nil => rfl
  | cons bits rest ih =>
    obtain ⟨here, later⟩ := List.forall_mem_cons.mp small
    rw [List.map_cons, List.mapM_cons, base64Bits_letter here, ih later]
    rfl

/-- What the browser writes, Node reads. -/
theorem bufferFromBase64_btoa (bytes : List UInt8) : bufferFromBase64 (btoa bytes) = bytes := by
  have pads : (List.replicate ((3 - bytes.length % 3) % 3) base64Pad).filterMap base64AnyBits = [] :=
    List.filterMap_replicate_of_none (by rfl)
  rw [bufferFromBase64, btoa, List.filterMap_append, filterMap_letters (sextets_lt bytes), pads, List.append_nil,
    ofSextets_sextets]

theorem withoutPads_padded {letters : JsString} (clean : base64Pad ∉ letters) {count : Nat} (few : count ≤ 2)
    (whole : (letters.length + count) % 4 = 0) :
    withoutPads (letters ++ List.replicate count base64Pad) = letters := by
  have one : ¬ [base64Pad, base64Pad] <:+ letters ++ [base64Pad] := by
    intro ends
    obtain empty | ⟨rest, same, ends⟩ := List.suffix_concat_iff.mp ends
    · cases empty
    · obtain ⟨rfl, -⟩ := List.append_inj' (show [base64Pad] ++ [base64Pad] = rest ++ [base64Pad] from same) rfl
      exact clean (ends.subset (List.mem_singleton_self _))
  rw [withoutPads, if_pos (by rw [List.length_append, List.length_replicate, whole])]
  obtain rfl | rfl | rfl : count = 0 ∨ count = 1 ∨ count = 2 := by omega
  · rw [List.replicate_zero, List.append_nil, if_neg fun ends => clean (ends.subset List.mem_cons_self),
      if_neg fun ends => clean (ends.subset List.mem_cons_self)]
  · rw [List.replicate_one, if_neg one, if_pos (List.suffix_append ..), List.dropLast_concat]
  · rw [List.replicate_succ, List.replicate_one, if_pos (List.suffix_append ..),
      show letters ++ [base64Pad, base64Pad] = letters ++ [base64Pad] ++ [base64Pad] by simp, List.dropLast_concat,
      List.dropLast_concat]

/-- What the browser writes, it reads, however it is broken into lines. -/
theorem atob_btoa {bytes : List UInt8} {text : JsString}
    (broken : (text.filter fun unit => !isAsciiSpace unit) = btoa bytes) : atob text = some bytes := by
  have small := sextets_lt bytes
  have clean : base64Pad ∉ (sextets bytes).map base64Letter := by
    intro member
    obtain ⟨bits, inside, same⟩ := List.mem_map.mp member
    exact (letter_apart (small bits inside)).2.2.1 same
  have whole := length_sextets bytes
  have few : (sextets bytes).length % 4 ≠ 1 := by omega
  rw [atob, broken, btoa, withoutPads_padded clean (by omega) (by rw [List.length_map]; omega), List.length_map,
    if_neg few, mapM_letters small, Option.map_some, ofSextets_sextets]

/-- What is written is neither white space nor a dash. -/
theorem mem_btoa {bytes : List UInt8} {unit : CodeUnit} (member : unit ∈ btoa bytes) :
    isAsciiSpace unit = false ∧ unit.val ≠ 0x2D := by
  rcases List.mem_append.mp member with letter | pad
  · obtain ⟨bits, inside, rfl⟩ := List.mem_map.mp letter
    have apart := letter_apart (sextets_lt bytes bits inside)
    exact ⟨apart.2.2.2, apart.1⟩
  · rw [List.eq_of_mem_replicate pad]
    exact ⟨rfl, by decide⟩

example : atob (js "Zm9v\nYmE=\n") = some [0x66, 0x6F, 0x6F, 0x62, 0x61] := by decide

end Js
