import RemoteSqlAgent.JsJson

/-! Bytes as hexadecimal text, and back. -/
namespace Js

/-- `Buffer.toString('hex')`. -/
def toHex (bytes : List UInt8) : JsString :=
  bytes.flatMap fun byte => [hexDigit (byte.toNat / 0x10), hexDigit (byte.toNat % 0x10)]

/-- `Buffer.from(text, 'hex')`, which stops at the first pair that is not one. -/
def fromHex : JsString → List UInt8
  | high :: low :: rest =>
    match hexValue high, hexValue low with
    | some first, some second => .ofNat (0x10 * first + second) :: fromHex rest
    | _, _ => []
  | _ => []

/-- Bytes are read back as they were written. -/
theorem fromHex_toHex (bytes : List UInt8) : fromHex (toHex bytes) = bytes := by
  induction bytes with
  | nil => rfl
  | cons byte rest ih =>
    have bound : byte.toNat < 256 := byte.toNat_lt
    have first := hexValue_hexDigit (n := byte.toNat / 0x10) (by omega)
    have second := hexValue_hexDigit (n := byte.toNat % 0x10) (by omega)
    have whole : UInt8.ofNat (0x10 * (byte.toNat / 0x10) + byte.toNat % 0x10) = byte := by
      rw [Nat.div_add_mod, UInt8.ofNat_toNat]
    rw [toHex, List.flatMap_cons, List.cons_append, List.cons_append, List.nil_append, fromHex, first, second]
    dsimp only
    rw [whole]
    exact congrArg (byte :: ·) ih

end Js
