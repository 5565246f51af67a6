import RemoteSqlAgent.Canonical
import RemoteSqlAgent.Commands

/-! Per-command signatures. The signed bytes encode the fields that decide what
a command does, each with its length before it, so that they determine those
fields: no boundary between two of them can be moved. -/
namespace RemoteSqlAgent
open Js

/-- What the signing code takes from `node:crypto`. -/
structure Crypto where
  /-- `createHash('sha256').update(bytes).digest('hex')`. -/
  sha256 : List UInt8 → String
  /-- The SPKI DER of a PEM public key, unless it does not parse. -/
  spkiDer : JsString → Option (List UInt8)
  /-- Whether the signature is one of the bytes under the key. A key or a
  signature that makes the verifier throw is one it does not accept. -/
  verifies : (publicKeyPem : JsString) → (bytes signature : List UInt8) → Bool

inductive SigningError where
  /-- `writeUInt32BE` was given a length that does not fit. -/
  | outOfRange (length : Nat)
  /-- The payload could not be serialised. -/
  | unsupported (message : JsString)
  deriving DecidableEq

/-- `writeUInt32BE`. -/
def uint32BE (n : Nat) : List UInt8 :=
  [.ofNat (n / 2 ^ 24), .ofNat (n / 2 ^ 16), .ofNat (n / 2 ^ 8), .ofNat n]

def lengthPrefixed : List JsString → Except SigningError (List UInt8)
  | [] => .ok []
  | part :: rest => do
    let bytes := utf8 part
    if 2 ^ 32 ≤ bytes.length then throw (.outOfRange bytes.length)
    let chunks ← lengthPrefixed rest
    return uint32BE bytes.length ++ bytes ++ chunks

/-- Discriminant of the command's payload oneof. -/
def commandKind (command : CommandObject) : JsString :=
  (command.payload.map (·.caseName)).getD (js "unknown")

section
variable (crypto : Crypto)

/-- A stable identifier for a signing key: the digest of its DER, so that the
wrapping of the PEM cannot change it. -/
def signingKeyFingerprint (publicKeyPem : JsString) : JsString :=
  if publicKeyPem = [] then []
  else
    match crypto.spkiDer publicKeyPem with
    | some der => js (crypto.sha256 der)
    | none => []

/-- Hash of the payload, over its canonical JSON. -/
def commandPayloadHash (command : CommandObject) : Except SigningError JsString :=
  match command.payload with
  | none => .ok (js (crypto.sha256 (utf8 [])))
  | some payload =>
    match canonicalJsonStringify payload.inner with
    | .error message => .error (.unsupported message)
    | .ok json => .ok (js (crypto.sha256 (utf8 (payload.caseName ++ js ":" ++ json))))

/-- `${seconds}.${nanos}`. -/
def issuedAtText (issuedAt : Option Timestamp) : JsString :=
  match issuedAt with
  | some at_ => decimal at_.seconds ++ js "." ++ decimal at_.nanos
  | none => js "0.0"

def commandSigningBytes (command : CommandObject) : Except SigningError (List UInt8) := do
  let payloadHash ← commandPayloadHash crypto command
  lengthPrefixed [command.id, commandKind command, payloadHash, issuedAtText command.issuedAt,
    command.instanceName]

def verifyCommandSignature (command : CommandObject) (publicKeyPem : JsString) :
    Except SigningError Bool :=
  if command.signature = [] then .ok false
  else do
    let bytes ← commandSigningBytes crypto command
    return crypto.verifies publicKeyPem bytes command.signature

/-- A signature that is accepted is one of the signed bytes. -/
theorem verifyCommandSignature_eq_ok_true {command : CommandObject} {publicKeyPem : JsString}
    (accepted : verifyCommandSignature crypto command publicKeyPem = .ok true) :
    ∃ bytes, commandSigningBytes crypto command = .ok bytes ∧
      crypto.verifies publicKeyPem bytes command.signature = true := by
  unfold verifyCommandSignature at accepted
  split at accepted
  · cases accepted
  · cases encoded : commandSigningBytes crypto command with
    | error error =>
      rw [encoded] at accepted
      cases accepted
    | ok bytes =>
      rw [encoded] at accepted
      exact ⟨bytes, rfl, Except.ok.inj accepted⟩

end

/-! ## Freshness -/

def MAX_COMMAND_AGE_MS : Int := 15 * 60 * 1000

def MAX_COMMAND_CLOCK_SKEW_MS : Int := 60 * 1000

/-- Whether a command is inside the replay window. No invalid date is. -/
def isCommandFresh (issuedAtMs : Option Int) (nowMs : Int) : Bool :=
  match issuedAtMs with
  | none => false
  | some issuedAtMs =>
    let age := nowMs - issuedAtMs
    age ≤ MAX_COMMAND_AGE_MS && age ≥ -MAX_COMMAND_CLOCK_SKEW_MS

theorem isCommandFresh_some {issuedAtMs nowMs : Int} : isCommandFresh (some issuedAtMs) nowMs = true ↔
    nowMs - issuedAtMs ≤ MAX_COMMAND_AGE_MS ∧ -MAX_COMMAND_CLOCK_SKEW_MS ≤ nowMs - issuedAtMs := by
  simp only [isCommandFresh, ge_iff_le, Bool.and_eq_true, decide_eq_true_eq]

/-- The time of `new Date(ms)`. Outside the range of dates it is `NaN`. -/
def timeClip (ms : Int) : Option Int := if ms.natAbs ≤ 8640000000000000 then some ms else none

/-- The date of a timestamp, if there is one, as its `getTime()`. -/
def fromTimestamp (ts : Option Timestamp) : Option (Option Int) :=
  ts.map fun ts => timeClip (ts.seconds * 1000 + (ts.nanos + 500000) / 1000000)

/-! ## What the signed bytes determine -/

private theorem uint32BE_inj {m n : Nat} (small : m < 2 ^ 32) (small' : n < 2 ^ 32)
    (same : uint32BE m = uint32BE n) : m = n := by
  simp only [uint32BE, List.cons.injEq, ← UInt8.toNat_inj, UInt8.toNat_ofNat'] at same
  omega

/-- Each part of a length-prefixed text is where its length says, so the whole
determines every part. -/
theorem lengthPrefixed_inj {parts others : List JsString} {bytes : List UInt8}
    (left : lengthPrefixed parts = .ok bytes) (right : lengthPrefixed others = .ok bytes) :
    parts.map utf8 = others.map utf8 := by
  have shape : ∀ {part : JsString} {rest : List JsString} {bytes : List UInt8},
      lengthPrefixed (part :: rest) = .ok bytes → (utf8 part).length < 2 ^ 32 ∧
        ∃ chunks, lengthPrefixed rest = .ok chunks ∧
          uint32BE (utf8 part).length ++ (utf8 part ++ chunks) = bytes := by
    intro part rest bytes ran
    rw [lengthPrefixed] at ran
    by_cases large : 2 ^ 32 ≤ (utf8 part).length
    · rw [if_pos large] at ran
      cases ran
    · rw [if_neg large] at ran
      obtain ⟨chunks, there, same⟩ := bind_eq_ok.mp ran
      refine ⟨by omega, chunks, there, ?_⟩
      rw [← List.append_assoc]
      exact Except.ok.inj same
  induction parts generalizing others bytes with
  | nil =>
    cases others with
    | nil => rfl
    | cons part rest =>
      obtain ⟨-, chunks, -, spelled⟩ := shape right
      rw [← Except.ok.inj left] at spelled
      cases spelled
  | cons part rest ih =>
    obtain ⟨small, chunks, ran, spelled⟩ := shape left
    cases others with
    | nil =>
      rw [← Except.ok.inj right] at spelled
      cases spelled
    | cons other later =>
      obtain ⟨small', chunks', ran', spelled'⟩ := shape right
      obtain ⟨lengths, bodies⟩ := List.append_inj (spelled.trans spelled'.symm) rfl
      obtain ⟨first, remaining⟩ := List.append_inj bodies (uint32BE_inj small small' lengths)
      rw [← remaining] at ran'
      simp only [List.map_cons, first, ih ran ran']

/-- An absent time of issue is signed as the epoch, and no two other times are
signed alike. -/
theorem issuedAtText_inj {first second : Option Timestamp}
    (same : issuedAtText first = issuedAtText second) : first.getD ⟨0, 0⟩ = second.getD ⟨0, 0⟩ := by
  have spelled : ∀ issuedAt : Option Timestamp, issuedAtText issuedAt =
      stringify (.number (issuedAt.getD ⟨0, 0⟩).seconds) ++
        (js "." ++ stringify (.number (issuedAt.getD ⟨0, 0⟩).nanos)) := by
    intro issuedAt
    cases issuedAt with
    | none => decide
    | some at_ => exact List.append_assoc _ _ _
  have point : ∀ rest : JsString, Delimited (js "." ++ rest) := fun rest unit lead => by cases lead; rfl
  rw [spelled, spelled] at same
  obtain ⟨seconds, rest⟩ := stringify_append_inj _ _ (point _) (point _) same
  have nanos := stringify_injective (List.append_cancel_left rest)
  simp only [JsonValue.number.injEq] at seconds nanos
  cases first' : first.getD ⟨0, 0⟩
  cases second' : second.getD ⟨0, 0⟩
  simp_all

theorem issuedAtText_wellFormed (issuedAt : Option Timestamp) : IsWellFormed (issuedAtText issuedAt) := by
  cases issuedAt with
  | none => exact js_wellFormed _
  | some at_ => exact ((decimal_wellFormed _).append (js_wellFormed _)).append (decimal_wellFormed _)

/-- Two payloads that do the same: one discriminant, and values that differ in
the order of keys and in undefined fields alone. -/
def SamePayload : Option PayloadObject → Option PayloadObject → Prop
  | none, none => True
  | some first, some second => first.caseName = second.caseName ∧ Same first.inner second.inner
  | _, _ => False

theorem canonicalJsonStringify_wellFormed {value : JsValue} {text : JsString}
    (spelled : canonicalJsonStringify value = .ok text) : IsWellFormed text := by
  obtain ⟨json, -, rfl⟩ := canonicalJsonStringify_eq_ok.mp spelled
  exact stringify_wellFormed json

theorem js_injective : Function.Injective js :=
  fun _ _ same => String.toList_inj.mp (ofScalars_injective same)

section
variable {crypto : Crypto}

/-- What was hashed: nothing for a command without payload, else the kind, a
colon and the canonical JSON. -/
private theorem commandPayloadHash_ok {command : CommandObject} {hash : JsString}
    (ran : commandPayloadHash crypto command = .ok hash) :
    (command.payload = none ∧ hash = js (crypto.sha256 (utf8 []))) ∨
      ∃ payload json, command.payload = some payload ∧ canonicalJsonStringify payload.inner = .ok json ∧
        hash = js (crypto.sha256 (utf8 (payload.caseName ++ (js ":" ++ json)))) := by
  unfold commandPayloadHash at ran
  cases carried : command.payload with
  | none =>
    rw [carried] at ran
    exact .inl ⟨rfl, (Except.ok.inj ran).symm⟩
  | some payload =>
    rw [carried] at ran
    cases serialised : canonicalJsonStringify payload.inner with
    | error message =>
      simp only [serialised] at ran
      cases ran
    | ok json =>
      simp only [serialised, Except.ok.injEq, List.append_assoc] at ran
      exact .inr ⟨payload, json, rfl, serialised, ran.symm⟩

theorem commandPayloadHash_wellFormed {command : CommandObject} {hash : JsString}
    (ran : commandPayloadHash crypto command = .ok hash) : IsWellFormed hash := by
  rcases commandPayloadHash_ok ran with ⟨-, rfl⟩ | ⟨_, _, -, -, rfl⟩ <;> exact js_wellFormed _

/-- The kind and the payload hash determine the payload: within one kind, what
follows the colon is the canonical JSON, whatever colons that has. -/
theorem samePayload_of_hash (injective : Function.Injective crypto.sha256)
    {first second : CommandObject} {hash : JsString} (wellFormed : IsWellFormed (commandKind first))
    (kinds : commandKind first = commandKind second)
    (left : commandPayloadHash crypto first = .ok hash)
    (right : commandPayloadHash crypto second = .ok hash) : SamePayload first.payload second.payload := by
  have hashed : ∀ {a b : JsString}, IsWellFormed a → IsWellFormed b →
      js (crypto.sha256 (utf8 a)) = js (crypto.sha256 (utf8 b)) → a = b :=
    fun wellA wellB same => utf8_injective wellA wellB (injective (js_injective same))
  have input : ∀ {name json : JsString}, IsWellFormed name → IsWellFormed json →
      IsWellFormed (name ++ (js ":" ++ json)) :=
    fun name json => name.append ((js_wellFormed _).append json)
  rcases commandPayloadHash_ok left with ⟨none₁, hash₁⟩ | ⟨payload, json, some₁, text₁, hash₁⟩ <;>
    rcases commandPayloadHash_ok right with ⟨none₂, hash₂⟩ | ⟨other, text, some₂, text₂, hash₂⟩ <;>
    simp only [commandKind, *, Option.map_some, Option.map_none, Option.getD_some, Option.getD_none]
      at kinds wellFormed
  · simp only [none₁, none₂, SamePayload]
  · rw [kinds] at wellFormed
    have empty := hashed (js_wellFormed "") (input wellFormed (canonicalJsonStringify_wellFormed text₂))
      (hash₁.symm.trans hash₂)
    exact absurd empty (by simp [js, ofScalars, unitsOfChar])
  · have empty := hashed (js_wellFormed "") (input wellFormed (canonicalJsonStringify_wellFormed text₁))
      (hash₂.symm.trans hash₁)
    exact absurd empty (by simp [js, ofScalars, unitsOfChar])
  · have texts := hashed (input wellFormed (canonicalJsonStringify_wellFormed text₁))
      (input (kinds ▸ wellFormed) (canonicalJsonStringify_wellFormed text₂)) (hash₁.symm.trans hash₂)
    rw [kinds] at texts
    have jsons : json = text := List.append_cancel_left (List.append_cancel_left texts)
    subst jsons
    simp only [some₁, some₂, SamePayload]
    exact ⟨kinds, same_of_canonicalJsonStringify payload.plain other.plain text₁ text₂⟩

/-- The strings of a command that are signed as they are. Decoding the wire
format gives no others. -/
structure CommandObject.WellFormed (command : CommandObject) : Prop where
  id : IsWellFormed command.id
  kind : IsWellFormed (commandKind command)
  instanceName : IsWellFormed command.instanceName

/-- **The signed bytes determine the command.** A signature cannot be moved to a
command with other field boundaries, another payload or another instance. -/
theorem commandSigningBytes_inj (injective : Function.Injective crypto.sha256)
    {first second : CommandObject} {bytes : List UInt8} (wellFormed : first.WellFormed)
    (wellFormed' : second.WellFormed) (left : commandSigningBytes crypto first = .ok bytes)
    (right : commandSigningBytes crypto second = .ok bytes) :
    first.id = second.id ∧ commandKind first = commandKind second ∧
      first.instanceName = second.instanceName ∧
      first.issuedAt.getD ⟨0, 0⟩ = second.issuedAt.getD ⟨0, 0⟩ ∧
      SamePayload first.payload second.payload := by
  obtain ⟨hash, hashed, prefixed⟩ := bind_eq_ok.mp left
  obtain ⟨hash', hashed', prefixed'⟩ := bind_eq_ok.mp right
  have parts := lengthPrefixed_inj prefixed prefixed'
  simp only [List.map_cons, List.map_nil, List.cons.injEq, and_true] at parts
  obtain ⟨ids, kinds, hashes, times, instances⟩ := parts
  have kind := utf8_injective wellFormed.kind wellFormed'.kind kinds
  have digests : hash = hash' := utf8_injective (commandPayloadHash_wellFormed hashed)
    (commandPayloadHash_wellFormed hashed') hashes
  subst digests
  refine ⟨utf8_injective wellFormed.id wellFormed'.id ids, kind,
    utf8_injective wellFormed.instanceName wellFormed'.instanceName instances, ?_, ?_⟩
  · exact issuedAtText_inj (utf8_injective (issuedAtText_wellFormed _) (issuedAtText_wellFormed _) times)
  · exact samePayload_of_hash injective wellFormed.kind kind hashed hashed'

end

section Transplant

/-! One command, as two programs might build its object. -/

/-- The digest of the sample payload is the real one. Other inputs are spelled
out after a letter that no digest has. -/
def sampleDigest (bytes : List UInt8) : String :=
  if bytes = utf8 (js "toggleJob:\x7b\"baseDefinitionHash\":\"\",\"enabled\":true,\"jobUuid\":\"j\"\x7d") then
    "8b0599c795dca63025ab03e0a4ec052a1b7f13818c8b53aaaeb94ad9e1e8d6f5"
  else .ofList ('g' :: bytes.map fun byte => Char.ofNat byte.toNat)

theorem sampleDigest_injective : Function.Injective sampleDigest := by
  have chars : ∀ first second : List UInt8, first.map (fun byte => Char.ofNat byte.toNat) =
      second.map (fun byte => Char.ofNat byte.toNat) → first = second := by
    intro first second same
    refine List.map_injective_iff.mpr (fun a b equal => ?_) same
    have values := congrArg Char.toNat equal
    have small : ∀ byte : UInt8, (Char.ofNat byte.toNat).toNat = byte.toNat := by
      intro byte
      have bound := byte.toNat_lt
      rw [Char.ofNat, dif_pos (Or.inl (by omega))]
      rfl
    rw [small, small] at values
    exact UInt8.toNat_inj.mp values
  intro first second same
  unfold sampleDigest at same
  split at same <;> split at same
  · rename_i left right
    rw [left, right]
  · have letters := congrArg String.toList same
    simp at letters
  · have letters := congrArg String.toList same
    simp at letters
  · have letters := congrArg String.toList same
    simp only [String.toList_ofList, List.cons.injEq, true_and] at letters
    exact chars _ _ letters

def sampleCrypto : Crypto where
  sha256 := sampleDigest
  spkiDer _ := none
  verifies _ _ _ := false

/-- A command without a time of issue. -/
def untimedToggle : CommandObject where
  id := js "c1"
  issuedAt := none
  instanceName := js "SQL01"
  signature := []
  payload := some {
    caseName := js "toggleJob"
    inner := .object [(js "jobUuid", .string (js "j")), (js "enabled", .bool true),
      (js "baseDefinitionHash", .string [])]
    plain := .object (by decide) (by decide) (by simp [Plain.string, Plain.bool]) }

/-- The same with its keys in another order, an undefined property and the epoch
for its time of issue. -/
def epochToggle : CommandObject where
  id := js "c1"
  issuedAt := some ⟨0, 0⟩
  instanceName := js "SQL01"
  signature := []
  payload := some {
    caseName := js "toggleJob"
    inner := .object [(js "enabled", .bool true), (js "note", .undefined),
      (js "baseDefinitionHash", .string []), (js "jobUuid", .string (js "j"))]
    plain := .object (by decide) (by decide) (by simp [Plain.string, Plain.bool, Plain.undefined]) }

theorem commandSigningBytes_inj_toggle :
    Function.Injective sampleCrypto.sha256 ∧
    commandSigningBytes sampleCrypto untimedToggle = commandSigningBytes sampleCrypto epochToggle ∧
    SamePayload untimedToggle.payload epochToggle.payload := by
  have signed : commandSigningBytes sampleCrypto untimedToggle =
      .ok ((commandSigningBytes sampleCrypto untimedToggle).toOption.getD []) := by decide +kernel
  have signed' : commandSigningBytes sampleCrypto epochToggle =
      .ok ((commandSigningBytes sampleCrypto untimedToggle).toOption.getD []) := by decide +kernel
  have fields := commandSigningBytes_inj sampleDigest_injective
    ⟨by decide, by decide, by decide⟩ ⟨by decide, by decide, by decide⟩ signed signed'
  exact ⟨sampleDigest_injective, signed.trans signed'.symm, fields.2.2.2.2⟩

end Transplant

end RemoteSqlAgent
