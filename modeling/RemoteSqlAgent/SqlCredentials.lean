import RemoteSqlAgent.JsUtf8
import RemoteSqlAgent.JsBase64
import RemoteSqlAgent.JsonReading
import RemoteSqlAgent.MonitorSet

/-! A SQL password on its way from the browser, which encrypts it to the key of a worker, to the
host of that worker, which opens it. Both sides have to agree on the form of what is encrypted. -/
namespace RemoteSqlAgent
open Js

/-! ## In the browser -/

/-- What a browser has of WebCrypto. What it throws is a text. -/
structure WebCrypto where
  /-- `crypto.subtle` is there only in a secure context. -/
  canEncryptCredentials : Bool
  /-- What `atob` throws at a text that is not base64. -/
  notBase64 : JsString
  /-- `importKey` of an SPKI: the length of its modulus. -/
  importKey : List UInt8 → Except JsString Nat
  /-- `encrypt` to an SPKI, with the randomness it draws. -/
  encrypt : List UInt8 → Nat → List UInt8 → Except JsString (List UInt8)

def MINIMUM_MODULUS_BITS : Nat := 2048

def INSECURE_CONTEXT_MESSAGE : JsString :=
  js ("Your browser will not encrypt credentials over an insecure connection. " ++
    "Serve the dashboard over HTTPS, then enter the credential. " ++
    "The password is encrypted in your browser so the control plane never holds a usable SQL login — " ++
    "sending it in clear would defeat that.")

def dash : CodeUnit := 0x2D

/-- What follows a marker at the start of a text: an opening, `[^-]+` and five dashes. -/
def afterMarker (opening text : JsString) : Option JsString :=
  let labelled := text.drop opening.length
  let rest := labelled.dropWhile (· ≠ dash)
  if opening <+: text ∧ labelled.takeWhile (· ≠ dash) ≠ [] ∧ js "-----" <+: rest then some (rest.drop 5) else none

/-- `text.replace(marker, '')`: the first marker goes. -/
def withoutMarker (opening : JsString) : JsString → JsString
  | [] => []
  | unit :: rest =>
    match afterMarker opening (unit :: rest) with
    | some after => after
    | none => unit :: withoutMarker opening rest

/-- `text.replace(/\s+/gu, '')` -/
def withoutSpace (text : JsString) : JsString := text.filter fun unit => !isWhiteSpace unit.val

/-- The bytes of a PEM text, unless `atob` throws. -/
def pemToArrayBuffer (pem : JsString) : Option (List UInt8) :=
  atob (withoutSpace (withoutMarker (js "-----END ") (withoutMarker (js "-----BEGIN ") pem)))

/-- A binary string is put together in chunks. -/
def binaryOf (bytes : List UInt8) : List UInt8 :=
  (List.range ((bytes.length + 0x7FFF) / 0x8000)).flatMap fun chunk => (bytes.drop (chunk * 0x8000)).take 0x8000

def toBase64 (bytes : List UInt8) : JsString := btoa (binaryOf bytes)

/-- The key of a PEM text, with the length of its modulus. -/
def importPem (browser : WebCrypto) (publicKeyPem : JsString) : Except JsString (List UInt8 × Nat) :=
  match pemToArrayBuffer publicKeyPem with
  | none => .error browser.notBase64
  | some spki => (browser.importKey spki).map fun modulusBits => (spki, modulusBits)

/-- What is encrypted. -/
def credentialText (password : JsString) : JsString := stringify (.object [(js "password", .string password)])

def encryptCredential (browser : WebCrypto) (seed : Nat) (publicKeyPem password : JsString) :
    Except JsString JsString :=
  if browser.canEncryptCredentials = false then .error INSECURE_CONTEXT_MESSAGE
  else
    match importPem browser publicKeyPem with
    | .error message => .error (js "The worker published a key this browser cannot use: " ++ message)
    | .ok (spki, modulusBits) =>
      if modulusBits < MINIMUM_MODULUS_BITS then
        .error (js "That worker published a " ++ digits modulusBits ++
          js "-bit key, and this will not encrypt a SQL credential to anything below " ++ digits MINIMUM_MODULUS_BITS ++
          js " bits. The worker generates 4096-bit keys, so a key this small did not come from one.")
      else
        let plaintext := utf8 (credentialText password)
        match browser.encrypt spki seed plaintext with
        | .ok ciphertext => .ok (toBase64 ciphertext)
        | .error message => .error (js "Could not encrypt that credential" ++
            (if plaintext.length > 400 then js " — it is too long" else []) ++ js ": " ++ message)

/-! ## On the host of a worker -/

structure CredentialKeyPair where
  publicKeyPem : JsString
  privateKeyPem : JsString
  fingerprint : JsString

/-- A host: its key, what `privateDecrypt` makes of bytes with it, and the platform. -/
structure KeyHost where
  key : CredentialKeyPair
  privateDecrypt : JsString → List UInt8 → Except JsString (List UInt8)
  number : JsString → Option Int
  configSchemaMessage : InstanceConfig → JsString

/-- What the host opens credentials with. -/
def KeyHost.deps (host : KeyHost) : MonitorSetDeps where
  fingerprint := host.key.fingerprint
  privateDecrypt ciphertext := (host.privateDecrypt host.key.privateKeyPem (bufferFromBase64 ciphertext)).map textOfUtf8
  parseJson text := (parseJson text).elim (.error (js "SyntaxError")) .ok
  number := host.number
  configSchemaMessage := host.configSchemaMessage

theorem KeyHost.deps_parseJson (host : KeyHost) (text : JsString) :
    host.deps.parseJson text = (parseJson text).elim (.error (js "SyntaxError")) .ok := rfl

/-! ## Keys -/

/-- A PEM text of some bytes: their base64, broken into lines, between two markers. -/
structure Armoured (der : List UInt8) (pem : JsString) : Prop where
  parts : ∃ label body ends, pem = js "-----BEGIN " ++ label ++ js "-----" ++ body ++
      js "-----END " ++ label ++ js "-----" ++ ends ∧ label ≠ [] ∧ dash ∉ label ∧
    withoutSpace body = btoa der ∧ withoutSpace ends = []

/-- A public key as a worker publishes it: its SPKI as a PEM text. -/
structure Exported (crypto : Crypto) (der : List UInt8) (pem : JsString) : Prop where
  armoured : Armoured der pem
  reads : crypto.spkiDer pem = some der

/-- The key of a host is a pair: its private half opens what is encrypted to its public half. -/
structure KeyHost.Paired (host : KeyHost) (crypto : Crypto) (browser : WebCrypto) (der : List UInt8) : Prop where
  exported : Exported crypto der host.key.publicKeyPem
  fingerprint : host.key.fingerprint = js (crypto.sha256 der)
  opens : ∀ seed plaintext ciphertext, browser.encrypt der seed plaintext = .ok ciphertext →
    host.privateDecrypt host.key.privateKeyPem ciphertext = .ok plaintext

/-! ## The key that is imported -/

section Markers
variable {opening text label after : JsString}

/-- A marker begins with a dash. -/
theorem withoutMarker_pass (dashed : opening.head? = some dash) (clean : dash ∉ text) :
    withoutMarker opening (text ++ after) = text ++ withoutMarker opening after := by
  induction text with
  | nil => rfl
  | cons unit rest ih =>
    have other : unit ≠ dash := fun same => clean (same ▸ List.mem_cons_self)
    have here : afterMarker opening (unit :: (rest ++ after)) = none := by
      refine if_neg fun starts => other ?_
      obtain ⟨more, isText⟩ := starts.1
      obtain ⟨tail, rfl⟩ := List.head?_eq_some_iff.mp dashed
      exact (List.cons.inj isText).1.symm
    rw [List.cons_append, withoutMarker, here]
    exact congrArg (unit :: ·) (ih fun member => clean (List.mem_cons_of_mem _ member))

theorem withoutMarker_here (nonempty : opening ≠ []) (labelled : label ≠ []) (clean : dash ∉ label) :
    withoutMarker opening (opening ++ label ++ js "-----" ++ after) = after := by
  have letters : ∀ unit ∈ label, decide (unit ≠ dash) = true := fun unit member =>
    decide_eq_true fun same => clean (same ▸ member)
  have dashes : js "-----" ++ after = dash :: (js "----" ++ after) := rfl
  have taken : (label ++ (js "-----" ++ after)).takeWhile (fun unit => decide (unit ≠ dash)) = label := by
    rw [dashes, List.takeWhile_append_of_pos letters, List.takeWhile_cons_of_neg (by simp), List.append_nil]
  have dropped : (label ++ (js "-----" ++ after)).dropWhile (fun unit => decide (unit ≠ dash)) = js "-----" ++ after := by
    rw [dashes, List.dropWhile_append_of_pos letters, List.dropWhile_cons_of_neg (by simp)]
  have found : afterMarker opening (opening ++ (label ++ (js "-----" ++ after))) = some after := by
    simp only [afterMarker, List.drop_left, taken, dropped]
    exact if_pos ⟨List.prefix_append _ _, labelled, List.prefix_append _ _⟩
  obtain ⟨unit, rest, isOpening⟩ := List.exists_cons_of_ne_nil nonempty
  rw [List.append_assoc, List.append_assoc]
  rw [isOpening, List.cons_append] at found ⊢
  rw [withoutMarker, found]

end Markers

theorem withoutSpace_append (first second : JsString) :
    withoutSpace (first ++ second) = withoutSpace first ++ withoutSpace second := List.filter_append ..

/-- The browser imports the bytes that a PEM text is of. -/
theorem pemToArrayBuffer_armoured {der : List UInt8} {pem : JsString} (armoured : Armoured der pem) :
    pemToArrayBuffer pem = some der := by
  obtain ⟨label, body, ends, rfl, labelled, clean, isBody, blank⟩ := armoured.parts
  have noDash : dash ∉ body := by
    intro member
    have kept : dash ∈ withoutSpace body := List.mem_filter.mpr ⟨member, rfl⟩
    rw [isBody] at kept
    exact (mem_btoa kept).2 rfl
  have begun : withoutMarker (js "-----BEGIN ") (js "-----BEGIN " ++ label ++ js "-----" ++
      (body ++ (js "-----END " ++ label ++ js "-----" ++ ends))) = body ++ (js "-----END " ++ label ++ js "-----" ++ ends) :=
    withoutMarker_here (by decide) labelled clean
  have ended : withoutMarker (js "-----END ") (js "-----END " ++ label ++ js "-----" ++ ends) = ends :=
    withoutMarker_here (by decide) labelled clean
  rw [show js "-----BEGIN " ++ label ++ js "-----" ++ body ++ js "-----END " ++ label ++ js "-----" ++ ends =
      js "-----BEGIN " ++ label ++ js "-----" ++ (body ++ (js "-----END " ++ label ++ js "-----" ++ ends)) by
    simp only [List.append_assoc], pemToArrayBuffer, begun, withoutMarker_pass rfl noDash, ended, withoutSpace_append,
    isBody, blank, List.append_nil]
  exact atob_btoa (List.filter_eq_self.mpr fun unit member => by rw [(mem_btoa member).1]; rfl)

/-! ## The round trip -/

theorem binaryOf_eq (bytes : List UInt8) : binaryOf bytes = bytes := by
  have chunks (count : Nat) : (List.range count).flatMap (fun chunk => (bytes.drop (chunk * 0x8000)).take 0x8000) =
      bytes.take (count * 0x8000) := by
    induction count with
    | zero => simp
    | succ count ih =>
      rw [List.range_succ, List.flatMap_append, ih, List.flatMap_singleton, Nat.succ_mul, List.take_add]
  rw [binaryOf, chunks]
  exact List.take_of_length_le (by omega)

theorem credentialText_wellFormed (password : JsString) : IsWellFormed (credentialText password) :=
  stringify_wellFormed _

theorem parseJson_credentialText (password : JsString) :
    parseJson (credentialText password) = some (.object [(js "password", .string password)]) := by
  have ordered : propertyOrder [(js "password", JsonValue.string password)] = [(js "password", .string password)] :=
    List.perm_singleton.mp (propertyOrder_perm _)
  refine parseJson_stringify (.object (List.nodup_singleton _) ordered fun field member => ?_)
  rw [List.mem_singleton.mp member]
  exact .string password

/-- What `encryptCredential` gives is the ciphertext, in base64, of the password under the key that
the PEM text spells. -/
theorem encryptCredential_ok {browser : WebCrypto} {seed : Nat} {publicKeyPem password ciphertext : JsString}
    (encrypted : encryptCredential browser seed publicKeyPem password = .ok ciphertext) :
    ∃ spki bytes, pemToArrayBuffer publicKeyPem = some spki ∧
      browser.encrypt spki seed (utf8 (credentialText password)) = .ok bytes ∧ ciphertext = toBase64 bytes := by
  unfold encryptCredential at encrypted
  split at encrypted
  · cases encrypted
  · split at encrypted
    · cases encrypted
    next spki modulusBits imported =>
      split at encrypted
      · cases encrypted
      · dsimp only at encrypted
        split at encrypted
        next bytes ok =>
          cases encrypted
          unfold importPem at imported
          split at imported
          · cases imported
          next isSpki =>
            rename_i spki'
            cases imports : browser.importKey spki' with
            | error message =>
              rw [imports] at imported
              cases imported
            | ok bits =>
              rw [imports] at imported
              cases imported
              exact ⟨_, bytes, isSpki, ok, rfl⟩
        · cases encrypted

/-- What a host reads of a ciphertext for its key is what was encrypted. -/
theorem privateDecrypt_toBase64 {crypto : Crypto} {browser : WebCrypto} {host : KeyHost} {der bytes : List UInt8}
    (paired : host.Paired crypto browser der) {seed : Nat} {text : JsString} (wellFormed : IsWellFormed text)
    (encrypted : browser.encrypt der seed (utf8 text) = .ok bytes) :
    host.deps.privateDecrypt (toBase64 bytes) = .ok text := by
  change (host.privateDecrypt host.key.privateKeyPem (bufferFromBase64 (btoa (binaryOf bytes)))).map textOfUtf8 = _
  rw [binaryOf_eq, bufferFromBase64_btoa, paired.opens seed _ _ encrypted, Except.map, textOfUtf8_utf8 wellFormed]

/-- **The password that was typed is the one that is opened.** -/
theorem decryptCredential_encryptCredential {crypto : Crypto} {browser : WebCrypto} {host : KeyHost} {der : List UInt8}
    (paired : host.Paired crypto browser der) {publicKeyPem : JsString} (armoured : Armoured der publicKeyPem)
    {seed : Nat} {password ciphertext : JsString}
    (encrypted : encryptCredential browser seed publicKeyPem password = .ok ciphertext) (typed : password ≠ [])
    {expectedFingerprint : JsString} (expected : expectedFingerprint = [] ∨ expectedFingerprint = host.key.fingerprint) :
    decryptCredential host.deps ciphertext expectedFingerprint = .ok password := by
  obtain ⟨spki, bytes, isSpki, sealed, rfl⟩ := encryptCredential_ok encrypted
  rw [pemToArrayBuffer_armoured armoured] at isSpki
  cases isSpki
  have opened := privateDecrypt_toBase64 paired (credentialText_wellFormed password) sealed
  have parsed : host.deps.parseJson (credentialText password) = .ok (.object [(js "password", .string password)]) := by
    rw [KeyHost.deps_parseJson, parseJson_credentialText, Option.elim_some]
  have same : ¬ (expectedFingerprint ≠ [] ∧ expectedFingerprint ≠ host.deps.fingerprint) := by
    rintro ⟨some, other⟩
    exact other (expected.resolve_left some)
  have held : property (js "password") [(js "password", JsValue.string password)] = some (.string password) := by
    simp [property]
  rw [decryptCredential, if_neg same, opened]
  dsimp only
  rw [parsed]
  dsimp only
  rw [held]
  exact if_neg typed

end RemoteSqlAgent
