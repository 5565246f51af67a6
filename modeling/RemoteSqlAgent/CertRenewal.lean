import RemoteSqlAgent.SecretFile
import RemoteSqlAgent.WorkerStream

/-! The renewal of a worker's client certificate. A key is held while the control plane
certifies it; then the pair is put on disk, one file after the other. -/
namespace RemoteSqlAgent
open Js CallProgram

/-- A text that is there and not empty. -/
def present (text : Option JsString) : Option JsString := text.filter (· ≠ [])

/-- The files of a client certificate. They are different ones. -/
structure TlsConfig where
  clientCertPath : Option JsString
  clientKeyPath : Option JsString
  caCertPath : Option JsString
  apart : (clientKeyPath.toList ++ clientCertPath.toList ++ caCertPath.toList).Nodup

namespace TlsConfig

def files (tls : TlsConfig) : List JsString :=
  tls.clientKeyPath.toList ++ tls.clientCertPath.toList ++ tls.caCertPath.toList

/-- The private key on disk. -/
def keyOn (tls : TlsConfig) (disk : Disk) : Option JsString := (present tls.clientKeyPath).bind disk

/-- The certificate on disk. -/
def certificateOn (tls : TlsConfig) (disk : Disk) : Option JsString := (present tls.clientCertPath).bind disk

end TlsConfig

/-- What the platform does. -/
structure CertificateTools where
  dirname : JsString → JsString
  /-- `new X509Certificate(pem)`. -/
  parseCertificate : JsString → Except JsString Unit
  /-- `createPrivateKey(pem)`. -/
  parsePrivateKey : JsString → Except JsString Unit
  /-- `certificate.checkPrivateKey(key)`. -/
  checkPrivateKey : JsString → JsString → Bool

/-- The state of a renewal. The timer stands for the one armed again past its ceiling. -/
structure Renewer where
  /-- The worker authenticates with a certificate. -/
  enabled : Bool
  timer : Bool
  responseTimer : Bool
  pendingPrivateKeyPem : Option JsString
  stopped : Bool

/-- What the certificate on disk says of when to renew it. -/
inductive RenewalPlan where
  | unusable
  | due
  | later

namespace Renewer

def clearTimers (renewer : Renewer) : Renewer := { renewer with timer := false, responseTimer := false }

def forget (renewer : Renewer) : Renewer := { renewer with pendingPrivateKeyPem := none }

def scheduleRetry (renewer : Renewer) : Renewer := if renewer.stopped then renewer else { renewer with timer := true }

/-- The renewer, and the key that was sent to be certified. -/
def requestRenewal (renewer : Renewer) (generated : Option JsString) (accepted : Bool) : Renewer × Option JsString :=
  if renewer.stopped ∨ !renewer.enabled then (renewer, none)
  else
    let fired := { renewer with timer := false }
    match generated with
    | none => (fired.scheduleRetry, none)
    | some privateKeyPem =>
      if accepted then ({ fired with pendingPrivateKeyPem := some privateKeyPem, responseTimer := true },
        some privateKeyPem)
      else (fired, none)

def onSessionReady (renewer : Renewer) (plan : RenewalPlan) (generated : Option JsString) (accepted : Bool) :
    Renewer × Option JsString :=
  if !renewer.enabled ∨ renewer.stopped then (renewer, none)
  else
    let cleared := renewer.clearTimers.forget
    match plan with
    | .unusable => (cleared, none)
    | .due => cleared.requestRenewal generated accepted
    | .later => ({ cleared with timer := true }, none)

def onDisconnect (renewer : Renewer) : Renewer := renewer.clearTimers.forget

def stop (renewer : Renewer) : Renewer := { renewer with stopped := true }.clearTimers.forget

/-- No response came. -/
def responseTimedOut (renewer : Renewer) : Renewer :=
  let fired := { renewer with responseTimer := false }
  if (present fired.pendingPrivateKeyPem).isNone then fired else fired.forget.scheduleRetry

/-- A response came. -/
def answered (renewer : Renewer) : Renewer := { renewer.forget with responseTimer := false }

end Renewer

section Install
variable (tools : CertificateTools) (tls : TlsConfig)

/-- The key first, then its certificate, and the authority's if there is a place for it. -/
def writePair (clientKeyPath clientCertPath certificatePem caCertificatePem privateKeyPem : JsString) :
    FileProgram Unit := do
  writeSecretFile tools.dirname clientKeyPath privateKeyPem 0o600
  writeSecretFile tools.dirname clientCertPath certificatePem 0o600
  match present tls.caCertPath, present (some caCertificatePem) with
  | some caCertPath, some caCertificatePem => writeSecretFile tools.dirname caCertPath caCertificatePem 0o644
  | _, _ => .done ()

/-- Put a new pair on disk that matches. -/
def install (certificatePem caCertificatePem privateKeyPem : JsString) : FileProgram Unit :=
  match present tls.clientCertPath, present tls.clientKeyPath with
  | some clientCertPath, some clientKeyPath => do
    throwing (tools.parseCertificate certificatePem)
    throwing (tools.parsePrivateKey privateKeyPem)
    if tools.checkPrivateKey certificatePem privateKeyPem then
      writePair tools tls clientKeyPath clientCertPath certificatePem caCertificatePem privateKeyPem
    else .throw (js "The renewed certificate does not match the key it was requested for; discarding it.")
  | _, _ => .throw (js "controlPlane.tls.clientCertPath and clientKeyPath must be set for mTLS.")

/-- What a response comes to, and whether the worker reconnects. -/
def onResponse (renewer : Renewer) (response : CertificateRenewalResponse) : FileProgram (Renewer × Bool) :=
  if !renewer.enabled ∨ renewer.stopped then .done (renewer, false)
  else
    match present renewer.pendingPrivateKeyPem with
    | none => .done (renewer.answered, false)
    | some privateKeyPem =>
      if response.success = false ∨ response.certificatePem = [] then .done (renewer.answered.scheduleRetry, false)
      else do
        match ← (install tools tls response.certificatePem response.caCertificatePem privateKeyPem).attempt with
        | .error _ => return (renewer.answered.scheduleRetry, false)
        | .ok _ => return (renewer.answered, true)

end Install

/-! ## What an installation comes to -/

theorem present_eq_some {text : Option JsString} {value : JsString} (isPresent : present text = some value) :
    text = some value :=
  (Option.filter_eq_some_iff.mp isPresent).1

/-- An installation leaves the pair as it was, replaces it, or stops between its files. -/
inductive Installed (tls : TlsConfig) (certificatePem privateKeyPem : JsString) (disk after : Disk) :
    List JsString → Except JsString Unit → Prop where
  | untouched (message : JsString) (same : SameFiles tls.files disk after) :
      Installed tls certificatePem privateKeyPem disk after [] (.error message)
  | torn {clientKeyPath : JsString} (message : JsString) (keyed : present tls.clientKeyPath = some clientKeyPath)
      (written : after clientKeyPath = some privateKeyPem)
      (others : ∀ file ∈ tls.files, file ≠ clientKeyPath → after file = disk file) :
      Installed tls certificatePem privateKeyPem disk after [clientKeyPath] (.error message)
  | replaced {clientKeyPath clientCertPath : JsString} {rest : List JsString} (ended : Except JsString Unit)
      (keyed : present tls.clientKeyPath = some clientKeyPath)
      (certified : present tls.clientCertPath = some clientCertPath)
      (written : after clientKeyPath = some privateKeyPem) (certificate : after clientCertPath = some certificatePem) :
      Installed tls certificatePem privateKeyPem disk after (clientKeyPath :: clientCertPath :: rest) ended

section Installations
variable {tools : CertificateTools} {tls : TlsConfig} {disk after : Disk} {transcript : List (Exchange FileAnswer)}
  {certificatePem caCertificatePem privateKeyPem clientKeyPath clientCertPath caCertPath : JsString}

namespace TlsConfig

theorem key_mem (keyed : tls.clientKeyPath = some clientKeyPath) : clientKeyPath ∈ tls.files := by
  simp [files, keyed]

theorem certificate_mem (certified : tls.clientCertPath = some clientCertPath) : clientCertPath ∈ tls.files := by
  simp [files, certified]

theorem certificate_ne_key (keyed : tls.clientKeyPath = some clientKeyPath)
    (certified : tls.clientCertPath = some clientCertPath) : clientCertPath ≠ clientKeyPath := by
  have apart := tls.apart
  rw [keyed, certified] at apart
  rintro rfl
  simp at apart

theorem ca_ne (keyed : tls.clientKeyPath = some clientKeyPath) (certified : tls.clientCertPath = some clientCertPath)
    (trusted : tls.caCertPath = some caCertPath) : clientKeyPath ≠ caCertPath ∧ clientCertPath ≠ caCertPath := by
  have apart := tls.apart
  rw [keyed, certified, trusted] at apart
  simp at apart
  exact ⟨apart.1.2, apart.2⟩

end TlsConfig

theorem alone_writePair {ended : Except JsString Unit} (keyed : present tls.clientKeyPath = some clientKeyPath)
    (certified : present tls.clientCertPath = some clientCertPath)
    (alone : Alone (FileCall.Does tls.files) disk
      (writePair tools tls clientKeyPath clientCertPath certificatePem caCertificatePem privateKeyPem) transcript
        after ended) :
    Installed tls certificatePem privateKeyPem disk after (renamedFiles transcript) ended := by
  have keyPath := present_eq_some keyed
  have certPath := present_eq_some certified
  rcases alone_bind.mp alone with ⟨message, failed, rfl⟩ | ⟨_, middle, first, second, rfl, wrote, alone⟩
  · have key := alone_writeSecretFile failed
    generalize renamedFiles transcript = renamed at key ⊢
    cases key with
    | error _ same => exact .untouched message same
  · have key := alone_writeSecretFile wrote
    rw [renamedFiles_append]
    generalize renamedFiles first = renamed at key ⊢
    cases key with
    | ok written others =>
    rcases alone_bind.mp alone with ⟨message, failed, rfl⟩ | ⟨_, last, third, fourth, rfl, wrote, alone⟩
    · have certificate := alone_writeSecretFile failed
      generalize renamedFiles second = renamed at certificate ⊢
      cases certificate with
      | error _ same =>
        refine .torn message keyed ?_ fun file member different => ?_
        · rw [same _ (TlsConfig.key_mem keyPath), written]
        · rw [same _ member, others _ member different]
    · have certificate := alone_writeSecretFile wrote
      rw [renamedFiles_append]
      generalize renamedFiles third = renamed at certificate ⊢
      cases certificate with
      | ok there also =>
      have kept : last clientKeyPath = some privateKeyPem := by
        rw [also _ (TlsConfig.key_mem keyPath) (TlsConfig.certificate_ne_key keyPath certPath).symm, written]
      split at alone
      · rename_i caCertPath authority trusted isThere
        have apart := TlsConfig.ca_ne keyPath certPath (present_eq_some trusted)
        have final := alone_writeSecretFile alone
        generalize renamedFiles fourth = renamed at final ⊢
        cases final with
        | ok _ rest =>
          refine .replaced _ keyed certified ?_ ?_
          · rw [rest _ (TlsConfig.key_mem keyPath) apart.1, kept]
          · rw [rest _ (TlsConfig.certificate_mem certPath) apart.2, there]
        | error message same =>
          refine .replaced _ keyed certified ?_ ?_
          · rw [same _ (TlsConfig.key_mem keyPath), kept]
          · rw [same _ (TlsConfig.certificate_mem certPath), there]
      · obtain ⟨rfl, rfl, rfl⟩ := alone_done.mp alone
        exact .replaced _ keyed certified kept there

theorem alone_install {ended : Except JsString Unit}
    (alone : Alone (FileCall.Does tls.files) disk (install tools tls certificatePem caCertificatePem privateKeyPem)
      transcript after ended) :
    Installed tls certificatePem privateKeyPem disk after (renamedFiles transcript) ended ∧
      (renamedFiles transcript ≠ [] → tools.checkPrivateKey certificatePem privateKeyPem = true) := by
  have stays : ∀ message : JsString, Installed tls certificatePem privateKeyPem disk disk [] (.error message) :=
    fun message => .untouched message fun _ _ => rfl
  cases certified : present tls.clientCertPath with
  | none =>
    simp only [install, certified] at alone
    obtain ⟨rfl, rfl, rfl⟩ := alone_throw.mp alone
    exact ⟨stays _, fun some => absurd rfl some⟩
  | some clientCertPath =>
  cases keyed : present tls.clientKeyPath with
  | none =>
    simp only [install, certified, keyed] at alone
    obtain ⟨rfl, rfl, rfl⟩ := alone_throw.mp alone
    exact ⟨stays _, fun some => absurd rfl some⟩
  | some clientKeyPath =>
  simp only [install, certified, keyed] at alone
  rcases alone_bind.mp alone with ⟨message, thrown, rfl⟩ | ⟨_, middle, first, second, rfl, parsed, onward⟩
  · obtain ⟨rfl, rfl, -⟩ := alone_throwing thrown
    exact ⟨stays _, fun some => absurd rfl some⟩
  · obtain ⟨rfl, rfl, -⟩ := alone_throwing parsed
    rcases alone_bind.mp onward with ⟨message, thrown, rfl⟩ | ⟨_, middle, third, fourth, rfl, parsed, checked⟩
    · obtain ⟨rfl, rfl, -⟩ := alone_throwing thrown
      exact ⟨stays _, fun some => absurd rfl some⟩
    · obtain ⟨rfl, rfl, -⟩ := alone_throwing parsed
      split at checked
      · exact ⟨alone_writePair keyed certified checked, fun _ => ‹_›⟩
      · obtain ⟨rfl, rfl, rfl⟩ := alone_throw.mp checked
        exact ⟨stays _, fun some => absurd rfl some⟩

end Installations

end RemoteSqlAgent
