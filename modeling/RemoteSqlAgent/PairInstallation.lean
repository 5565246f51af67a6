import RemoteSqlAgent.CertRenewal

/-! Whether a renewed pair is installed whole. Each of its files is replaced at once or not
at all; but between the two comes whatever writing the second one takes, and that can
fail. -/
namespace RemoteSqlAgent
open Js CallProgram

section Responses
variable {tools : CertificateTools} {tls : TlsConfig} {renewer : Renewer} {response : CertificateRenewalResponse}
  {disk after : Disk} {transcript : List (Exchange FileAnswer)} {ended : Except JsString (Renewer × Bool)}

/-- A response is passed over, or the pair that it completes is installed. -/
theorem alone_onResponse
    (alone : Alone (FileCall.Does tls.files) disk (onResponse tools tls renewer response) transcript after ended) :
    (transcript = [] ∧ after = disk ∧ ∃ later, ended = .ok (later, false)) ∨
      ∃ privateKeyPem outcome, present renewer.pendingPrivateKeyPem = some privateKeyPem ∧
        response.success = true ∧
        Installed tls response.certificatePem privateKeyPem disk after (renamedFiles transcript) outcome ∧
        (renamedFiles transcript ≠ [] → tools.checkPrivateKey response.certificatePem privateKeyPem = true) ∧
        ended = .ok (if outcome.toBool then (renewer.answered, true) else (renewer.answered.scheduleRetry, false)) := by
  unfold onResponse at alone
  split at alone
  · obtain ⟨rfl, rfl, rfl⟩ := alone_done.mp alone
    exact .inl ⟨rfl, rfl, _, rfl⟩
  · split at alone
    · obtain ⟨rfl, rfl, rfl⟩ := alone_done.mp alone
      exact .inl ⟨rfl, rfl, _, rfl⟩
    · rename_i privateKeyPem held
      split at alone
      · obtain ⟨rfl, rfl, rfl⟩ := alone_done.mp alone
        exact .inl ⟨rfl, rfl, _, rfl⟩
      · rename_i usable
        rcases alone_bind.mp alone with ⟨error, thrown, -⟩ | ⟨caught, middle, first, second, rfl, attempted, onward⟩
        · obtain ⟨inner, -, same⟩ := alone_attempt.mp thrown
          cases same
        · obtain ⟨outcome, installed, same⟩ := alone_attempt.mp attempted
          cases same
          obtain ⟨spec, checked⟩ := alone_install installed
          have success : response.success = true := Bool.eq_true_of_not_eq_false fun failed => usable (.inl failed)
          cases caught with
          | error message | ok _ =>
            obtain ⟨rfl, rfl, rfl⟩ := alone_done.mp onward
            rw [List.append_nil]
            exact .inr ⟨privateKeyPem, _, held, success, spec, checked, rfl⟩

/-- The pair on disk is the old one, or a new one that matches. -/
def Whole (tools : CertificateTools) (tls : TlsConfig) (renewer : Renewer) (response : CertificateRenewalResponse)
    (disk after : Disk) : Prop :=
  (tls.keyOn after = tls.keyOn disk ∧ tls.certificateOn after = tls.certificateOn disk) ∨
    ∃ privateKeyPem, renewer.pendingPrivateKeyPem = some privateKeyPem ∧
      tools.checkPrivateKey response.certificatePem privateKeyPem = true ∧
      tls.keyOn after = some privateKeyPem ∧ tls.certificateOn after = some response.certificatePem

/-- The key was put in place and its certificate was not, neither of them being what was
there already. -/
def StopsBetween (tls : TlsConfig) (renewer : Renewer) (response : CertificateRenewalResponse) (disk : Disk)
    (transcript : List (Exchange FileAnswer)) : Prop :=
  (∃ clientKeyPath, present tls.clientKeyPath = some clientKeyPath ∧ clientKeyPath ∈ renamedFiles transcript) ∧
    (∀ clientCertPath, present tls.clientCertPath = some clientCertPath → clientCertPath ∉ renamedFiles transcript) ∧
    tls.keyOn disk ≠ renewer.pendingPrivateKeyPem ∧ tls.certificateOn disk ≠ some response.certificatePem

theorem keyOn_eq {clientKeyPath : JsString} (keyed : present tls.clientKeyPath = some clientKeyPath) (disk : Disk) :
    tls.keyOn disk = disk clientKeyPath := by
  rw [TlsConfig.keyOn, keyed, Option.bind_some]

theorem certificateOn_eq {clientCertPath : JsString} (certified : present tls.clientCertPath = some clientCertPath)
    (disk : Disk) : tls.certificateOn disk = disk clientCertPath := by
  rw [TlsConfig.certificateOn, certified, Option.bind_some]

theorem SameFiles.pair (same : SameFiles tls.files disk after) :
    tls.keyOn after = tls.keyOn disk ∧ tls.certificateOn after = tls.certificateOn disk := by
  constructor
  · cases keyed : present tls.clientKeyPath with
    | none => rw [TlsConfig.keyOn, TlsConfig.keyOn, keyed, Option.bind_none, Option.bind_none]
    | some path => rw [keyOn_eq keyed, keyOn_eq keyed, same _ (TlsConfig.key_mem (present_eq_some keyed))]
  · cases certified : present tls.clientCertPath with
    | none => rw [TlsConfig.certificateOn, TlsConfig.certificateOn, certified, Option.bind_none, Option.bind_none]
    | some path =>
      rw [certificateOn_eq certified, certificateOn_eq certified,
        same _ (TlsConfig.certificate_mem (present_eq_some certified))]

/-- Where only the key was written, the certificate is the one that was there. -/
theorem certificateOn_of_others {clientKeyPath : JsString} (keyed : present tls.clientKeyPath = some clientKeyPath)
    (others : ∀ file ∈ tls.files, file ≠ clientKeyPath → after file = disk file) :
    tls.certificateOn after = tls.certificateOn disk := by
  cases certified : present tls.clientCertPath with
  | none => rw [TlsConfig.certificateOn, TlsConfig.certificateOn, certified, Option.bind_none, Option.bind_none]
  | some path =>
    have apart := TlsConfig.certificate_ne_key (present_eq_some keyed) (present_eq_some certified)
    rw [certificateOn_eq certified, certificateOn_eq certified,
      others _ (TlsConfig.certificate_mem (present_eq_some certified)) apart]

end Responses

/-! ## Samples -/

section Samples

/-- A certificate that names its key. -/
def sampleTools : CertificateTools where
  dirname _ := js "/etc/rsagent"
  parseCertificate _ := .ok ()
  parsePrivateKey _ := .ok ()
  checkPrivateKey certificatePem privateKeyPem := certificatePem = js "certificate of " ++ privateKeyPem

def sampleTls : TlsConfig where
  clientCertPath := some (js "/etc/rsagent/client.crt")
  clientKeyPath := some (js "/etc/rsagent/client.key")
  caCertPath := none
  apart := by decide

/-- The worker has asked for a certificate of its second key. -/
def sampleRenewer : Renewer where
  enabled := true
  timer := false
  responseTimer := true
  pendingPrivateKeyPem := some (js "key 2")
  stopped := false

def sampleResponse : CertificateRenewalResponse where
  success := true
  errorDetail := []
  certificatePem := js "certificate of key 2"
  caCertificatePem := js "authority"
  notAfter := none

def sampleDisk : Disk := fun path =>
  if path = js "/etc/rsagent/client.key" then some (js "key 1")
  else if path = js "/etc/rsagent/client.crt" then some (js "certificate of key 1")
  else none

/-- Every operation works, but for one that would write what does not fit. -/
def fileWorld (unfit : Option JsString) (disk : Disk) : (call : FileCall) → Option (FileAnswer call × Disk)
  | .mkdir _ => some (.ok (), disk)
  | .temporary _ => some (js "/etc/rsagent/.0123456789abcdef.tmp", disk)
  | .writeNew path contents _ =>
    if unfit = some contents then some (.error (js "ENOSPC: no space left on device"), disk)
    else if disk path = none then some (.ok (), Function.update disk path (some contents))
    else none
  | .chmod _ _ => some (.ok (), disk)
  | .rename path target =>
    (disk path).map fun contents => (.ok (), Function.update (Function.update disk path none) target (some contents))
  | .unlink path => some (.ok (), Function.update disk path none)

theorem fileWorld_does {unfit : Option JsString} (disk : Disk) (call : FileCall) (answer : FileAnswer call)
    (after : Disk)
    (answered : fileWorld unfit disk call = some (answer, after)) : call.Does sampleTls.files disk answer after := by
  cases call with
  | mkdir | chmod | unlink =>
    cases answered
    rfl
  | temporary dir =>
    cases answered
    have beside : js "/etc/rsagent/.0123456789abcdef.tmp" ∉ sampleTls.files := by decide
    exact ⟨beside, rfl⟩
  | writeNew path contents mode =>
    simp only [fileWorld] at answered
    split at answered
    · cases answered
      exact .inl rfl
    · obtain ⟨free, same⟩ := Option.ite_none_right_eq_some.mp answered
      cases same
      exact ⟨free, rfl⟩
  | rename path target =>
    obtain ⟨contents, found, same⟩ := Option.map_eq_some_iff.mp answered
    cases same
    exact ⟨contents, found, rfl⟩

def sampleInstallation (unfit : Option JsString) :
    Option (List (Exchange FileAnswer) × Disk × Except JsString (Renewer × Bool)) :=
  playAlone (fileWorld unfit) sampleDisk (onResponse sampleTools sampleTls sampleRenewer sampleResponse)

theorem alone_sampleInstallation {unfit : Option JsString} {transcript : List (Exchange FileAnswer)} {after : Disk}
    {ended : Except JsString (Renewer × Bool)} (played : sampleInstallation unfit = some (transcript, after, ended)) :
    Alone (FileCall.Does sampleTls.files) sampleDisk (onResponse sampleTools sampleTls sampleRenewer sampleResponse)
      transcript after ended :=
  alone_of_playAlone fileWorld_does played

end Samples

end RemoteSqlAgent
