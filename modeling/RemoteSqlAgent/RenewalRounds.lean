import RemoteSqlAgent.PairInstallation
import RemoteSqlAgent.WorkerTables

/-! The renewals of one worker, with both of their ends. The worker's requests wait in the
queues of its sessions, also of those it has left; the control plane stores a certificate
and revokes others; and the worker installs what meets the key that it holds. -/
namespace RemoteSqlAgent
open Js CallProgram

/-- A certificate of the worker, as the control plane has it. -/
structure MtlsCredential where
  id : JsString
  /-- The key it is for, by the text that the worker keeps of it. -/
  privateKeyPem : JsString
  revoked : Bool

/-- What the control plane answers: a certificate for a key, or nothing. -/
inductive RenewalReply where
  | issued (id privateKeyPem : JsString)
  | refused

/-- A session as the control plane has it. It goes on with its queue when the worker has
left it. -/
structure RenewalSession where
  /-- What authenticated it. -/
  credentialId : JsString
  /-- The requests that wait, by the keys to be certified. -/
  queue : List JsString
  /-- The transaction under way: its key, and what it revokes. -/
  renewal : Option (JsString × List JsString)
  replies : List RenewalReply

structure RenewalSystem where
  credentials : List MtlsCredential
  sessions : List RenewalSession
  /-- The session that the worker is on. -/
  current : Option Nat
  renewer : Renewer
  /-- The credential whose certificate is on the worker's disk. -/
  installed : JsString
  /-- The keys that were ever generated. -/
  keys : List JsString

/-- How far an installation gets: not to the certificate, not to the end, or there. -/
inductive InstallOutcome where
  | untouched
  | unfinished
  | done

/-- What can happen next. -/
inductive RenewalEvent where
  /-- A session is accepted with the certificate on disk. -/
  | connect
  | ready (plan : RenewalPlan) (generated : Option JsString) (accepted : Bool)
  | disconnect
  | timerFired (generated : Option JsString) (accepted : Bool)
  | responseTimedOut
  /-- A session takes up its next request, and chooses what to revoke. -/
  | begin (session : Nat)
  /-- It stores the certificate and revokes what it chose. It is answered if that could be
  audited. -/
  | commit (session : Nat) (id : JsString) (audited : Bool)
  | abort (session : Nat)
  /-- It refuses its next request. -/
  | refuse (session : Nat)
  /-- The worker hears the next reply of its session. -/
  | receive (outcome : InstallOutcome)
  | stop

/-- Certificates revoked by their ids. -/
def revokeAll (ids : List JsString) (credentials : List MtlsCredential) : List MtlsCredential :=
  credentials.map fun credential => if credential.id ∈ ids then { credential with revoked := true } else credential

/-- The certificates that still open a session. -/
def liveIds (credentials : List MtlsCredential) : List JsString :=
  (credentials.filter fun credential => !credential.revoked).map (·.id)

namespace RenewalSystem

def live (system : RenewalSystem) : List JsString := liveIds system.credentials

def updateSession (system : RenewalSystem) (session : Nat) (change : RenewalSession → RenewalSession) : RenewalSystem :=
  { system with sessions := system.sessions.modify session change }

/-- The renewer goes on, and what it sends waits in the queue of the worker's session. -/
def after (system : RenewalSystem) (renewer : Renewer × Option JsString) : RenewalSystem :=
  let changed := { system with renewer := renewer.1, keys := system.keys ++ renewer.2.toList }
  match system.current with
  | none => changed
  | some session => changed.updateSession session fun row => { row with queue := row.queue ++ renewer.2.toList }

/-- What a reply comes to at the worker. -/
def hear (system : RenewalSystem) (reply : RenewalReply) (outcome : InstallOutcome) : RenewalSystem :=
  let retry := { system with renewer := system.renewer.answered.scheduleRetry }
  if !system.renewer.enabled ∨ system.renewer.stopped then system
  else
    match present system.renewer.pendingPrivateKeyPem, reply with
    | none, _ => { system with renewer := system.renewer.answered }
    | some _, .refused => retry
    | some privateKeyPem, .issued id certified =>
      if certified ≠ privateKeyPem then retry
      else
        match outcome with
        | .untouched => retry
        | .unfinished => { retry with installed := id }
        -- The worker reconnects.
        | .done => { system with renewer := system.renewer.answered.onDisconnect, current := none, installed := id }

def on (system : RenewalSystem) : RenewalEvent → RenewalSystem
  | .connect =>
    { system with
      sessions := system.sessions ++ [⟨system.installed, [], none, []⟩]
      current := some system.sessions.length }
  | .ready plan generated accepted => system.after (system.renewer.onSessionReady plan generated accepted)
  | .disconnect => { system with current := none, renewer := system.renewer.onDisconnect }
  | .timerFired generated accepted => system.after (system.renewer.requestRenewal generated accepted)
  | .responseTimedOut => { system with renewer := system.renewer.responseTimedOut }
  | .begin session => system.updateSession session fun row =>
    { row with
      queue := row.queue.tail
      renewal := row.queue.head?.map fun key => (key, system.live.filter (· ≠ row.credentialId)) }
  | .commit session id audited =>
    match (system.sessions[session]?).bind (·.renewal) with
    | none => system
    | some (key, retired) =>
      { system.updateSession session fun row => { row with
          renewal := none
          replies := row.replies ++ [if audited then .issued id key else .refused] } with
        credentials := revokeAll retired system.credentials ++ [⟨id, key, false⟩] }
  | .abort session => system.updateSession session fun row =>
    { row with renewal := none, replies := row.replies ++ [.refused] }
  | .refuse session => system.updateSession session fun row =>
    { row with queue := row.queue.tail, replies := row.replies ++ [.refused] }
  | .receive outcome =>
    match system.current.bind fun session => (system.sessions[session]?).bind (·.replies.head?) with
    | none => system
    | some reply => (match system.current with
      | none => system
      | some session => system.updateSession session fun row =>
        { row with replies := row.replies.tail }).hear reply outcome
  | .stop => { system with renewer := system.renewer.stop }

end RenewalSystem

namespace RenewalEvent

/-- A key that is generated is a new one, and is sent on a session that there is. -/
def Fresh (system : RenewalSystem) (generated : Option JsString) (accepted : Bool) : Prop :=
  (∀ key ∈ generated, key ∉ system.keys) ∧ (accepted = true → system.current.isSome = true)

/-- Whether it can happen now. -/
def Enabled (system : RenewalSystem) : RenewalEvent → Prop
  | connect => system.current = none ∧ system.installed ∈ system.live
  | ready _ generated accepted => system.current.isSome = true ∧ Fresh system generated accepted
  | disconnect => system.current.isSome = true
  | timerFired generated accepted => system.renewer.timer = true ∧ Fresh system generated accepted
  | responseTimedOut => system.renewer.responseTimer = true
  | begin session | refuse session =>
    ∃ row, system.sessions[session]? = some row ∧ row.queue ≠ [] ∧ row.renewal = none
  | commit session id _ => (∃ row, system.sessions[session]? = some row ∧ row.renewal.isSome = true) ∧
    id ∉ system.credentials.map (·.id)
  | abort session => ∃ row, system.sessions[session]? = some row ∧ row.renewal.isSome = true
  | receive _ => ∃ session row, system.current = some session ∧ system.sessions[session]? = some row ∧ row.replies ≠ []
  | stop => True

end RenewalEvent

/-! ## What it stands for -/

section Tables
variable {keyOf : Option JsString → JsString} {tables : WorkerTables} {workerId current id : JsString}

/-- The certificates of a worker, by its table. -/
def WorkerTables.mtlsCredentials (tables : WorkerTables) (keyOf : Option JsString → JsString) (workerId : JsString) :
    List MtlsCredential :=
  (tables.workerCredentials.filter fun row => row.workerId = workerId ∧ row.mode = .mtls).map fun row =>
    ⟨row.id, keyOf row.certPem, row.revokedAt.isSome⟩

/-- Rows that are changed where they stand are found where they were. -/
theorem filter_updateWhere_same {Row : Type} {rows : List Row} {test mine : Row → Bool} {change : Row → Row}
    (same : ∀ row, mine (change row) = mine row) :
    (updateWhere rows test change).filter mine = updateWhere (rows.filter mine) test change := by
  rw [updateWhere, updateWhere, List.filter_map]
  congr 1
  refine List.filter_congr fun row _ => ?_
  rw [Function.comp_apply]
  split
  · exact same row
  · rfl

/-- The transaction of a renewal that nothing comes between. -/
theorem mtlsCredentials_storeRenewal (issued : IssuedCertificate) (now : Int)
    (new : ∀ row ∈ tables.workerCredentials, row.id ≠ id) :
    (tables.storeRenewal workerId current id issued now).mtlsCredentials keyOf workerId =
      revokeAll ((liveIds (tables.mtlsCredentials keyOf workerId)).filter (· ≠ current))
        (tables.mtlsCredentials keyOf workerId) ++ [⟨id, keyOf (some issued.certificatePem), false⟩] := by
  unfold WorkerTables.mtlsCredentials WorkerTables.storeRenewal
  dsimp only
  rw [filter_updateWhere_same, List.filter_append, updateWhere, List.map_append, List.map_append, List.map_map,
    revokeAll]
  · congr 1
    · rw [List.map_map]
      refine List.map_congr_left fun row member => ?_
      obtain ⟨there, mine⟩ := List.mem_filter.mp member
      obtain ⟨ofWorker, mtls⟩ := of_decide_eq_true mine
      have other := new row there
      cases revoked : row.revokedAt with
      | some time => simp [Function.comp_apply, revoked]
      | none =>
        have valid : row.id ∈ liveIds ((tables.workerCredentials.filter fun row =>
            decide (row.workerId = workerId ∧ row.mode = .mtls)).map fun row =>
              ⟨row.id, keyOf row.certPem, row.revokedAt.isSome⟩) := by
          refine List.mem_map.mpr ⟨⟨row.id, keyOf row.certPem, row.revokedAt.isSome⟩, List.mem_filter.mpr ⟨?_, ?_⟩, rfl⟩
          · exact List.mem_map.mpr ⟨row, member, rfl⟩
          · rw [revoked]
            rfl
        by_cases mineNow : row.id = current
        · simp [Function.comp_apply, revoked, mineNow]
        · simp only [Function.comp_apply, ofWorker, mtls, revoked, other, mineNow, ne_eq, not_false_eq_true, and_self,
            decide_true, if_true, List.mem_filter, valid, Option.isSome_some]
    · simp [WorkerTables.renewedCredential]
  · exact fun _ => rfl

end Tables

section Responses
variable {tools : CertificateTools} {tls : TlsConfig} {system : RenewalSystem} {reply : RenewalReply}
  {response : CertificateRenewalResponse} {disk after : Disk} {transcript : List (Exchange FileAnswer)}
  {renewer : Renewer}
  {reconnects : Bool}

/-- The response says what the reply does. A certificate is for one key. -/
def Conveys (tools : CertificateTools) (response : CertificateRenewalResponse) : RenewalReply → Prop
  | .refused => response.success = false
  | .issued _ certified => response.success = true ∧ response.certificatePem ≠ [] ∧
    ∀ privateKeyPem, tools.checkPrivateKey response.certificatePem privateKeyPem = true → privateKeyPem = certified

/-- What the disk has is what is installed: the certificate of before, or that of the reply. -/
def Corresponds (tls : TlsConfig) (system next : RenewalSystem) (reply : RenewalReply)
    (response : CertificateRenewalResponse)
    (disk after : Disk) : Prop :=
  (tls.certificateOn after = tls.certificateOn disk ∧ next.installed = system.installed) ∨
    (tls.certificateOn after = some response.certificatePem ∧ ∃ certified, reply = .issued next.installed certified)

/-- The worker hears a certificate as far as it could be installed. -/
theorem hear_of_installed {id certified privateKeyPem : JsString} {renamed : List JsString}
    {caught : Except JsString Unit} (conveys : Conveys tools response (.issued id certified))
    (working : ¬ (!system.renewer.enabled ∨ system.renewer.stopped))
    (held : present system.renewer.pendingPrivateKeyPem = some privateKeyPem)
    (spec : Installed tls response.certificatePem privateKeyPem disk after renamed caught)
    (checked : renamed ≠ [] → tools.checkPrivateKey response.certificatePem privateKeyPem = true) :
    ∃ outcome,
      (system.hear (.issued id certified) outcome).renewer =
        (if caught.isOk then system.renewer.answered.onDisconnect else system.renewer.answered.scheduleRetry) ∧
      Corresponds tls system (system.hear (.issued id certified) outcome) (.issued id certified) response disk
        after := by
  have untouched : system.hear (.issued id certified) .untouched =
      { system with renewer := system.renewer.answered.scheduleRetry } := by
    simp only [RenewalSystem.hear, working, if_false, held]
    split <;> rfl
  have kept : ∀ message, caught = .error message → tls.certificateOn after = tls.certificateOn disk →
      ∃ outcome,
        (system.hear (.issued id certified) outcome).renewer =
          (if caught.isOk then system.renewer.answered.onDisconnect else system.renewer.answered.scheduleRetry) ∧
        Corresponds tls system (system.hear (.issued id certified) outcome) (.issued id certified) response disk
          after := by
    rintro message rfl same
    refine ⟨.untouched, ?_, .inl ⟨same, ?_⟩⟩ <;> rw [untouched]
    rfl
  cases spec with
  | untouched message same => exact kept message rfl same.pair.2
  | torn message keyed written others => exact kept message rfl (certificateOn_of_others keyed others)
  | replaced _ keyed isThere written certificate =>
    have match_ : ¬ certified ≠ privateKeyPem :=
      not_not.mpr (conveys.2.2 _ (checked (List.cons_ne_nil _ _))).symm
    have there : tls.certificateOn after = some response.certificatePem := by
      rw [certificateOn_eq isThere, certificate]
    cases caught with
    | error message =>
      have unfinished : system.hear (.issued id certified) .unfinished =
          { system with renewer := system.renewer.answered.scheduleRetry, installed := id } := by
        simp only [RenewalSystem.hear, working, if_false, held, if_neg match_]
      refine ⟨.unfinished, ?_, .inr ⟨there, certified, ?_⟩⟩ <;> rw [unfinished]
      rfl
    | ok _ =>
      have done_ : system.hear (.issued id certified) .done =
          { system with
            renewer := system.renewer.answered.onDisconnect, current := none, installed := id } := by
        simp only [RenewalSystem.hear, working, if_false, held, if_neg match_]
      refine ⟨.done, ?_, .inr ⟨there, certified, ?_⟩⟩ <;> rw [done_]
      rfl

/-- The worker hears replies as its handler does, and then reconnects. -/
theorem hear_of_onResponse (conveys : Conveys tools response reply)
    (alone : Alone (FileCall.Does tls.files) disk (onResponse tools tls system.renewer response) transcript after
      (.ok (renewer, reconnects))) :
    ∃ outcome, (system.hear reply outcome).renewer = (if reconnects then renewer.onDisconnect else renewer) ∧
      Corresponds tls system (system.hear reply outcome) reply response disk after := by
  unfold onResponse at alone
  split at alone
  · rename_i idle
    obtain ⟨-, rfl, same⟩ := alone_done.mp alone
    cases same
    have heard : system.hear reply .untouched = system := if_pos idle
    exact ⟨.untouched, by rw [heard]; rfl, .inl ⟨rfl, by rw [heard]⟩⟩
  · rename_i working
    split at alone
    · rename_i free
      obtain ⟨-, rfl, same⟩ := alone_done.mp alone
      cases same
      have heard : system.hear reply .untouched = { system with renewer := system.renewer.answered } := by
        cases reply <;> simp only [RenewalSystem.hear, working, if_false, free]
      exact ⟨.untouched, by rw [heard]; rfl, .inl ⟨rfl, by rw [heard]⟩⟩
    · rename_i privateKeyPem held
      split at alone
      · rename_i refused
        obtain ⟨-, rfl, same⟩ := alone_done.mp alone
        cases same
        cases reply with
        | refused =>
          have heard :
              system.hear .refused .untouched = { system with renewer := system.renewer.answered.scheduleRetry } := by
            simp only [RenewalSystem.hear, working, if_false, held]
          exact ⟨.untouched, by rw [heard]; rfl, .inl ⟨rfl, by rw [heard]⟩⟩
        | issued id certified =>
          rcases refused with failed | empty
          · cases failed.symm.trans conveys.1
          · exact absurd empty conveys.2.1
      · rename_i usable
        cases reply with
        | refused => exact absurd (.inl conveys) usable
        | issued id certified =>
          rcases alone_bind.mp alone with ⟨error, -, same⟩ | ⟨caught, middle, first, second, rfl, attempted, onward⟩
          · cases same
          · obtain ⟨inner, installed, same⟩ := alone_attempt.mp attempted
            cases same
            obtain ⟨spec, checked⟩ := alone_install installed
            have heard := hear_of_installed conveys working held spec checked
            cases caught with
            | error message | ok _ =>
              obtain ⟨-, rfl, ends⟩ := alone_done.mp onward
              cases ends
              exact heard

end Responses

structure RenewalStep where
  before : RenewalSystem
  event : RenewalEvent
  after : RenewalSystem

/-- The worker starts with a certificate that is not revoked. -/
structure Enrolled (system : RenewalSystem) : Prop where
  sessions : system.sessions = []
  current : system.current = none
  pending : system.renewer.pendingPrivateKeyPem = none
  installed : system.installed ∈ system.live
  distinct : (system.credentials.map (·.id)).Nodup
  keys : ∀ credential ∈ system.credentials, credential.privateKeyPem ∈ system.keys

/-- The runs of a worker and its control plane. -/
inductive Renews (initial : RenewalSystem) : RenewalSystem → List RenewalStep → Prop where
  | start : Renews initial initial []
  | event {system : RenewalSystem} {run : List RenewalStep} (renews : Renews initial system run) (event : RenewalEvent)
      (enabled : event.Enabled system) : Renews initial (system.on event) (run ++ [⟨system, event, system.on event⟩])

end RemoteSqlAgent
