import RemoteSqlAgent.Session

/-! A control plane that was taken over gets no further than the worker's own
ceiling, and with a pinned key no further than the holder of that key. What the
session holds is bounded after every message; a handling keeps what it read, and
says nothing to msdb before its gates are passed. -/
namespace RemoteSqlAgent
open Js CallProgram

/-- The bound on what a session may decide, whoever is at the other end. -/
structure Bounded (crypto : Crypto) (config : WorkerConfig) (context : CommandContext) : Prop where
  capped : context.capabilities ⊆ MAX_CAPABILITY_TIERS config.maxCapability
  /-- An empty key is under no pin. No command passes with it. -/
  pinned : context.commandSigningPublicKey ≠ [] → ∀ pinned ∈ config.commandSigningKeyFingerprint,
    signingKeyFingerprint crypto context.commandSigningPublicKey = toLowerCase pinned

namespace Session

variable {session : Session} {crypto : Crypto} {config : WorkerConfig}

/-! ## Connecting and disconnecting -/

@[simp] theorem connect_commandContext : session.connect.commandContext = session.commandContext := by
  unfold connect
  split <;> rfl

@[simp] theorem scheduleReconnect_commandContext :
    session.scheduleReconnect.commandContext = session.commandContext := by
  unfold scheduleReconnect
  split <;> rfl

@[simp] theorem handleDisconnect_commandContext :
    session.handleDisconnect.commandContext = session.commandContext := by
  simp only [handleDisconnect]
  split
  · rfl
  · split
    · rfl
    · exact scheduleReconnect_commandContext

/-- Only an acknowledgement decides anything. -/
theorem on_commandContext (event : Event) : (session.on event).commandContext = session.commandContext := by
  cases event with
  | start => exact connect_commandContext
  | stop => rfl
  | reconnect =>
    simp only [on, reconnect]
    split
    · rfl
    · exact handleDisconnect_commandContext
  | dialed greeted =>
    simp only [on, dialed]
    split
    · rfl
    · exact scheduleReconnect_commandContext
  | dialFailed => exact scheduleReconnect_commandContext
  | timerFired => exact connect_commandContext
  | ended stream =>
    simp only [on, ended]
    split
    · exact handleDisconnect_commandContext
    · rfl

/-! ## Acknowledgements -/

theorem new_bounded : Bounded crypto config new.commandContext where
  capped := List.cons_subset.mpr ⟨observe_mem_tier _, List.nil_subset _⟩
  pinned keyed := absurd rfl keyed

/-- A pin is never empty, so it is not taken for none. -/
theorem refusesKey_eq_false {publicKeyPem : JsString} (accepted : refusesKey crypto config publicKeyPem = false)
    (keyed : publicKeyPem ≠ []) {pinned : JsString} (pin : pinned ∈ config.commandSigningKeyFingerprint) :
    signingKeyFingerprint crypto publicKeyPem = toLowerCase pinned := by
  have spelled : pinned ≠ [] := by
    intro empty
    have length := (config.fingerprint pinned pin).1
    rw [empty] at length
    cases length
  rw [Option.mem_def] at pin
  simp only [refusesKey, pin, Option.getD_some, spelled, keyed, ne_eq, not_false_eq_true, decide_true,
    Bool.true_and, decide_not, Bool.not_eq_false', decide_eq_true_eq] at accepted
  exact accepted

theorem onHelloAck_capabilities (ack : HelloAck) : (session.onHelloAck crypto config ack).capabilities =
    effectiveCapabilities ack.capabilities config.maxCapability := by
  simp only [onHelloAck, ceilingOf_text]
  split
  · exact congrArg CommandContext.capabilities handleDisconnect_commandContext
  · rfl

/-- A key that is refused leaves the last one. -/
theorem onHelloAck_commandSigningPublicKey (ack : HelloAck) :
    (session.onHelloAck crypto config ack).commandSigningPublicKey =
      if refusesKey crypto config ack.commandSigningPublicKey then session.commandSigningPublicKey
      else ack.commandSigningPublicKey := by
  simp only [onHelloAck]
  split
  · exact congrArg CommandContext.commandSigningPublicKey handleDisconnect_commandContext
  · rfl

theorem onHelloAck_bounded (bounded : Bounded crypto config session.commandContext) (ack : HelloAck) :
    Bounded crypto config (session.onHelloAck crypto config ack).commandContext where
  capped := by
    change (session.onHelloAck crypto config ack).capabilities ⊆ _
    rw [onHelloAck_capabilities]
    exact effectiveCapabilities_subset _ _
  pinned := by
    change (session.onHelloAck crypto config ack).commandSigningPublicKey ≠ [] → ∀ pinned ∈ _,
      signingKeyFingerprint crypto (session.onHelloAck crypto config ack).commandSigningPublicKey = _
    rw [onHelloAck_commandSigningPublicKey]
    cases refused : refusesKey crypto config ack.commandSigningPublicKey with
    | true => exact bounded.pinned
    | false => exact fun keyed pinned pin => refusesKey_eq_false refused keyed pin

theorem onData_bounded (bounded : Bounded crypto config session.commandContext) (stream : Nat)
    (message : Option ServerMessage) :
    Bounded crypto config (session.onData crypto config stream message).1.commandContext := by
  unfold onData
  split
  · exact bounded
  · cases message with
    | none => exact bounded
    | some message =>
      cases message with
      | helloAck ack => exact onHelloAck_bounded bounded ack
      | command | config | instanceConfigs | certificateRenewal => exact bounded

/-- What the worker derives from an honest acknowledgement is what the control
plane computed. -/
theorem onData_hubAck {stream : Nat} (current : session.stream = some stream) (granted : List JsString)
    (publicKeyPem : JsString) :
    (session.onData crypto config stream
      (some (.helloAck (hubAck granted publicKeyPem (buildHello config))))).1.capabilities =
      hubCapabilities granted (buildHello config) := by
  simp only [onData, current, ne_eq, not_true_eq_false, ↓reduceIte, onHelloAck_capabilities, hubAck,
    hubCapabilities, buildHello, ceilingOf_text]
  exact effectiveCapabilities_idempotent granted config.maxCapability

end Session

/-! ## Handlings -/

section
variable {runtime : Runtime} {config : WorkerConfig}

/-- A handling reads a bounded session, and is admitted before it says anything
to msdb. -/
structure Handling.Covered (runtime : Runtime) (config : WorkerConfig) (handling : Handling) : Prop where
  bounded : Bounded runtime.crypto config handling.context
  admitted : handling.transcript ≠ [] →
    Admitted runtime handling.command handling.context handling.clock.checkedAt

/-- While it runs, a call it is about to make is admitted as well. What was said
with what is left is a run of the whole. -/
structure Running.Covered (runtime : Runtime) (config : WorkerConfig) (running : Running) : Prop
    extends running.toHandling.Covered runtime config where
  calls : ∀ request next, running.rest = .call request next →
    Admitted runtime running.command running.context running.clock.checkedAt
  resumes : ∃ outbox, ∀ later ended, Runs running.rest later ended →
    Runs (handleCommand runtime running.command running.context running.clock outbox)
      (running.transcript ++ later) ended

/-- The handling is a whole run, on the outbox it found. -/
def Handling.Ran (runtime : Runtime) (handling : Handling) : Prop :=
  ∃ outbox ended, Runs (handleCommand runtime handling.command handling.context handling.clock outbox)
    handling.transcript (.ok ended)

/-- Behind a closed gate there is no call. -/
theorem handleCommand_call {command : Command} {context : CommandContext} {clock : Clock} {outbox : Outbox}
    {request : SqlCall} {next : SqlAnswer request → Sql (Except Failure CommandResult × Outbox)}
    (calls : handleCommand runtime command context clock outbox = .call request next) :
    Admitted runtime command context clock.checkedAt := by
  cases passed : gates runtime command context outbox clock.checkedAt with
  | none => exact (gates_eq_none.mp passed).1
  | some early =>
    simp only [handleCommand, evaluateAndApply, passed] at calls
    cases calls

/-- What a bounded context and open gates come to. -/
theorem Handling.Covered.within {handling : Handling} (covered : handling.Covered runtime config)
    (spoken : handling.transcript ≠ []) :
    (∃ required, property (commandKind handling.command.toObject) COMMAND_CAPABILITY = some required ∧
      required ∈ MAX_CAPABILITY_TIERS config.maxCapability) ∧
    ∀ pinned ∈ config.commandSigningKeyFingerprint, ∃ publicKeyPem bytes issuedAt,
      signingKeyFingerprint runtime.crypto publicKeyPem = toLowerCase pinned ∧
      commandSigningBytes runtime.crypto handling.command.toObject = .ok bytes ∧
      runtime.crypto.verifies publicKeyPem bytes handling.command.signature = true ∧
      fromTimestamp handling.command.issuedAt = some issuedAt ∧
      isCommandFresh issuedAt handling.clock.checkedAt = true := by
  obtain ⟨keyed, signed, ⟨issuedAt, timed, fresh⟩, required, permitted, named⟩ := covered.admitted spoken
  refine ⟨⟨required, named, covered.bounded.capped permitted⟩, fun pinned pin => ?_⟩
  obtain ⟨bytes, encoded, verified⟩ := verifyCommandSignature_eq_ok_true _ signed
  exact ⟨_, bytes, issuedAt, covered.bounded.pinned keyed pinned pin, encoded, verified, timed, fresh⟩

/-! ## Runs of the process -/

namespace Process

variable {process : Process}

/-- The invariant of the process. -/
structure Safe (runtime : Runtime) (config : WorkerConfig) (process : Process) : Prop where
  session : Bounded runtime.crypto config process.session.commandContext
  running : ∀ running ∈ process.running, running.Covered runtime config
  handled : ∀ handling ∈ process.handled, handling.Covered runtime config ∧ handling.Ran runtime

theorem start_safe (outbox : Outbox) : Safe runtime config (start outbox) where
  session := Session.new_bounded
  running := by simp [start]
  handled := by simp [start]

theorem onMessage_safe (safe : Safe runtime config process) (message : Option ServerMessage) :
    Safe runtime config (process.onMessage message) := by
  unfold onMessage
  split
  · exact ⟨safe.session, safe.running, safe.handled⟩
  · exact safe

theorem begin_covered (safe : Safe runtime config process) (command : Command) (clock : Clock) :
    (process.begin runtime command clock).Covered runtime config where
  bounded := safe.session
  admitted spoken := absurd rfl spoken
  calls _ _ same := handleCommand_call same
  resumes := ⟨process.outbox, fun _ _ run => run⟩

theorem answered_covered {handling : Handling} {request : SqlCall}
    {next : SqlAnswer request → Sql (Except Failure CommandResult × Outbox)}
    (covered : Running.Covered runtime config ⟨handling, .call request next⟩) (answer : SqlAnswer request) :
    (handling.answered answer (next answer)).Covered runtime config where
  bounded := covered.bounded
  admitted _ := covered.calls _ _ rfl
  calls _ _ _ := covered.calls _ _ rfl
  resumes := by
    obtain ⟨outbox, resumes⟩ := covered.resumes
    refine ⟨outbox, fun later ended run => ?_⟩
    have whole := resumes _ ended (.call answer run)
    rwa [List.append_cons] at whole

theorem Step.safe {next : Process} (step : Step runtime config process next)
    (safe : Safe runtime config process) : Safe runtime config next := by
  cases step with
  | event event enabled =>
    exact { session := (Session.on_commandContext event).symm ▸ safe.session
            running := safe.running
            handled := safe.handled }
  | data stream message =>
    apply onMessage_safe
    exact ⟨Session.onData_bounded safe.session stream message, safe.running, safe.handled⟩
  | unavailable idle next => exact ⟨safe.session, safe.running, safe.handled⟩
  | begin clock idle next =>
    refine ⟨safe.session, fun running member => ?_, safe.handled⟩
    cases member
    exact begin_covered safe _ clock
  | exchange answer running =>
    refine ⟨safe.session, fun later member => ?_, safe.handled⟩
    cases member
    exact answered_covered (safe.running _ running) answer
  | finish running =>
    refine ⟨safe.session, by simp, fun handling member => ?_⟩
    rcases List.mem_append.mp member with before | last
    · exact safe.handled handling before
    · rw [List.mem_singleton.mp last]
      obtain ⟨outbox, resumes⟩ := (safe.running _ running).resumes
      exact ⟨(safe.running _ running).toCovered, outbox, _, by simpa using resumes [] _ (.done _)⟩
  | heartbeat now idle => exact ⟨safe.session, safe.running, safe.handled⟩

/-- Every process that can be reached is safe. -/
theorem Reachable.safe (reached : process.Reachable runtime config) : Safe runtime config process := by
  obtain ⟨outbox, run⟩ := reached
  induction run with
  | refl => exact start_safe outbox
  | tail _ step ih => exact step.safe ih

/-- A handling that has ended is a run of `handleCommand`. -/
theorem Reachable.ran (reached : process.Reachable runtime config) {handling : Handling}
    (ended : handling ∈ process.handled) : handling.Ran runtime :=
  (reached.safe.handled handling ended).2

theorem Safe.handlings (safe : Safe runtime config process) {handling : Handling}
    (member : handling ∈ process.handlings) : handling.Covered runtime config := by
  rcases List.mem_append.mp member with ended | underWay
  · exact (safe.handled handling ended).1
  · obtain ⟨running, there, rfl⟩ := Option.map_eq_some_iff.mp (Option.mem_toList.mp underWay)
    exact (safe.running running there).toCovered

end Process

/-- **No control plane lifts a worker above its ceiling.** Whatever it sent, on
any streams and in any order: each command that said anything to msdb needed a
capability of the worker's own tier, and under a pin it was fresh and signed
with a key of the pinned fingerprint. An honest control plane and the worker
agree on what is in force. -/
theorem commands_within_ceiling {process : Process} (reached : process.Reachable runtime config) :
    (∀ handling ∈ process.handlings, handling.transcript ≠ [] →
      (∃ required, property (commandKind handling.command.toObject) COMMAND_CAPABILITY = some required ∧
        required ∈ MAX_CAPABILITY_TIERS config.maxCapability) ∧
      ∀ pinned ∈ config.commandSigningKeyFingerprint, ∃ publicKeyPem bytes issuedAt,
        signingKeyFingerprint runtime.crypto publicKeyPem = toLowerCase pinned ∧
        commandSigningBytes runtime.crypto handling.command.toObject = .ok bytes ∧
        runtime.crypto.verifies publicKeyPem bytes handling.command.signature = true ∧
        fromTimestamp handling.command.issuedAt = some issuedAt ∧
        isCommandFresh issuedAt handling.clock.checkedAt = true) ∧
    ∀ stream, process.session.stream = some stream → ∀ granted publicKeyPem,
      (process.session.onData runtime.crypto config stream
        (some (.helloAck (hubAck granted publicKeyPem (buildHello config))))).1.capabilities =
        hubCapabilities granted (buildHello config) := by
  refine ⟨fun handling member spoken => ?_, fun stream current granted publicKeyPem => ?_⟩
  · exact (reached.safe.handlings member).within spoken
  · exact Session.onData_hubAck current granted publicKeyPem

end

section Overreach

/-! A control plane grants more than the site allows, and has a job switched on.
The key it presents is the pinned one. -/

/-- The digest of the sample key is the real one. -/
def overreachRuntime : Runtime where
  crypto := {
    sha256 := fun bytes =>
      if bytes = utf8 (js "key") then "2c70e12b7a0646f92279f427c7b38e7334d8e5389cff167a1dc30e73f826b683"
      else sampleDigest bytes
    spkiDer := fun publicKeyPem => some (utf8 publicKeyPem)
    verifies := fun publicKeyPem _ signature => publicKeyPem = js "key" && signature = [1] }
  parseJson := toggleRuntime.parseJson
  jobSchemaMessage := toggleRuntime.jobSchemaMessage

def overreachPin : JsString := js "2C70E12B7A0646F92279F427C7B38E7334D8E5389CFF167A1DC30E73F826B683"

def overreachConfig : WorkerConfig where
  maxCapability := .operate
  commandSigningKeyFingerprint := some overreachPin
  fingerprint := by
    intro pinned pin
    cases pin
    decide +kernel

def overreachAck : HelloAck where
  capabilities := [js "job.toggle", js "job.write", js "everything"]
  commandSigningPublicKey := js "key"

/-- The session once the acknowledgement has come. -/
def overreachSession : Session :=
  (Session.new.start.dialed true).onHelloAck overreachRuntime.crypto overreachConfig overreachAck

theorem overreach_passes : gates overreachRuntime toggleCommand overreachSession.commandContext .empty
    toggleClock.checkedAt = none := by
  decide +kernel

/-- The job is being switched on. -/
theorem overreach_reachable : ∃ process : Process, process.Reachable overreachRuntime overreachConfig ∧
    ∃ handling ∈ process.handlings, handling.command = toggleCommand ∧ handling.transcript ≠ [] := by
  let waiting : Process := { Process.start .empty with session := overreachSession, queue := [toggleCommand] }
  have reached : Relation.ReflTransGen (Process.Step overreachRuntime overreachConfig) (.start .empty) waiting := by
    refine .tail (.tail (.tail (.single (.event .start trivial)) (.event (.dialed true) Nat.one_pos))
      (.data 0 (some (.helloAck overreachAck)))) ?_
    exact .data 0 (some (.command toggleCommand))
  obtain ⟨next, calls⟩ : ∃ next, handleCommand overreachRuntime toggleCommand overreachSession.commandContext
      toggleClock .empty = .call (.onPool (.execute .sp_update_job
        [(js "job_id", .string (js "j1")), (js "enabled", bit true)])) next := by
    simp only [handleCommand, evaluateAndApply, overreach_passes]
    exact ⟨_, rfl⟩
  let handling := (waiting.begin overreachRuntime toggleCommand toggleClock).toHandling
  have began : (waiting.begin overreachRuntime toggleCommand toggleClock) = ⟨handling, .call _ next⟩ :=
    congrArg (Running.mk handling) calls
  have reply : SqlAnswer (.onPool (.execute .sp_update_job
      [(js "job_id", .string (js "j1")), (js "enabled", bit true)])) := { result := .ok (), committed := true }
  refine ⟨_, ⟨.empty, .tail (.tail reached (.begin toggleClock rfl rfl)) (.exchange reply (congrArg some began))⟩, ?_⟩
  exact ⟨_, List.mem_append_right _ List.mem_cons_self, rfl, List.cons_ne_nil _ _⟩

theorem commands_within_ceiling_overreach : ∃ process : Process,
    process.Reachable overreachRuntime overreachConfig ∧ ∃ handling ∈ process.handlings,
      handling.command = toggleCommand ∧ handling.transcript ≠ [] ∧
      (∃ required, property (commandKind handling.command.toObject) COMMAND_CAPABILITY = some required ∧
        required ∈ MAX_CAPABILITY_TIERS .operate) ∧
      ∃ publicKeyPem, signingKeyFingerprint overreachRuntime.crypto publicKeyPem = toLowerCase overreachPin := by
  obtain ⟨process, reached, handling, member, same, spoken⟩ := overreach_reachable
  obtain ⟨within, signed⟩ := (commands_within_ceiling reached).1 handling member spoken
  obtain ⟨publicKeyPem, _, _, pinned, -⟩ := signed overreachPin rfl
  exact ⟨process, reached, handling, member, same, spoken, within, publicKeyPem, pinned⟩

end Overreach

end RemoteSqlAgent
