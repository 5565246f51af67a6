import RemoteSqlAgent.SessionLiveness

/-! Which clients stay open. A session closes the client it gives up, and what is not given
up is closed by `stop`. An attempt that goes on after its await looks at none of this: it
may find a session that was stopped, or one that another attempt has connected. -/
namespace RemoteSqlAgent
open Js

namespace Dialer
variable {dialer : Dialer}

/-- There is no open client but the one that the session holds. -/
def Tight (dialer : Dialer) : Prop :=
  dialer.openClients = [] ∨ ∃ client, dialer.client = some client ∧ dialer.openClients = [client]

theorem Tight.length (tight : dialer.Tight) : dialer.openClients.length ≤ 1 := by
  rcases tight with none | ⟨client, -, one⟩
  · simp [none]
  · simp [one]

/-- Closing the one that it holds closes them all. -/
theorem Tight.closed (tight : dialer.Tight) : dialer.closeClient.openClients = [] := by
  refine List.filter_eq_nil_iff.mpr fun client member => ?_
  rcases tight with none | ⟨held, holds, one⟩
  · rw [none] at member
    cases member
  · rw [one] at member
    cases List.mem_singleton.mp member
    simp [holds]

theorem Tight.scheduleReconnect (tight : dialer.Tight) : dialer.scheduleReconnect.Tight := by
  unfold Dialer.scheduleReconnect
  split
  · exact tight
  · exact .inl tight.closed

theorem Tight.handleDisconnect (tight : dialer.Tight) (reason : JsString) :
    (dialer.handleDisconnect reason).1.Tight := by
  unfold Dialer.handleDisconnect
  split
  · exact tight
  · dsimp only
    split
    · exact .inl tight.closed
    · exact Tight.scheduleReconnect (.inl tight.closed)

variable {crypto : Crypto} {config : WorkerConfig}

/-- No event but an attempt that goes on opens a client. -/
theorem Tight.on (tight : dialer.Tight) {event : DialEvent}
    (guarded : ∀ outcome, event = .resolved outcome → outcome.opensClient = true → dialer.openClients = []) :
    (dialer.on crypto config event).1.Tight := by
  cases event with
  | stop => exact .inl tight.closed
  | reconnect reason =>
    simp only [Dialer.on, reconnect]
    split
    · exact tight
    · exact tight.handleDisconnect reason
  | data stream message =>
    simp only [Dialer.on, onData]
    split
    · exact tight
    · cases message with
      | none => exact tight
      | some message =>
        cases message with
        | helloAck ack =>
          simp only [onHelloAck]
          split
          · refine Tight.handleDisconnect ?_ _
            exact tight
          · exact tight
        | command | config | instanceConfigs | certificateRenewal => exact tight
  | error stream message =>
    simp only [Dialer.on, onError]
    split
    · exact tight
    · exact tight.handleDisconnect _
  | ended stream =>
    simp only [Dialer.on, onEnd]
    split
    · exact tight
    · exact tight.handleDisconnect _
  | timerFired => exact tight
  | resolved outcome =>
    cases outcome with
    | noCredential =>
      refine Tight.scheduleReconnect ?_
      exact tight
    | noChannel => exact tight
    | noStream | noHello | opened =>
      have none := guarded _ rfl rfl
      refine .inr ⟨dialer.clients, rfl, ?_⟩
      rw [Dialer.on, resolved, openClient, none, List.nil_append]
  | caught =>
    refine Tight.scheduleReconnect ?_
    exact tight

/-! ## After `stop` -/

/-- The session is stopped, and nothing but an attempt can open anything. -/
structure Quiet (before after : Dialer) : Prop where
  stopped : after.session.stopped = true
  clients : after.clients = before.clients
  streams : after.session.streams = before.session.streams
  timers : after.timers ≤ before.timers

theorem quiet_scheduleReconnect (stopped : dialer.session.stopped = true) : Quiet dialer dialer.scheduleReconnect := by
  rw [Dialer.scheduleReconnect, if_pos (.inl stopped)]
  exact ⟨stopped, rfl, rfl, le_rfl⟩

theorem quiet_handleDisconnect (stopped : dialer.session.stopped = true) (reason : JsString) :
    Quiet dialer (dialer.handleDisconnect reason).1 := by
  unfold Dialer.handleDisconnect
  split
  · exact ⟨stopped, rfl, rfl, le_rfl⟩
  · dsimp only
    rw [if_pos stopped]
    exact ⟨stopped, rfl, rfl, le_rfl⟩

theorem quiet_on (stopped : dialer.session.stopped = true) {event : DialEvent}
    (guarded : ∀ outcome, event = .resolved outcome → outcome.opensClient = false) :
    Quiet dialer (dialer.on crypto config event).1 := by
  have same : Quiet dialer dialer := ⟨stopped, rfl, rfl, le_rfl⟩
  cases event with
  | stop =>
    refine ⟨rfl, rfl, rfl, ?_⟩
    simp only [Dialer.on, Dialer.stop]
    split
    · exact Nat.sub_le _ _
    · exact le_rfl
  | reconnect reason =>
    simp only [Dialer.on, reconnect]
    rw [if_pos stopped]
    exact same
  | data stream message =>
    simp only [Dialer.on, onData]
    split
    · exact same
    · cases message with
      | none => exact same
      | some message =>
        cases message with
        | helloAck ack =>
          simp only [onHelloAck]
          split
          · have told := @quiet_handleDisconnect { dialer with session := { dialer.session with
                capabilities := effectiveCapabilities ack.capabilities (ceilingOf config.maxCapability.text) } }
              stopped (js "command signing key did not match the pin")
            exact ⟨told.stopped, told.clients, told.streams, told.timers⟩
          · exact ⟨stopped, rfl, rfl, le_rfl⟩
        | command | config | instanceConfigs | certificateRenewal => exact same
  | error stream message =>
    simp only [Dialer.on, onError]
    split
    · exact same
    · exact quiet_handleDisconnect stopped _
  | ended stream =>
    simp only [Dialer.on, onEnd]
    split
    · exact same
    · exact quiet_handleDisconnect stopped _
  | timerFired =>
    have there : dialer.session.timerFired = { dialer.session with reconnectTimer := .none } := by
      rw [Session.timerFired, Session.connect, if_pos stopped]
    refine ⟨?_, rfl, ?_, Nat.sub_le _ _⟩
    · rw [Dialer.on, timerFired, there]
      exact stopped
    · rw [Dialer.on, timerFired, there]
  | resolved outcome =>
    have closed := guarded outcome rfl
    cases outcome with
    | noCredential =>
      have tried := @quiet_scheduleReconnect
        { dialer with session := { dialer.session with dialing := dialer.session.dialing - 1 } } stopped
      exact ⟨tried.stopped, tried.clients, tried.streams, tried.timers⟩
    | noChannel => exact ⟨stopped, rfl, rfl, le_rfl⟩
    | noStream | noHello | opened => cases closed
  | caught =>
    have tried := @quiet_scheduleReconnect { dialer with thrown := dialer.thrown - 1 } stopped
    exact ⟨tried.stopped, tried.clients, tried.streams, tried.timers⟩

end Dialer

/-! ## Runs -/

namespace DialStep

/-- One client is open at most, and none that was replaced. Once the session was stopped it
stays so, opens nothing and arms no timer. -/
structure Sound (step : DialStep) : Prop where
  one : step.after.openClients.length ≤ 1
  closed : ∀ client, step.before.client = some client → step.after.client ≠ some client →
    client ∉ step.after.openClients
  final : step.before.session.stopped = true → step.after.session.stopped = true ∧
    step.after.clients = step.before.clients ∧ step.after.session.streams = step.before.session.streams
  untimed : step.after.session.stopped = true → step.after.timers = 0

/-- An attempt that goes on with its credential finds the session as it left it: not
stopped, and without an open client. -/
def Guarded (step : DialStep) : Prop :=
  ∀ outcome, step.event = .resolved outcome → outcome.opensClient = true →
    step.before.session.stopped = false ∧ step.before.openClients = []

/-- Nothing stops the session, calls for a reconnect or lets a timer fire while an attempt
is in progress. -/
def Unhurried (step : DialStep) : Prop :=
  match step.event with
  | .stop | .reconnect _ | .timerFired => step.before.session.dialing = 0 ∧ step.before.thrown = 0
  | _ => True

end DialStep

section Runs
variable {crypto : Crypto} {config : WorkerConfig} {dialer : Dialer} {run : List DialStep}

theorem Dials.tight (dials : Dials crypto config dialer run) (guarded : ∀ step ∈ run, step.Guarded) :
    ∀ step ∈ run, step.before.Tight :=
  (dials.invariant Dialer.Tight (.inl rfl) fun _ _ member _ tight => tight.on fun outcome same opens =>
    (guarded _ member outcome same opens).2).2

theorem Dials.live_before (dials : Dials crypto config dialer run) : ∀ step ∈ run, step.before.Live :=
  (dials.invariant Dialer.Live Dialer.live_start fun _ _ _ enabled live => live.on enabled).2

/-- **Clients do not leak, and nothing is opened after `stop`, exactly as long as every
attempt that goes on after its await finds the session running and without an open
client.** -/
theorem channels_sound_iff_guarded (dials : Dials crypto config dialer run) :
    (∀ step ∈ run, step.Sound) ↔ ∀ step ∈ run, step.Guarded := by
  constructor
  · intro sound step member outcome same opens
    obtain ⟨one, -, final, -⟩ := sound step member
    have happened := congrArg Prod.fst (dials.of_mem member).2
    rw [same] at happened
    have opened : step.after.clients = step.before.clients + 1 ∧
        step.after.openClients = step.before.openClients ++ [step.before.clients] := by
      rw [show step.after = step.before.resolved outcome from happened]
      cases outcome with
      | noCredential | noChannel => cases opens
      | noStream | noHello | opened => exact ⟨rfl, rfl⟩
    constructor
    · refine Bool.eq_false_iff.mpr fun stopped => ?_
      have still := (final stopped).2.1
      omega
    · rw [opened.2, List.length_append, List.length_singleton] at one
      exact List.length_eq_zero_iff.mp (by omega)
  · intro guarded step member
    obtain ⟨enabled, happened⟩ := dials.of_mem member
    have after := congrArg Prod.fst happened
    dsimp only at after
    have tight : step.after.Tight := by
      rw [after]
      exact (dials.tight guarded step member).on fun outcome same opens => (guarded step member outcome same opens).2
    have live : step.after.Live := by
      rw [after]
      exact (dials.live_before step member).on enabled
    refine ⟨tight.length, fun client before gone open_ => ?_, fun stopped => ?_, fun stopped => ?_⟩
    · rcases tight with none | ⟨held, holds, one⟩
      · rw [none] at open_
        cases open_
      · rw [one] at open_
        cases List.mem_singleton.mp open_
        exact gone holds
    · have quiet : Dialer.Quiet step.before step.after := by
        rw [after]
        refine Dialer.quiet_on stopped fun outcome same => Bool.eq_false_iff.mpr fun opens => ?_
        exact Bool.noConfusion (stopped.symm.trans (guarded step member outcome same opens).1)
      exact ⟨quiet.stopped, quiet.clients, quiet.streams⟩
    · rw [live.timed.timers, if_neg (live.timed.stopped stopped)]

end Runs

/-! ## One attempt at a time -/

namespace Dialer
variable {dialer : Dialer} {crypto : Crypto} {config : WorkerConfig}

/-- There is one attempt at most. While it waits, or a timer does, nothing is open. -/
structure Patient (dialer : Dialer) : Prop where
  live : dialer.Live
  tight : dialer.Tight
  attempts : dialer.session.dialing + dialer.thrown ≤ 1
  waiting : 0 < dialer.session.dialing → dialer.timers = 0 ∧ dialer.session.stopped = false
  closed : 0 < dialer.session.dialing ∨ 0 < dialer.timers → dialer.openClients = [] ∧ dialer.session.stream = none

theorem Patient.scheduleReconnect (timed : dialer.Timed) (tight : dialer.Tight)
    (attempts : dialer.session.dialing + dialer.thrown ≤ 1) (still : dialer.session.dialing = 0)
    (closed : 0 < dialer.timers → dialer.openClients = [] ∧ dialer.session.stream = none) :
    dialer.scheduleReconnect.Patient := by
  have dialing : dialer.scheduleReconnect.session.dialing = 0 := by
    rw [scheduleReconnect_session, Session.scheduleReconnect]
    split <;> exact still
  have thrown : dialer.scheduleReconnect.thrown = dialer.thrown := by
    unfold Dialer.scheduleReconnect
    split <;> rfl
  refine ⟨timed.scheduleReconnect, tight.scheduleReconnect, by rw [dialing, thrown]; omega,
    fun waits => absurd dialing (Nat.pos_iff_ne_zero.mp waits), fun pending => ?_⟩
  have timers := pending.resolve_left (by rw [dialing]; exact Nat.lt_irrefl 0)
  unfold Dialer.scheduleReconnect at timers ⊢
  split
  · rw [if_pos ‹_›] at timers
    exact closed timers
  · rename_i fresh
    refine ⟨tight.closed, ?_⟩
    rw [Session.scheduleReconnect, if_neg fresh]

theorem Patient.handleDisconnect (patient : dialer.Patient) (still : dialer.session.dialing = 0) (reason : JsString) :
    (dialer.handleDisconnect reason).1.Patient := by
  unfold Dialer.handleDisconnect
  split
  · exact patient
  · dsimp only
    obtain ⟨timers, running, stopped⟩ := patient.live.timed
    split
    · rename_i ended
      refine ⟨⟨⟨timers, running, stopped⟩, fun running => Bool.noConfusion (ended.symm.trans running)⟩,
        .inl patient.tight.closed,
        patient.attempts, fun waits => absurd still (Nat.pos_iff_ne_zero.mp waits), fun _ =>
          ⟨patient.tight.closed, rfl⟩⟩
    · refine Patient.scheduleReconnect ?_ (.inl patient.tight.closed) patient.attempts still fun _ =>
        ⟨patient.tight.closed, rfl⟩
      exact ⟨timers, running, stopped⟩

theorem Patient.still_of_stream (patient : dialer.Patient) {stream : Nat}
    (current : dialer.session.stream = some stream) :
    dialer.session.dialing = 0 := by
  by_contra waits
  have none := (patient.closed (.inl (Nat.pos_of_ne_zero waits))).2
  cases current.symm.trans none

theorem Patient.resolved (patient : dialer.Patient) (waits : 0 < dialer.session.dialing) (outcome : DialOutcome) :
    (dialer.resolved outcome).Patient := by
  have attempts := patient.attempts
  obtain ⟨timers, running⟩ := patient.waiting waits
  obtain ⟨none, streamless⟩ := patient.closed (.inl waits)
  have live := patient.live.resolved outcome
  have idle : ¬ 0 < dialer.session.dialing - 1 := by omega
  cases outcome with
  | noCredential =>
    obtain ⟨was, runs, stopped⟩ := patient.live.timed
    exact Patient.scheduleReconnect ⟨was, runs, stopped⟩ (.inl none) (by dsimp only; omega) (by dsimp only; omega)
      fun _ => ⟨none, streamless⟩
  | noChannel =>
    exact ⟨live, .inl none, by simp only [Dialer.resolved]; omega, fun more => absurd more idle,
      fun pending => absurd (pending.resolve_left idle) (by simp [Dialer.resolved, timers])⟩
  | noStream | noHello | opened =>
    refine ⟨live, .inr ⟨dialer.clients, rfl, ?_⟩, ?_, fun more => absurd more idle,
      fun pending => absurd (pending.resolve_left idle) ?_⟩
    · rw [Dialer.resolved, openClient, none, List.nil_append]
    · simp only [Dialer.resolved, Session.dialed, openClient, if_true]
      omega
    · simp [Dialer.resolved, openClient, timers]

theorem Patient.on (patient : dialer.Patient) {event : DialEvent} {callbacks : List SessionCallback} {after : Dialer}
    (enabled : event.Enabled dialer) (unhurried : (⟨dialer, event, callbacks, after⟩ : DialStep).Unhurried) :
    (dialer.on crypto config event).1.Patient := by
  have live : (dialer.on crypto config event).1.Live := patient.live.on enabled
  cases event with
  | stop =>
    have idle : dialer.session.dialing = 0 := unhurried.1
    refine ⟨live, .inl patient.tight.closed, patient.attempts, fun waits => absurd idle (Nat.pos_iff_ne_zero.mp waits),
      fun pending => absurd (pending.resolve_left (not_lt_of_ge idle.le)) (Nat.not_lt.mpr (Nat.le_zero.mpr ?_))⟩
    rw [live.timed.timers, if_neg (live.timed.stopped rfl)]
  | reconnect reason =>
    have idle : dialer.session.dialing = 0 := unhurried.1
    simp only [Dialer.on, reconnect]
    split
    · exact patient
    · exact patient.handleDisconnect idle reason
  | data stream message =>
    simp only [Dialer.on, onData]
    split
    · exact patient
    · rename_i current
      have idle := patient.still_of_stream (not_not.mp current)
      cases message with
      | none => exact patient
      | some message =>
        cases message with
        | helloAck ack =>
          obtain ⟨⟨⟨timers, running, stopped⟩, going⟩, tight, attempts, waiting, closed⟩ := patient
          simp only [onHelloAck]
          split
          · refine Patient.handleDisconnect ?_ ?_ _
            · exact ⟨⟨⟨timers, running, stopped⟩, going⟩, tight, attempts, waiting, closed⟩
            · exact idle
          · exact ⟨⟨⟨timers, running, stopped⟩, going⟩, tight, attempts, waiting, closed⟩
        | command | config | instanceConfigs | certificateRenewal => exact patient
  | error stream message =>
    simp only [Dialer.on, onError]
    split
    · exact patient
    · rename_i current
      exact patient.handleDisconnect (patient.still_of_stream (not_not.mp current)) _
  | ended stream =>
    simp only [Dialer.on, onEnd]
    split
    · exact patient
    · rename_i current
      exact patient.handleDisconnect (patient.still_of_stream (not_not.mp current)) _
  | timerFired =>
    have idle : dialer.session.dialing = 0 ∧ dialer.thrown = 0 := unhurried
    have pending : 0 < dialer.timers := enabled
    have fired := patient.live.timerFired_eq pending
    have most := patient.live.timed.timers_le
    refine ⟨live, patient.tight, ?_, fun _ => ⟨?_, ?_⟩, fun _ => ?_⟩
    · rw [Dialer.on, timerFired, fired]
      dsimp only
      omega
    · rw [Dialer.on, timerFired]
      dsimp only
      omega
    · rw [Dialer.on, timerFired, fired]
      exact patient.live.running pending
    · rw [Dialer.on, timerFired, fired]
      exact patient.closed (.inr pending)
  | resolved outcome => exact patient.resolved enabled outcome
  | caught =>
    have attempts := patient.attempts
    have thrown : 0 < dialer.thrown := enabled
    obtain ⟨timers, running, stopped⟩ := patient.live.timed
    refine Patient.scheduleReconnect ⟨timers, running, stopped⟩ patient.tight ?_ ?_ fun pending =>
      patient.closed (.inr pending)
    · dsimp only
      omega
    · dsimp only
      omega

theorem patient_start : new.start.Patient :=
  ⟨live_start, .inl rfl, le_rfl, fun _ => ⟨rfl, rfl⟩, fun _ => ⟨rfl, rfl⟩⟩

end Dialer

/-- Attempts find the session as they left it, as long as nothing is hurried. -/
theorem guarded_of_unhurried {crypto : Crypto} {config : WorkerConfig} {dialer : Dialer} {run : List DialStep}
    (dials : Dials crypto config dialer run) (unhurried : ∀ step ∈ run, step.Unhurried) :
    ∀ step ∈ run, step.Guarded := by
  have patient := (dials.invariant Dialer.Patient Dialer.patient_start fun dialer event member enabled patient =>
    patient.on enabled (unhurried _ member)).2
  intro step member outcome same _
  have waits := (dials.of_mem member).1
  rw [same] at waits
  exact ⟨((patient step member).waiting waits).2, ((patient step member).closed (.inl waits)).1⟩

/-! ## Samples -/

/-- The worker shuts down while the credential of its first attempt is resolved. -/
def lateStopEvents : List DialEvent := [.stop, .resolved .opened]

/-- A certificate is renewed while an attempt waits, and the timer armed for that fires. -/
def twoAttemptsEvents : List DialEvent :=
  [.reconnect (js "client certificate renewed"), .resolved .opened, .timerFired, .resolved .opened]

/-- The check of `Guarded`. -/
def checksGuarded (step : DialStep) : Bool :=
  match step.event with
  | .resolved outcome => !outcome.opensClient || (!step.before.session.stopped && step.before.openClients.isEmpty)
  | _ => true

theorem guarded_of_checks {step : DialStep} (checks : checksGuarded step = true) : step.Guarded := by
  intro outcome same opens
  simpa [checksGuarded, same, opens] using checks

theorem channels_sound_iff_guarded_late_end : lateEnd.2.length = 7 ∧ ∀ step ∈ lateEnd.2, step.Sound := by
  refine ⟨by decide +kernel, (channels_sound_iff_guarded (dials_dial sampleCrypto unpinnedConfig lateEndEvents)).mpr ?_⟩
  have checks : lateEnd.2.all checksGuarded = true := by decide +kernel
  exact fun step member => guarded_of_checks (List.all_eq_true.mp checks step member)

/-- After `stop` a client and a stream are opened; and of two clients only one is the
session's. -/
theorem channels_leak :
    (∃ dialer run, Dials sampleCrypto unpinnedConfig dialer run ∧
      (run.map (·.before.session.stopped)).getLast? = some true ∧
      dialer.openClients = [0] ∧ dialer.session.stream = some 0) ∧
    ∃ dialer run, Dials sampleCrypto unpinnedConfig dialer run ∧ dialer.session.stopped = false ∧
      dialer.openClients = [0, 1] ∧ dialer.client = some 1 :=
  ⟨⟨_, _, dials_dial _ _ lateStopEvents, by decide +kernel, by decide +kernel, by decide +kernel⟩,
    _, _, dials_dial _ _ twoAttemptsEvents, by decide +kernel, by decide +kernel, by decide +kernel⟩

end RemoteSqlAgent
