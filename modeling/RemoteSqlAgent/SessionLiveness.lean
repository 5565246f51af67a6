import RemoteSqlAgent.SessionDialing

/-! Whether a session can get stuck. Wherever a stream is given up a timer is armed or runs
already; a timer that fires begins an attempt; and an attempt ends with a stream or at a
timer, whichever way it fails. -/
namespace RemoteSqlAgent
open Js

namespace Dialer
variable {dialer : Dialer}

/-- The field says which timer is pending: none or one, and none once the session was
stopped. -/
structure Timed (dialer : Dialer) : Prop where
  timers : dialer.timers = if dialer.session.reconnectTimer = .armed then 1 else 0
  running : dialer.session.stopped = false → dialer.session.reconnectTimer ≠ .cleared
  stopped : dialer.session.stopped = true → dialer.session.reconnectTimer ≠ .armed

/-- Something will bring the session on: a stream, an attempt or a timer. -/
def Going (dialer : Dialer) : Prop :=
  dialer.session.stopped = false →
    dialer.session.stream.isSome = true ∨ 0 < dialer.session.dialing ∨ 0 < dialer.thrown ∨
    0 < dialer.timers

structure Live (dialer : Dialer) : Prop where
  timed : dialer.Timed
  going : dialer.Going

theorem Timed.timers_le (timed : dialer.Timed) : dialer.timers ≤ 1 := by
  rw [timed.timers]
  split <;> decide

theorem Timed.armed (timed : dialer.Timed) (running : dialer.session.stopped = false)
    (waits : dialer.session.reconnectTimer ≠ .none) : 0 < dialer.timers := by
  have notCleared := timed.running running
  rw [timed.timers]
  cases timer : dialer.session.reconnectTimer with
  | none => exact absurd timer waits
  | armed => decide
  | cleared => exact absurd timer notCleared

/-- Whatever was given up, a timer is pending after that, or the session was stopped. -/
theorem Timed.scheduleReconnect (timed : dialer.Timed) : dialer.scheduleReconnect.Live := by
  unfold Dialer.scheduleReconnect
  split
  · rename_i already
    refine ⟨timed, fun running => .inr (.inr (.inr (timed.armed running ?_)))⟩
    exact already.resolve_left (Bool.eq_false_iff.mp running)
  · rename_i fresh
    obtain ⟨running, none⟩ := not_or.mp fresh
    have timers := timed.timers
    rw [not_not.mp none, if_neg (by simp)] at timers
    have scheduled : dialer.session.scheduleReconnect.reconnectTimer = .armed := by
      rw [Session.scheduleReconnect, if_neg fresh]
    have still : dialer.session.scheduleReconnect.stopped = dialer.session.stopped := by
      rw [Session.scheduleReconnect, if_neg fresh]
    refine ⟨⟨?_, fun _ => ?_, fun stopped => absurd (still ▸ stopped) running⟩, fun _ =>
      .inr (.inr (.inr (Nat.succ_pos _)))⟩
    · rw [scheduled, if_pos rfl, timers]
    · simp [scheduled]

theorem Timed.handleDisconnect (timed : dialer.Timed) (reason : JsString) :
    (dialer.handleDisconnect reason).1.Live := by
  unfold Dialer.handleDisconnect
  split
  · rename_i already
    exact ⟨timed, fun running => .inr (.inr (.inr (timed.armed running already.2)))⟩
  · dsimp only
    split
    · rename_i stopped
      exact ⟨⟨timed.timers, timed.running, timed.stopped⟩, fun running => Bool.noConfusion (stopped.symm.trans running)⟩
    · exact Timed.scheduleReconnect ⟨timed.timers, timed.running, timed.stopped⟩

theorem Live.stop (live : dialer.Live) : dialer.stop.Live := by
  have timers := live.timed.timers
  refine ⟨⟨?_, nofun, fun _ => ?_⟩, nofun⟩
  · cases timer : dialer.session.reconnectTimer <;> simp_all [Dialer.stop, Session.stop]
  · cases timer : dialer.session.reconnectTimer <;> simp [Dialer.stop, Session.stop, timer]

theorem Live.reconnect (live : dialer.Live) (reason : JsString) : (dialer.reconnect reason).1.Live := by
  unfold Dialer.reconnect
  split
  · exact live
  · exact live.timed.handleDisconnect reason

/-- A timer that is pending is the one that was armed. -/
theorem Live.running (live : dialer.Live) (pending : 0 < dialer.timers) : dialer.session.stopped = false := by
  have timers := live.timed.timers
  by_contra stopped
  rw [if_neg (live.timed.stopped (Bool.eq_true_of_not_eq_false stopped))] at timers
  omega

/-- The attempt that it begins is in progress. -/
theorem Live.timerFired_eq (live : dialer.Live) (pending : 0 < dialer.timers) : dialer.session.timerFired =
    { dialer.session with reconnectTimer := .none, dialing := dialer.session.dialing + 1 } := by
  rw [Session.timerFired, Session.connect, if_neg (by rw [live.running pending]; nofun)]

theorem Live.timerFired (live : dialer.Live) (pending : 0 < dialer.timers) : dialer.timerFired.Live := by
  have fired := live.timerFired_eq pending
  have most := live.timed.timers_le
  refine ⟨⟨?_, fun _ => ?_, fun _ => ?_⟩, fun _ => .inr (.inl ?_)⟩
  · rw [Dialer.timerFired, fired, if_neg nofun]
    dsimp only
    omega
  · rw [Dialer.timerFired, fired]
    nofun
  · rw [Dialer.timerFired, fired]
    nofun
  · rw [Dialer.timerFired, fired]
    exact Nat.succ_pos _

/-- An attempt that goes on leaves a stream, a failure to catch or a timer. -/
theorem Live.resolved (live : dialer.Live) (outcome : DialOutcome) : (dialer.resolved outcome).Live := by
  obtain ⟨timers, running, stopped⟩ := live.timed
  cases outcome with
  | noCredential => exact Timed.scheduleReconnect ⟨timers, running, stopped⟩
  | noChannel | noStream => exact ⟨⟨timers, running, stopped⟩, fun _ => .inr (.inr (.inl (Nat.succ_pos _)))⟩
  | noHello | opened => exact ⟨⟨timers, running, stopped⟩, fun _ => .inl rfl⟩

theorem Live.caught (live : dialer.Live) : dialer.caught.Live :=
  Timed.scheduleReconnect ⟨live.timed.timers, live.timed.running, live.timed.stopped⟩

variable {crypto : Crypto} {config : WorkerConfig}

theorem Live.onData (live : dialer.Live) (stream : Nat) (message : Option ServerMessage) :
    (dialer.onData crypto config stream message).1.Live := by
  unfold Dialer.onData
  split
  · exact live
  · cases message with
    | none => exact live
    | some message =>
      cases message with
      | helloAck ack =>
        obtain ⟨timers, running, stopped⟩ := live.timed
        simp only [onHelloAck]
        split
        · refine Timed.handleDisconnect ?_ _
          exact ⟨timers, running, stopped⟩
        · exact ⟨⟨timers, running, stopped⟩, live.going⟩
      | command | config | instanceConfigs | certificateRenewal => exact live

theorem Live.on (live : dialer.Live) {event : DialEvent} (enabled : event.Enabled dialer) :
    (dialer.on crypto config event).1.Live := by
  cases event with
  | stop => exact live.stop
  | reconnect reason => exact live.reconnect reason
  | data stream message => exact live.onData stream message
  | error stream message =>
    simp only [Dialer.on, onError]
    split
    · exact live
    · exact live.timed.handleDisconnect _
  | ended stream =>
    simp only [Dialer.on, onEnd]
    split
    · exact live
    · exact live.timed.handleDisconnect _
  | timerFired => exact live.timerFired enabled
  | resolved outcome => exact live.resolved outcome
  | caught => exact live.caught

theorem live_start : new.start.Live :=
  ⟨⟨rfl, fun _ => nofun, nofun⟩, fun _ => .inr (.inl (Nat.succ_pos _))⟩

/-- A stream that was replaced is not heard any more. -/
theorem on_stale {event : DialEvent} {stream : Nat} (its : event.stream? = some stream)
    (stale : dialer.session.stream ≠ some stream) : dialer.on crypto config event = (dialer, []) := by
  cases event with
  | data | error | ended =>
    cases its
    exact if_pos stale
  | stop | reconnect | timerFired | resolved | caught => cases its

end Dialer

section Runs
variable {crypto : Crypto} {config : WorkerConfig} {dialer : Dialer} {run : List DialStep}

theorem Dials.live (dials : Dials crypto config dialer run) : dialer.Live :=
  (dials.invariant Dialer.Live Dialer.live_start fun _ _ _ enabled live => live.on enabled).1

/-- **The session never gets stuck.** After any events, while it is not stopped, there is a
current stream, an attempt in progress or a pending timer; never are two timers pending;
and what happened on a stale stream has changed nothing and told the worker nothing. -/
theorem session_never_stuck (dials : Dials crypto config dialer run) :
    (dialer.session.stopped = false → dialer.session.stream.isSome = true ∨
      (0 < dialer.session.dialing ∨ 0 < dialer.thrown) ∨ 0 < dialer.timers) ∧
    dialer.timers ≤ 1 ∧
    ∀ step ∈ run, ∀ stream, step.event.stream? = some stream → step.before.session.stream ≠ some stream →
      step.after = step.before ∧ step.callbacks = [] := by
  have live := dials.live
  refine ⟨fun running => ?_, live.timed.timers_le, fun step member stream its stale => ?_⟩
  · rw [or_assoc]
    exact live.going running
  · have happened := (dials.of_mem member).2
    rw [Dialer.on_stale its stale] at happened
    exact Prod.mk.inj happened

/-- The end of a stream comes when the next one is live. -/
def lateEndEvents : List DialEvent :=
  [.resolved .opened, .data 0 (some (.helloAck ⟨[js "observe"], []⟩)), .error 0 (js "connection reset"), .timerFired,
    .resolved .opened, .data 1 (some (.helloAck ⟨[js "observe"], []⟩)), .ended 0]

def lateEnd : Dialer × List DialStep := dial sampleCrypto unpinnedConfig lateEndEvents

theorem session_never_stuck_late_end : lateEnd.1.session.connected = true ∧ lateEnd.1.timers ≤ 1 ∧
    (lateEnd.2.getLast?.map fun step => (step.event.stream?, step.before.session.stream, step.callbacks.length)) =
      some (some 0, some 1, 0) := by
  have spec : _ ∧ _ ∧ ∀ step ∈ lateEnd.2, _ :=
    session_never_stuck (dials_dial sampleCrypto unpinnedConfig lateEndEvents)
  refine ⟨by decide +kernel, spec.2.1, ?_⟩
  have last : (lateEnd.2.getLast?.map fun step => (step.event.stream?, step.before.session.stream)) =
      some (some 0, some 1) := by decide +kernel
  obtain ⟨step, found, same⟩ := Option.map_eq_some_iff.mp last
  obtain ⟨its, current⟩ := Prod.mk.inj same
  have quiet := (spec.2.2 step (List.mem_of_getLast? found) 0 its (by rw [current]; decide)).2
  rw [found, Option.map_some, its, current, quiet]
  rfl

end Runs

end RemoteSqlAgent
