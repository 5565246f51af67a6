import RemoteSqlAgent.MonitorSet

/-! When there is one monitor for a name. Looking up the entry of a name, closing its
monitor and connecting the next one are steps with awaits in between; nothing keeps
another retry or reconciliation from taking the name there. -/
namespace RemoteSqlAgent
open Js CallProgram

/-! ## Closing -/

/-- Only what was told to stop is discarded. -/
def DiscardRule (said : List (Exchange MonitorSetAnswer)) : MonitorSetCall → Prop
  | .discard _ monitor => ⟨.stop monitor, ()⟩ ∈ said
  | _ => True

section Rules
variable {deps : MonitorSetDeps} {said : List (Exchange MonitorSetAnswer)}

theorem obeys_closeMonitor (name : JsString) (monitor : Nat) : Obeys DiscardRule said (closeMonitor name monitor) :=
  .call trivial fun _ => .call (List.mem_append_right _ List.mem_cons_self) fun _ => .done ()

theorem obeys_ensure (config : InstanceConfig) (source : ConfigSource) (signature : JsString) :
    Obeys DiscardRule said (ensure config source signature) := by
  refine Obeys.bind (.call trivial fun previous : Option MonitorEntry => ?_) fun _ _ => .call trivial fun outcome => ?_
  · cases previous with
    | none => exact .done ()
    | some entry => exact obeys_closeMonitor _ _
  · rcases outcome with ⟨err, opened⟩ | ⟨monitor, polls⟩
    · exact .done _
    · refine Obeys.bind (.ite (fun _ => .call trivial fun _ => .call trivial fun sent : Except JsString Unit => ?_)
        fun _ => .done ()) fun _ _ => .done _
      cases sent with
      | error message => exact .done ()
      | ok _ => exact .call trivial fun _ => .done ()

theorem obeys_addLocal (configs : List InstanceConfig) : Obeys DiscardRule said (addLocal configs) := by
  induction configs generalizing said with
  | nil => exact .done _
  | cons config rest ih => exact (obeys_ensure _ _ _).bind fun _ _ => ih.bind fun _ _ => .done _

theorem obeys_retryEach (waiting : List (JsString × InstanceConfig)) : Obeys DiscardRule said (retryEach waiting) := by
  induction waiting generalizing said with
  | nil => exact .done _
  | cons item rest ih => exact (obeys_ensure _ _ _).bind fun _ _ => ih

theorem obeys_reconcileInstance (remote : WireInstanceConfig) :
    Obeys DiscardRule said (reconcileInstance deps remote) := by
  refine .call trivial fun existing : Option MonitorEntry => .ite (fun _ => .done _) fun _ => ?_
  split
  · exact .done _
  · exact .done _
  · refine Obeys.bind ?_ fun unchanged _ => .ite (fun _ => .done _) fun _ => obeys_ensure _ _ _
    cases existing with
    | none => exact .done _
    | some entry => exact .ite (fun _ => .call trivial fun connected => .done _) fun _ => .done _

theorem obeys_reconcileInstances (wire : List WireInstanceConfig) :
    Obeys DiscardRule said (reconcileInstances deps wire) := by
  induction wire generalizing said with
  | nil => exact .done _
  | cons remote rest ih => exact (obeys_reconcileInstance _).bind fun _ _ => ih.bind fun _ _ => .done _

theorem obeys_removeUnlisted (wanted : List JsString) (entries : List (JsString × MonitorEntry)) :
    Obeys DiscardRule said (removeUnlisted wanted entries) := by
  induction entries generalizing said with
  | nil => exact .done _
  | cons item rest ih => exact .ite (fun _ => (obeys_closeMonitor _ _).bind fun _ _ => ih) fun _ => ih

theorem obeys_pollEach (entries : List (JsString × MonitorEntry)) : Obeys DiscardRule said (pollMonitors entries) := by
  induction entries generalizing said with
  | nil => exact .done _
  | cons item rest ih => exact .call trivial fun _ => .call trivial fun _ => .call trivial fun _ => ih

theorem obeys_monitorBody (deps : MonitorSetDeps) (operation : MonitorSetOperation) :
    Obeys DiscardRule [] (operation.body deps) := by
  cases operation with
  | addLocal configs => exact (obeys_addLocal _).bind fun _ _ => .done ()
  | reconcileRemote wire =>
    refine Obeys.bind ((obeys_reconcileInstances _).bind fun _ _ => .call trivial fun entries => ?_) fun _ _ => .done ()
    exact (obeys_removeUnlisted _ _).bind fun _ _ => .done _
  | retryPending =>
    exact .call trivial fun waiting => (obeys_retryEach _).bind fun _ _ => .call trivial fun _ => .done ()
  | onReady => exact .call trivial fun _ => .call trivial fun entries => obeys_pollEach _

end Rules

/-! ## One monitor for each name -/

namespace MonitorSet

/-- The monitor is the one in the set under the name. -/
def Holds (set : MonitorSet) (name : JsString) (monitor : Nat) : Prop :=
  ∃ entry, set.entries.get name = some entry ∧ entry.monitor = monitor

/-- A step does not cross another operation on the name. A monitor connects while its name
is free, and starts polling while it is connected and nobody is closing it; an entry is
removed with the monitor that was closed; and no pool stays open behind an error. -/
def Uncrossed (before : MonitorSet) : Exchange MonitorSetAnswer → Prop
  | ⟨.connect config _ _, .ok _⟩ => before.entries.get config.name = none
  | ⟨.connect _ _ _, .error (_, opened)⟩ => opened = false
  | ⟨.discard name monitor, .ok _⟩ => ∀ entry, before.entries.get name = some entry → entry.monitor = monitor
  | ⟨.discard _ _, .error _⟩ => False
  | ⟨.startPolling monitor, _⟩ =>
    ∃ status, before.monitors[monitor]? = some status ∧ status.connected = true ∧ status.stopped = false
  | _ => True

/-- Every monitor that is connected is in the set, and those that poll are connected and
not told to stop. -/
structure OneEach (set : MonitorSet) : Prop where
  held : ∀ (monitor : Nat) (status : MonitorStatus), set.monitors[monitor]? = some status → status.connected = true →
    set.Holds status.config.name monitor
  polling : ∀ (monitor : Nat) (status : MonitorStatus), set.monitors[monitor]? = some status → status.polling = true →
    status.connected = true ∧ status.stopped = false

theorem oneEach_empty : empty.OneEach where
  held := by simp [empty]
  polling := by simp [empty]

variable {set : MonitorSet}

/-- A monitor after a change of one. -/
theorem getElem?_update {number monitor : Nat} {change : MonitorStatus → MonitorStatus} {status : MonitorStatus}
    (found : (set.update number change).monitors[monitor]? = some status) :
    (monitor ≠ number ∧ set.monitors[monitor]? = some status) ∨
      (monitor = number ∧ ∃ old, set.monitors[number]? = some old ∧ status = change old) := by
  simp only [update, List.getElem?_modify] at found
  split at found
  · rename_i same
    obtain ⟨old, there, rfl⟩ := Option.map_eq_some_iff.mp found
    exact .inr ⟨same.symm, old, same ▸ there, rfl⟩
  · rename_i different
    exact .inl ⟨Ne.symm different, by simpa using found⟩

/-- A monitor after one was created. -/
theorem getElem?_created {monitors : List MonitorStatus} {created status : MonitorStatus} {monitor : Nat}
    (found : (monitors ++ [created])[monitor]? = some status) :
    monitors[monitor]? = some status ∨ (monitor = monitors.length ∧ status = created) := by
  rcases lt_trichotomy monitor monitors.length with before | rfl | behind
  · rw [List.getElem?_append_left before] at found
    exact .inl found
  · rw [List.getElem?_concat_length] at found
    exact .inr ⟨rfl, (Option.some.inj found).symm⟩
  · rw [List.getElem?_eq_none (by simp; omega)] at found
    cases found

namespace OneEach

/-- There is one for each name. -/
theorem unique (one : set.OneEach) {monitor other : Nat} {status others : MonitorStatus}
    (here : set.monitors[monitor]? = some status) (there : set.monitors[other]? = some others)
    (connected : status.connected = true) (also : others.connected = true)
    (same : status.config.name = others.config.name) : monitor = other := by
  obtain ⟨entry, found, rfl⟩ := one.held monitor status here connected
  obtain ⟨entry', found', rfl⟩ := one.held other others there also
  rw [same] at found
  cases found.symm.trans found'
  rfl

/-- One is told to stop, or starts polling while it is connected. -/
theorem switched (one : set.OneEach) {number : Nat} (change : MonitorStatus → MonitorStatus)
    (keeps : ∀ status, (change status).config = status.config ∧ (change status).connected = status.connected)
    (polls : ∀ status, set.monitors[number]? = some status → (change status).polling = true →
      status.connected = true ∧ (change status).stopped = false) : (set.update number change).OneEach := by
  constructor
  · intro monitor status found connected
    rcases getElem?_update found with ⟨-, same⟩ | ⟨rfl, old, there, rfl⟩
    · exact one.held monitor status same connected
    · rw [(keeps old).1]
      exact one.held monitor old there ((keeps old).2 ▸ connected)
  · intro monitor status found polling
    rcases getElem?_update found with ⟨-, same⟩ | ⟨rfl, old, there, rfl⟩
    · exact one.polling monitor status same polling
    · rw [(keeps old).2]
      exact polls old there polling

/-- One that was stopped is discarded with its entry. -/
theorem discarded (one : set.OneEach) {name : JsString} {number : Nat}
    (stopped : ∀ status : MonitorStatus, set.monitors[number]? = some status → status.stopped = true)
    (mine : ∀ entry, set.entries.get name = some entry → entry.monitor = number) :
    ({ set.update number fun status => { status with connected := false } with
      entries := set.entries.delete name } : MonitorSet).OneEach := by
  constructor
  · intro monitor status found connected
    rcases getElem?_update found with ⟨different, same⟩ | ⟨rfl, old, there, rfl⟩
    · obtain ⟨entry, held, rfl⟩ := one.held monitor status same connected
      refine ⟨entry, ?_, rfl⟩
      rw [JsMap.get_delete, if_neg, held]
      rintro rfl
      exact different (mine entry held)
    · cases connected
  · intro monitor status found polling
    rcases getElem?_update found with ⟨-, same⟩ | ⟨rfl, old, there, rfl⟩
    · exact one.polling monitor status same polling
    · have both := (one.polling monitor old there polling).2
      rw [stopped old there] at both
      cases both

theorem connected (one : set.OneEach) {config : InstanceConfig} (free : set.entries.get config.name = none)
    (source : ConfigSource) (signature : JsString) : (set.connected config source signature).OneEach := by
  constructor
  · intro monitor status found connected
    rcases getElem?_created found with same | ⟨rfl, rfl⟩
    · obtain ⟨entry, held, rfl⟩ := one.held monitor status same connected
      refine ⟨entry, ?_, rfl⟩
      rw [MonitorSet.connected, JsMap.get_set, if_neg, held]
      intro taken
      rw [taken, held] at free
      cases free
    · exact ⟨_, by rw [MonitorSet.connected, JsMap.get_set, if_pos rfl], rfl⟩
  · intro monitor status found polling
    rcases getElem?_created found with same | ⟨rfl, rfl⟩
    · exact one.polling monitor status same polling
    · cases polling

theorem failed (one : set.OneEach) (config : InstanceConfig) (source : ConfigSource) :
    (set.failed config source false).OneEach := by
  constructor
  · intro monitor status found connected
    rcases getElem?_created found with same | ⟨rfl, rfl⟩
    · exact one.held monitor status same connected
    · cases connected
  · intro monitor status found polling
    rcases getElem?_created found with same | ⟨rfl, rfl⟩
    · exact one.polling monitor status same polling
    · cases polling

theorem step {request : MonitorSetCall} {answer : MonitorSetAnswer request} {after : MonitorSet} (one : set.OneEach)
    (does : request.Does set answer after) (uncrossed : set.Uncrossed ⟨request, answer⟩)
    (stopped : ∀ name monitor, request = .discard name monitor → ∀ status : MonitorStatus,
      set.monitors[monitor]? = some status → status.stopped = true) : after.OneEach := by
  cases request with
  | find | entries | pending | isConnected =>
    obtain ⟨-, rfl⟩ := does
    exact one
  | refreshIdentity | sendSnapshot =>
    cases does
    exact one
  | stop monitor =>
    obtain ⟨-, rfl⟩ := does
    exact one.switched _ (fun status => ⟨rfl, rfl⟩) fun status _ polling => by cases polling
  | discard name monitor =>
    cases answer with
    | error message => exact uncrossed.elim
    | ok _ =>
      cases does
      exact one.discarded (stopped name monitor rfl) uncrossed
  | connect config source signature =>
    rcases answer with ⟨err, opened⟩ | ⟨monitor, polls⟩
    · cases does
      cases (show opened = false from uncrossed)
      exact one.failed config source
    · obtain ⟨-, -, rfl⟩ := does
      exact one.connected uncrossed source signature
  | startPolling monitor =>
    cases does
    refine one.switched _ (fun status => ⟨rfl, rfl⟩) fun status found _ => ⟨?_, rfl⟩
    obtain ⟨same, there, connected, -⟩ := uncrossed
    cases found.symm.trans there
    exact connected
  | setIntervals | restRetries =>
    cases does
    exact ⟨one.held, one.polling⟩

end OneEach

/-- The monitor was told to stop. -/
def Stopped (set : MonitorSet) (monitor : Nat) : Prop :=
  ∃ status, set.monitors[monitor]? = some status ∧ status.stopped = true

theorem Stopped.update {number monitor : Nat} {change : MonitorStatus → MonitorStatus} (stopped : set.Stopped monitor)
    (keeps : ∀ status, set.monitors[number]? = some status → status.stopped = true → (change status).stopped = true) :
    (set.update number change).Stopped monitor := by
  obtain ⟨status, found, isStopped⟩ := stopped
  rcases eq_or_ne number monitor with rfl | different
  · exact ⟨change status, by simp [MonitorSet.update, found], keeps status found isStopped⟩
  · exact ⟨status, by simp [MonitorSet.update, different, found], isStopped⟩

theorem Stopped.created {monitor : Nat} {created : MonitorStatus} (stopped : set.Stopped monitor) :
    ∃ status, (set.monitors ++ [created])[monitor]? = some status ∧ status.stopped = true := by
  obtain ⟨status, found, isStopped⟩ := stopped
  exact ⟨status, List.getElem?_append_left (List.getElem?_eq_some_iff.mp found).1 ▸ found, isStopped⟩

theorem stopped_of_stop {monitor : Nat} {answer : Unit} {after : MonitorSet}
    (does : (MonitorSetCall.stop monitor).Does set answer after) : after.Stopped monitor := by
  obtain ⟨small, rfl⟩ := does
  refine ⟨{ set.monitors[monitor] with stopped := true, polling := false }, ?_, rfl⟩
  simp [MonitorSet.update, List.getElem?_eq_getElem small]

theorem free_of_discard {name : JsString} {monitor : Nat} {answer : Except JsString Unit} {after : MonitorSet}
    (does : (MonitorSetCall.discard name monitor).Does set answer after) : after.entries.get name = none := by
  cases answer <;> cases does <;> exact (JsMap.get_delete _ _ _).trans (if_pos rfl)

/-- Nobody starts what was told to stop. -/
theorem Stopped.step {request : MonitorSetCall} {answer : MonitorSetAnswer request} {after : MonitorSet} {monitor : Nat}
    (stopped : set.Stopped monitor) (does : request.Does set answer after)
    (uncrossed : set.Uncrossed ⟨request, answer⟩) :
    after.Stopped monitor := by
  cases request with
  | find | entries | pending | isConnected =>
    obtain ⟨-, rfl⟩ := does
    exact stopped
  | refreshIdentity | sendSnapshot =>
    cases does
    exact stopped
  | stop number =>
    obtain ⟨-, rfl⟩ := does
    exact stopped.update fun _ _ _ => rfl
  | discard name number =>
    cases answer with
    | error message => exact uncrossed.elim
    | ok _ =>
      cases does
      exact stopped.update fun _ _ isStopped => isStopped
  | connect config source signature =>
    rcases answer with ⟨err, opened⟩ | ⟨number, polls⟩
    · cases does
      exact stopped.created
    · obtain ⟨-, -, rfl⟩ := does
      exact stopped.created
  | startPolling number =>
    cases does
    refine stopped.update fun status found isStopped => ?_
    obtain ⟨same, there, -, running⟩ := uncrossed
    cases found.symm.trans there
    cases isStopped.symm.trans running
  | setIntervals | restRetries =>
    cases does
    exact stopped

end MonitorSet

section Runs
variable {deps : MonitorSetDeps} {pool : Pool MonitorSetAnswer Empty Unit MonitorSet MonitorSetOperation}
  {run : List MonitorSetStep}

/-- What operations told to stop has stopped. -/
def Halted (exchange : Exchange MonitorSetAnswer) (set : MonitorSet) : Prop :=
  ∀ monitor, exchange.1 = .stop monitor → set.Stopped monitor

theorem oneEach_of_reaches (reaches : Reaches MonitorSetCall.Does (MonitorSetOperation.body deps) .empty pool run)
    (uncrossed : ∀ taken ∈ run, taken.before.Uncrossed taken.exchange) :
    pool.state.OneEach ∧ ∀ taken ∈ run, taken.after.OneEach := by
  have halted :=
    (reaches.told Halted (fun taken member monitor same => ?_) fun taken member exchange halted monitor same =>
    (halted monitor same).step (reaches.does taken member) (uncrossed taken member)).2
  · have rule := (reaches.allowed (fun _ => DiscardRule) (obeys_monitorBody deps)).2
    have kept : ∀ taken ∈ run, taken.before.OneEach → taken.after.OneEach := by
      intro taken member one
      refine one.step (reaches.does taken member) (uncrossed taken member) fun name monitor isDiscard status found => ?_
      have obeyed := rule taken member
      rw [isDiscard] at obeyed
      obtain ⟨other, there, isStopped⟩ := halted taken member _ obeyed monitor rfl
      cases found.symm.trans there
      exact isStopped
    obtain ⟨last, past⟩ := reaches.invariant MonitorSet.OneEach MonitorSet.oneEach_empty kept
    exact ⟨last, fun taken member => kept taken member (past taken member)⟩
  · have does := reaches.does taken member
    obtain ⟨operation, said, request, answer, before, after⟩ := taken
    cases same
    exact MonitorSet.stopped_of_stop does

/-- **At most one monitor for each name, as long as no step crosses another operation on
the name.** In every state of such a run, each connected monitor is the one in the set
under its name, so that there is one at most; none polls that is not connected; and once
a monitor is closed and its entry removed, no monitor of that name is connected or
polling. -/
theorem one_monitor_each (reaches : Reaches MonitorSetCall.Does (MonitorSetOperation.body deps) .empty pool run)
    (uncrossed : ∀ taken ∈ run, taken.before.Uncrossed taken.exchange) :
    (∀ (monitor : Nat) (status : MonitorStatus), pool.state.monitors[monitor]? = some status →
      (status.connected = true → pool.state.Holds status.config.name monitor) ∧
        (status.polling = true → status.connected = true) ∧
        ∀ (other : Nat) (others : MonitorStatus), pool.state.monitors[other]? = some others →
          status.connected = true → others.connected = true → status.config.name = others.config.name →
            monitor = other) ∧
    ∀ taken ∈ run, ∀ name monitor, taken.request = .discard name monitor →
      ∀ (other : Nat) (status : MonitorStatus), taken.after.monitors[other]? = some status → status.config.name = name →
        status.connected = false ∧ status.polling = false := by
  obtain ⟨last, each⟩ := oneEach_of_reaches reaches uncrossed
  refine ⟨fun monitor status found =>
    ⟨last.held monitor status found, fun polling => (last.polling monitor status found polling).1,
    fun other others there connected also same => last.unique found there connected also same⟩, ?_⟩
  intro taken member name monitor isDiscard other status found named
  have one := each taken member
  have free : taken.after.entries.get name = none := by
    have does := reaches.does taken member
    obtain ⟨operation, said, request, answer, before, after⟩ := taken
    cases isDiscard
    exact MonitorSet.free_of_discard does
  have apart : ¬ status.connected = true := fun connected => by
    obtain ⟨entry, held, -⟩ := one.held other status found connected
    rw [named, free] at held
    cases held
  exact ⟨Bool.eq_false_iff.mpr apart, Bool.eq_false_iff.mpr fun polling =>
    apart (one.polling other status found polling).1⟩

end Runs

/-! ## Samples -/

section Samples

/-- The check of `Uncrossed`. -/
def checksUncrossed (before : MonitorSet) : Exchange MonitorSetAnswer → Bool
  | ⟨.connect config _ _, .ok _⟩ => (before.entries.get config.name).isNone
  | ⟨.connect _ _ _, .error (_, opened)⟩ => !opened
  | ⟨.discard name monitor, .ok _⟩ => (before.entries.get name).all (·.monitor = monitor)
  | ⟨.discard _ _, .error _⟩ => false
  | ⟨.startPolling monitor, _⟩ => (before.monitors[monitor]?).any fun status => status.connected && !status.stopped
  | _ => true

theorem uncrossed_of_checks {before : MonitorSet} {exchange : Exchange MonitorSetAnswer}
    (checks : checksUncrossed before exchange = true) : before.Uncrossed exchange := by
  unfold MonitorSet.Uncrossed
  split
  · exact Option.isNone_iff_eq_none.mp checks
  · simpa [checksUncrossed] using checks
  · intro entry found
    simp only [checksUncrossed, found] at checks
    exact of_decide_eq_true checks
  · cases checks
  · obtain ⟨status, found, both⟩ := (Option.any_eq_true _ _).mp checks
    simp only [Bool.and_eq_true, Bool.not_eq_true'] at both
    exact ⟨status, found, both⟩
  · trivial

/-- The instance cannot be reached when the worker starts, and can at the next retry. -/
def retriedWork : List MonitorSetWork :=
  [.begin .onReady, .steps 0 2 true, .begin (.addLocal [sampleInstance]), .steps 1 2 false,
  .begin .retryPending, .steps 2 7 true]

theorem one_monitor_each_retried : ∃ set : MonitorSet, set = (afterMonitorSetWork retriedWork).1.state ∧
    ((set.monitors[1]?).map fun status => (status.config.name, status.polling)) = some (js "SQL01", true) ∧
      set.Holds (js "SQL01") 1 := by
  have checks :
      ((afterMonitorSetWork retriedWork).2.all fun taken => checksUncrossed taken.before taken.exchange) = true := by
    decide +kernel
  have polls : (((afterMonitorSetWork retriedWork).1.state.monitors[1]?).map fun status =>
      (status.config.name, status.connected, status.polling)) = some (js "SQL01", true, true) := by decide +kernel
  obtain ⟨status, found, same⟩ := Option.map_eq_some_iff.mp polls
  simp only [Prod.mk.injEq] at same
  refine ⟨_, rfl, by rw [found, Option.map_some, same.1, same.2.2], ?_⟩
  rw [← same.1]
  refine ((one_monitor_each (reaches_afterMonitorSetWork retriedWork) ?_).1 1 status found).1 same.2.1
  exact fun taken member => uncrossed_of_checks (List.all_eq_true.mp checks taken member)

/-- A slow retry is overtaken by the next: two monitors of one name poll, and the first is
not in the set. -/
theorem two_monitors_polling :
    ∃ pool run, Reaches MonitorSetCall.Does (MonitorSetOperation.body sampleDeps) .empty pool run ∧
    ((pool.state.monitors[1]?).map fun status => (status.config.name, status.connected, status.polling)) =
      some (js "SQL01", true, true) ∧
    ((pool.state.monitors[2]?).map fun status => (status.config.name, status.connected, status.polling)) =
      some (js "SQL01", true, true) ∧
    ((pool.state.entries.get (js "SQL01")).map (·.monitor)) = some 2 ∧
    pool.flights.all (fun flight => match flight.program with | .done _ => true | _ => false) = true :=
  ⟨_, _, reaches_afterMonitorSetWork [.begin .onReady, .steps 0 2 true, .begin (.addLocal [sampleInstance]),
    .steps 1 2 false,
    .begin .retryPending, .steps 2 2 true, .begin .retryPending, .steps 3 2 true, .steps 2 5 true, .steps 3 5 true],
    by decide +kernel, by decide +kernel, by decide +kernel, by decide +kernel⟩

end Samples

end RemoteSqlAgent
