import RemoteSqlAgent.MonitorRules

/-! A poll brings what was observed of the jobs up to date, as long as the fingerprint
and the hashes that the monitor keeps are right: the fingerprint is msdb's only if all
the jobs were observed as they are, and the hashes are those that were observed last. -/
namespace RemoteSqlAgent
open Js CallProgram DatedHistory

variable {runtime : Runtime}

/-! ## Convergence -/

/-- The call at which a poll ends that found a pool and did not fail. -/
def Completes : Exchange MonitorAnswer → Prop
  | ⟨.sameFingerprint _, same⟩ => same = true
  | ⟨.pollJobs _ _, ended⟩ => ended = PollEnd.recorded
  | ⟨.emitSnapshot _ _ _ _ _, _⟩ => True
  | _ => False

/-- The calls end with one at which a poll completes, or that finds no pool. -/
def Ends (transcript : List (Exchange MonitorAnswer)) : Prop :=
  ∃ earlier last, transcript = earlier ++ [last] ∧ (Completes last ∨ last = ⟨.connected, false⟩)

theorem Ends.cons {transcript : List (Exchange MonitorAnswer)} (ends : Ends transcript)
    (first : Exchange MonitorAnswer) : Ends (first :: transcript) := by
  obtain ⟨earlier, last, rfl, how⟩ := ends
  exact ⟨first :: earlier, last, rfl, how⟩

theorem ends_single {last : Exchange MonitorAnswer} (how : Completes last ∨ last = ⟨.connected, false⟩) : Ends [last] :=
  ⟨[], last, rfl, how⟩

theorem sendSnapshot_ends {transcript : List (Exchange MonitorAnswer)}
    (ran : Runs (sendSnapshot runtime) transcript (.ok ())) : Ends transcript := by
  obtain ⟨connected, _, rfl, asked⟩ := runs_call.mp ran
  cases connected with
  | false =>
    obtain ⟨rfl, -⟩ := runs_pure.mp asked
    exact ends_single (.inr rfl)
  | true =>
    obtain ⟨since, _, rfl, queried⟩ := runs_call.mp asked
    obtain ⟨jobs, _, rfl, read⟩ := runs_call.mp queried
    refine ((Ends.cons ?_ _).cons _).cons _
    cases jobs with
    | error message => cases (runs_throw.mp read).2
    | ok jobs =>
      obtain ⟨snapshotId, _, rfl, named⟩ := runs_call.mp read
      refine Ends.cons ?_ _
      cases made : jobs.mapM fun job => toBlob runtime job.toJobRecord with
      | error message =>
        rw [made] at named
        cases (runs_throw.mp named).2
      | ok blobs =>
        rw [made] at named
        obtain ⟨storing, _, rfl, stored⟩ := runs_call.mp named
        obtain ⟨reading, _, rfl, fingerprinted⟩ := runs_call.mp stored
        refine (Ends.cons ?_ _).cons _
        cases reading with
        | error message => cases (runs_throw.mp fingerprinted).2
        | ok reading =>
          obtain ⟨_, _, rfl, emitted⟩ := runs_call.mp fingerprinted
          obtain ⟨rfl, -⟩ := runs_pure.mp emitted
          exact ends_single (.inl trivial)

theorem pollDefinitionsNow_ends {transcript : List (Exchange MonitorAnswer)}
    (ran : Runs (pollDefinitionsNow runtime) transcript (.ok ())) : Ends transcript := by
  obtain ⟨connected, _, rfl, asked⟩ := runs_call.mp ran
  cases connected with
  | false =>
    obtain ⟨rfl, -⟩ := runs_pure.mp asked
    exact ends_single (.inr rfl)
  | true =>
    obtain ⟨reading, _, rfl, fingerprinted⟩ := runs_call.mp asked
    refine (Ends.cons ?_ _).cons _
    cases reading with
    | error message => cases (runs_throw.mp fingerprinted).2
    | ok reading =>
      obtain ⟨same, _, rfl, compared⟩ := runs_call.mp fingerprinted
      cases same with
      | true =>
        obtain ⟨rfl, -⟩ := runs_pure.mp compared
        exact ends_single (.inl rfl)
      | false =>
        obtain ⟨since, _, rfl, queried⟩ := runs_call.mp compared
        obtain ⟨jobs, _, rfl, read⟩ := runs_call.mp queried
        refine ((Ends.cons ?_ _).cons _).cons _
        cases jobs with
        | error message => cases (runs_throw.mp read).2
        | ok jobs =>
          obtain ⟨ended, _, rfl, polled⟩ := runs_call.mp read
          cases ended with
          | recorded =>
            obtain ⟨rfl, -⟩ := runs_pure.mp polled
            exact ends_single (.inl rfl)
          | vanished => exact (sendSnapshot_ends polled).cons _
          | threw message => cases (runs_throw.mp polled).2

/-- A poll that does not fail completes at one of these calls, if it finds a pool. -/
theorem pollDefinitions_ends {transcript : List (Exchange MonitorAnswer)}
    (ran : Runs (pollDefinitions runtime) transcript (.ok ())) :
    ∃ polled, Ends polled ∧ ∃ moment, transcript = ⟨.acquire, moment⟩ :: (polled ++ [⟨.release, ()⟩]) := by
  obtain ⟨moment, _, rfl, turn⟩ := runs_call.mp ran
  obtain ⟨_, -, impossible⟩ | ⟨ended, polled, released, rfl, attempted, onward⟩ := runs_bind.mp turn
  · cases impossible
  · obtain ⟨inner, ranInner, same⟩ := runs_attempt.mp attempted
    cases same
    obtain ⟨_, _, rfl, left⟩ := runs_call.mp onward
    cases ended with
    | error message => cases (runs_throw.mp left).2
    | ok value =>
      obtain ⟨rfl, -⟩ := runs_done.mp left
      exact ⟨polled, pollDefinitionsNow_ends ranInner, moment, rfl⟩

/-- The last observation of the job is its definition. -/
def MonitorSite.Observed (runtime : Runtime) (site : MonitorSite) (job : JobRecord) : Prop :=
  ∃ current last, toBlob runtime job = .ok current ∧ lastObserved site.sent job.jobUuid = some last ∧
    last.canonicalJson = current.canonicalJson

namespace MonitorStep

/-- Since the poll got its turn nobody has changed msdb, and no message was refused. -/
def Quiet (step : MonitorStep) : Prop :=
  ∀ moment, ⟨.acquire, moment⟩ ∈ step.said → moment = ⟨step.after.past.length, step.after.refusals⟩

/-- If a poll completes with this step in a quiet time, then all jobs were observed
last as they are. -/
def Converges (runtime : Runtime) (step : MonitorStep) : Prop :=
  step.operation = .pollDefinitions → Completes step.exchange → Quiet step →
    ∀ job ∈ step.after.msdb.jobs, step.after.Observed runtime job.toJobRecord

/-- What the monitor takes for granted at a step. -/
structure Sound (step : MonitorStep) : Prop where
  /-- Somebody who changes a job leaves it with a date later than all before. -/
  dated : ∀ msdb, step.exchange = ⟨.edit msdb, ()⟩ →
    Newer (·.dateModified) step.before.history step.before.msdb.jobs msdb.jobs
  /-- When a snapshot reads the fingerprint, the jobs are as it has read them. -/
  unchanged : ∀ reading jobs, step.exchange = ⟨.readJobsFingerprint, .ok reading⟩ → jobsRead step.said = some jobs →
    ∀ job ∈ step.before.msdb.jobs, job ∈ jobs
  /-- A poll does not report while a snapshot has stored its hashes and is not sent. -/
  alone : ∀ fingerprint jobs ended, step.exchange = ⟨.pollJobs fingerprint jobs, ended⟩ → step.before.unsent = none
  /-- A snapshot is sent only if its hashes were the last to be stored. -/
  own : ∀ storing fingerprint snapshotId jobs blobs,
    step.exchange = ⟨.emitSnapshot storing fingerprint snapshotId jobs blobs, ()⟩ → step.before.unsent = some storing
  /-- No chunk of a snapshot is refused. -/
  whole : ∀ storing fingerprint snapshotId jobs blobs,
    step.exchange = ⟨.emitSnapshot storing fingerprint snapshotId jobs blobs, ()⟩ →
    step.after.refusals = step.before.refusals
  /-- No change is refused in a poll that keeps its fingerprint. -/
  accepted : ∀ fingerprint jobs, step.exchange = ⟨.pollJobs fingerprint jobs, PollEnd.recorded⟩ →
    step.after.refusals = step.before.refusals
  /-- A poll that does not keep its fingerprint has read each job as it is, or the job
  has changed since the fingerprint that is kept. -/
  current : ∀ fingerprint jobs ended, step.exchange = ⟨.pollJobs fingerprint jobs, ended⟩ → ended ≠ PollEnd.recorded →
    ∀ kept, step.before.monitor.lastFingerprint = some kept → ∀ job ∈ jobs, ∀ known ∈ step.before.msdb.jobs,
    job.jobUuid = known.jobUuid → job = known ∨ ∀ date ∈ kept.maxDateModified, date < known.dateModified

/-- No definition in msdb has the hash of another one that was observed. -/
def CollisionFree (runtime : Runtime) (step : MonitorStep) : Prop :=
  ∀ job ∈ step.after.msdb.jobs, ∀ current last, toBlob runtime job.toJobRecord = .ok current →
    lastObserved step.after.sent job.jobUuid = some last → last.definitionHash = current.definitionHash →
    last.canonicalJson = current.canonicalJson

end MonitorStep

/-- A worker that starts: the hashes that it finds in its outbox are those that were
observed last. -/
structure MonitorSite.Started (site : MonitorSite) : Prop where
  past : site.past = []
  lastFingerprint : site.monitor.lastFingerprint = none
  unsent : site.unsent = none
  honest : site.toReporting.Honest

/-! ## What a step can do -/

/-- A step that changes neither msdb nor what the monitor keeps and has sent. -/
structure MonitorSite.Same (site after : MonitorSite) : Prop where
  reporting : after.toReporting = site.toReporting
  past : after.past = site.past
  msdb : after.msdb = site.msdb
  storings : after.storings = site.storings
  unsent : after.unsent = site.unsent

theorem monitor_does_cases {site after : MonitorSite} {exchange : Exchange MonitorAnswer}
    (does : exchange.1.Does runtime site exchange.2 after) :
    site.Same after ∨
    (∃ msdb, exchange = ⟨.edit msdb, ()⟩ ∧ after = site.edit msdb) ∨
    (∃ fingerprint jobs accepts, exchange = ⟨.pollJobs fingerprint jobs,
        (pollJobs runtime accepts fingerprint jobs site.toReporting).2⟩ ∧
      after = { site with toReporting := (pollJobs runtime accepts fingerprint jobs site.toReporting).1 }) ∨
    (∃ blobs, exchange = ⟨.storeHashes blobs, site.storings⟩ ∧ after = { site with
      toReporting := site.toReporting.storeHashes blobs
      storings := site.storings + 1
      unsent := some site.storings }) ∨
    ∃ storing fingerprint snapshotId jobs blobs accepts,
      exchange = ⟨.emitSnapshot storing fingerprint snapshotId jobs blobs, ()⟩ ∧ after = { site with
        toReporting := site.toReporting.emitSnapshot accepts fingerprint snapshotId jobs blobs
        unsent := if site.unsent = some storing then none else site.unsent } := by
  have idle : ∀ {after : MonitorSite}, after = site → site.Same after := by
    rintro _ rfl
    exact ⟨rfl, rfl, rfl, rfl, rfl⟩
  obtain ⟨call, answer⟩ := exchange
  cases call with
  | acquire =>
    obtain ⟨-, -, rfl⟩ := does
    exact .inl ⟨rfl, rfl, rfl, rfl, rfl⟩
  | release =>
    cases show after = _ from does
    exact .inl ⟨rfl, rfl, rfl, rfl, rfl⟩
  | connected => exact .inl (idle does)
  | randomUUID => exact .inl (idle does)
  | readJobsFingerprint =>
    cases answer with
    | error message => exact .inl (idle does)
    | ok reading => exact .inl (idle does.2)
  | queryJobs => exact .inl (idle does.2)
  | readJobs since =>
    cases answer with
    | error message => exact .inl (idle does)
    | ok jobs => exact .inl (idle does.2.2.2)
  | sameFingerprint fingerprint => exact .inl (idle does.2)
  | edit msdb => exact .inr (.inl ⟨msdb, rfl, does.2⟩)
  | pollJobs fingerprint jobs =>
    obtain ⟨accepts, rfl, rfl⟩ := does
    exact .inr (.inr (.inl ⟨fingerprint, jobs, accepts, rfl, rfl⟩))
  | storeHashes blobs =>
    obtain ⟨rfl, rfl⟩ := does
    exact .inr (.inr (.inr (.inl ⟨blobs, rfl, rfl⟩)))
  | emitSnapshot storing fingerprint snapshotId jobs blobs =>
    obtain ⟨accepts, rfl⟩ := does
    exact .inr (.inr (.inr (.inr ⟨storing, fingerprint, snapshotId, jobs, blobs, accepts, rfl, rfl⟩)))

/-- msdb only changes by an edit. -/
theorem monitor_does_msdb {site after : MonitorSite} {exchange : Exchange MonitorAnswer}
    (does : exchange.1.Does runtime site exchange.2 after) :
    (after.past = site.past ∧ after.msdb = site.msdb) ∨
      ∃ msdb, exchange = ⟨.edit msdb, ()⟩ ∧ after = site.edit msdb := by
  obtain same | edited | ⟨_, _, _, -, rfl⟩ | ⟨_, -, rfl⟩ | ⟨_, _, _, _, _, _, -, rfl⟩ := monitor_does_cases does
  · exact .inl ⟨same.past, same.msdb⟩
  · exact .inr edited
  · exact .inl ⟨rfl, rfl⟩
  · exact .inl ⟨rfl, rfl⟩
  · exact .inl ⟨rfl, rfl⟩

/-! ## What the monitor knows -/

section Known
variable {site after : MonitorSite} {exchange : Exchange MonitorAnswer}

theorem past_stays (does : exchange.1.Does runtime site exchange.2 after) : site.past.length ≤ after.past.length := by
  obtain ⟨past, -⟩ | ⟨msdb, -, rfl⟩ := monitor_does_msdb does
  · rw [past]
  · rw [MonitorSite.edit, List.length_append]
    exact Nat.le_add_right _ _

theorem found_stays (does : exchange.1.Does runtime site exchange.2 after) {moment : Nat} {msdb : Msdb}
    (found : (site.past ++ [site.msdb])[moment]? = some msdb) :
    (after.past ++ [after.msdb])[moment]? = some msdb := by
  obtain ⟨past, here⟩ | ⟨next, -, rfl⟩ := monitor_does_msdb does
  · rw [past, here]
    exact found
  · exact (List.getElem?_append_left (List.getElem?_eq_some_iff.mp found).1).trans found

theorem stood_before (does : exchange.1.Does runtime site exchange.2 after) {since : Nat}
    (small : since ≤ site.past.length) {job : MsdbJob} (stands : after.Stands since job) : site.Stands since job := by
  obtain ⟨past, here⟩ | ⟨next, -, rfl⟩ := monitor_does_msdb does
  · unfold MonitorSite.Stands MonitorSite.history at stands ⊢
    rw [past, here] at stands
    exact stands
  · unfold MonitorSite.Stands MonitorSite.history MonitorSite.edit at stands
    rw [List.map_append] at stands
    exact DatedHistory.Stands.before stands (by rwa [MonitorSite.history, List.length_map])

/-- The moment that a call tells. -/
def momentOf : Exchange MonitorAnswer → Option Nat
  | ⟨.acquire, moment⟩ => some (Moment.edits moment)
  | ⟨.readJobsFingerprint, .ok reading⟩ => some (Reading.edits reading)
  | ⟨.queryJobs, since⟩ => some since
  | _ => none

/-- A call tells the present moment. -/
theorem momentOf_now (does : exchange.1.Does runtime site exchange.2 after) {moment : Nat}
    (tells : momentOf exchange = some moment) : moment = after.past.length := by
  obtain ⟨call, answer⟩ := exchange
  cases call with
  | acquire =>
    obtain ⟨-, rfl, rfl⟩ := does
    exact (Option.some.inj tells).symm
  | readJobsFingerprint =>
    cases answer with
    | error message => cases tells
    | ok reading =>
      obtain ⟨rfl, rfl⟩ := does
      exact (Option.some.inj tells).symm
  | queryJobs =>
    obtain ⟨rfl, rfl⟩ := does
    exact (Option.some.inj tells).symm
  | _ => cases tells

/-- A moment that was told is past, and none was told before that is later. -/
def InOrder (earlier : List (Exchange MonitorAnswer)) (exchange : Exchange MonitorAnswer) (site : MonitorSite) : Prop :=
  ∀ moment, momentOf exchange = some moment → moment ≤ site.past.length ∧
    ∀ other ∈ earlier, ∀ before, momentOf other = some before → before ≤ moment

/-- What the monitor knows from a call that it made. -/
def Knows (earlier : List (Exchange MonitorAnswer)) : Exchange MonitorAnswer → MonitorSite → Prop
  | ⟨.readJobsFingerprint, .ok reading⟩, site => ∃ msdb : Msdb,
    (site.past ++ [site.msdb])[reading.edits]? = some msdb ∧ msdb.fingerprint = reading.fingerprint ∧
      ∀ jobs, jobsRead earlier = some jobs → ∀ job, site.Stands reading.edits job → job ∈ jobs
  | ⟨.readJobs since, .ok jobs⟩, site => since ≤ site.past.length ∧ (jobs.map fun job : MsdbJob => job.jobUuid).Nodup ∧
    ∀ job, site.Stands since job → job ∈ jobs
  | ⟨.storeHashes blobs, storing⟩, site => Nat.lt storing site.storings ∧ (site.unsent = some storing →
    site.monitor.definitionHashes = (site.toReporting.storeHashes blobs).monitor.definitionHashes)
  | _, _ => True

theorem InOrder.stays {earlier : List (Exchange MonitorAnswer)} {told : Exchange MonitorAnswer}
    (inOrder : InOrder earlier told site) (does : exchange.1.Does runtime site exchange.2 after) :
    InOrder earlier told after := fun moment tells =>
  ⟨(inOrder moment tells).1.trans (past_stays does), (inOrder moment tells).2⟩

/-- A call that tells the present moment tells one that is not before those told. -/
theorem inOrder_told {said : List (Exchange MonitorAnswer)} (does : exchange.1.Does runtime site exchange.2 after)
    (earlier : AtEach (fun before told => InOrder before told site) said) : InOrder said exchange after := by
  intro moment tells
  have now := momentOf_now does tells
  refine ⟨now.le, fun other member before told => ?_⟩
  obtain ⟨first, last, split⟩ := List.append_of_mem member
  exact ((earlier first other last split before told).1.trans (past_stays does)).trans now.ge

end Known

/-! ## Runs -/

section Runs
variable {initial : MonitorSite} {pool : Pool MonitorAnswer JsString Unit MonitorSite MonitorOperation}
  {run : List MonitorStep}

theorem monitor_does
    (reaches : Reaches (MonitorCall.Does runtime) (MonitorOperation.body runtime) initial pool run) :
    ∀ step ∈ run, step.exchange.1.Does runtime step.before step.exchange.2 step.after := reaches.does

theorem inOrder_run
    (reaches : Reaches (MonitorCall.Does runtime) (MonitorOperation.body runtime) initial pool run) :
    ∀ step ∈ run, AtEach (fun earlier told => InOrder earlier told step.before) step.said :=
  (reaches.recalls InOrder (fun step member earlier => inOrder_told (monitor_does reaches step member) earlier)
    fun step member _ _ inOrder => inOrder.stays (monitor_does reaches step member)).2

/-- What a sound step tells is known after it. -/
theorem MonitorStep.Sound.tells {step : MonitorStep} (sound : step.Sound)
    (does : step.exchange.1.Does runtime step.before step.exchange.2 step.after)
    (follows : MonitorFollows runtime step.said step.exchange.1)
    (inOrder : AtEach (fun earlier told => InOrder earlier told step.before) step.said) :
    Knows step.said step.exchange step.after := by
  obtain ⟨operation, said, call, answer, before, after⟩ := step
  change call.Does runtime before answer after at does
  change MonitorFollows runtime said call at follows
  cases call with
  | readJobsFingerprint =>
    cases answer with
    | error message => trivial
    | ok reading =>
      obtain ⟨rfl, rfl⟩ := does
      refine ⟨after.msdb, List.getElem?_concat_length, rfl, fun jobs read job stands => ?_⟩
      refine sound.unchanged _ jobs rfl read job (DatedHistory.Stands.here stands ?_)
      rw [MonitorSite.history, List.length_map]
  | readJobs since =>
    cases answer with
    | error message => trivial
    | ok jobs =>
      obtain ⟨distinct, stood, -, rfl⟩ := does
      obtain ⟨earlier, split⟩ := follows
      exact ⟨(inOrder earlier _ [] split since rfl).1, distinct, stood⟩
  | storeHashes blobs =>
    obtain ⟨rfl, rfl⟩ := does
    exact ⟨Nat.lt_succ_self _, fun _ => rfl⟩
  | _ => trivial

/-- What is known stays known at a sound step. -/
theorem MonitorStep.Sound.stays {step : MonitorStep} (sound : step.Sound)
    (does : step.exchange.1.Does runtime step.before step.exchange.2 step.after)
    {earlier : List (Exchange MonitorAnswer)} {told : Exchange MonitorAnswer} (knows : Knows earlier told step.before) :
    Knows earlier told step.after := by
  obtain ⟨call, answer⟩ := told
  cases call with
  | readJobsFingerprint =>
    cases answer with
    | error message => trivial
    | ok reading =>
      obtain ⟨msdb, found, same, read⟩ := knows
      have small : reading.edits ≤ step.before.past.length := by
        have bounded := (List.getElem?_eq_some_iff.mp found).1
        rw [List.length_append, List.length_singleton] at bounded
        exact Nat.le_of_lt_succ bounded
      exact ⟨msdb, found_stays does found, same, fun jobs before job stands =>
        read jobs before job (stood_before does small stands)⟩
  | readJobs since =>
    cases answer with
    | error message => trivial
    | ok jobs =>
      obtain ⟨small, distinct, stood⟩ := knows
      exact ⟨small.trans (past_stays does), distinct, fun job stands => stood job (stood_before does small stands)⟩
  | storeHashes blobs =>
    obtain ⟨numbered, stored⟩ := knows
    obtain same | ⟨msdb, -, edited⟩ | ⟨fingerprint, jobs, accepts, isPoll, polled⟩ | ⟨others, -, storing⟩ |
      ⟨storing, fingerprint, snapshotId, jobs, others, accepts, -, emitted⟩ := monitor_does_cases does
    · refine ⟨same.storings.symm ▸ numbered, fun unsent => ?_⟩
      rw [same.reporting]
      exact stored (same.unsent.symm.trans unsent)
    · rw [edited]
      exact ⟨numbered, stored⟩
    · rw [polled]
      refine ⟨numbered, fun unsent => ?_⟩
      cases (sound.alone _ _ _ isPoll).symm.trans unsent
    · rw [storing]
      refine ⟨Nat.lt_succ_of_lt numbered, fun unsent => ?_⟩
      exact absurd numbered (Option.some.inj unsent ▸ Nat.lt_irrefl _)
    · rw [emitted]
      refine ⟨numbered, fun unsent => ?_⟩
      rw [emitSnapshot_monitor]
      dsimp only at unsent
      split at unsent
      · cases unsent
      · exact stored unsent
  | _ => trivial

theorem knows_run
    (reaches : Reaches (MonitorCall.Does runtime) (MonitorOperation.body runtime) initial pool run)
    (sound : ∀ step ∈ run, step.Sound) :
    ∀ step ∈ run, AtEach (fun earlier told => Knows earlier told step.before) step.said := by
  have inOrder := inOrder_run reaches
  have follows := (reaches.allowed (fun _ => MonitorFollows runtime) obeys_monitor).2
  exact (reaches.recalls Knows
    (fun step member _ => (sound step member).tells (monitor_does reaches step member) (follows step member)
      (inOrder step member))
    fun step member _ _ knows => (sound step member).stays (monitor_does reaches step member) knows).2

/-! ## What is kept is right -/

/-- The fingerprint that is kept is one of a moment such that all the jobs that have
stood since were observed as they are, and the hashes that are kept are those observed
last. -/
structure MonitorSite.Right (runtime : Runtime) (site : MonitorSite) : Prop where
  dated : Dated (·.dateModified) site.history site.msdb.jobs
  told : ∀ kept, site.monitor.lastFingerprint = some kept → ∃ (moment : Nat) (earlier : Msdb),
    (site.past ++ [site.msdb])[moment]? = some earlier ∧ earlier.fingerprint = kept ∧
      ∀ job, site.Stands moment job → site.toReporting.UpToDate runtime job.toJobRecord
  honest : site.unsent = none → site.toReporting.Honest

theorem MonitorSite.Started.right {site : MonitorSite} (started : site.Started) : site.Right runtime where
  dated := by
    rw [MonitorSite.history, started.past]
    exact .start _
  told kept same := by
    rw [started.lastFingerprint] at same
    cases same
  honest _ := started.honest

theorem MonitorSite.history_found (site : MonitorSite) {moment : Nat} {earlier : Msdb}
    (found : (site.past ++ [site.msdb])[moment]? = some earlier) :
    (site.history ++ [site.msdb.jobs])[moment]? = some earlier.jobs := by
  have whole : site.history ++ [site.msdb.jobs] = (site.past ++ [site.msdb]).map (·.jobs) := by
    rw [List.map_append, MonitorSite.history]
    rfl
  rw [whole, List.getElem?_map, found]
  rfl

/-- With the fingerprint of an earlier moment, every job has been there since. -/
theorem MonitorSite.Right.stands {site : MonitorSite} (right : site.Right runtime) {moment : Nat} {earlier : Msdb}
    (found : (site.past ++ [site.msdb])[moment]? = some earlier)
    (same : earlier.fingerprint = site.msdb.fingerprint) {job : MsdbJob} (here : job ∈ site.msdb.jobs) :
    site.Stands moment job := by
  exact right.dated.stands_of_latest (site.history_found found) (congrArg JobsFingerprint.maxDateModified same) here

/-- What was read of the jobs, after what an operation was told before. -/
structure ReadSince (site : MonitorSite) (said : List (Exchange MonitorAnswer)) (jobs : List MsdbJob) (since : Nat) :
    Prop where
  later : ∀ moment : Moment, ⟨.acquire, moment⟩ ∈ said → moment.edits ≤ since
  past : since ≤ site.past.length
  distinct : (jobs.map (·.jobUuid)).Nodup
  stood : ∀ job, site.Stands since job → job ∈ jobs

private theorem acquired_before {told rest : List (Exchange MonitorAnswer)} {moment : Moment}
    (member : ⟨.acquire, moment⟩ ∈ told ++ rest) (others : ∀ exchange ∈ rest, exchange.1 ≠ .acquire) :
    ⟨.acquire, moment⟩ ∈ told :=
  (List.mem_append.mp member).resolve_right fun later => others _ later rfl

/-- A poll has read the jobs after their fingerprint. -/
theorem read_of_pollJobs {step : MonitorStep} {fingerprint : JobsFingerprint} {jobs : List MsdbJob}
    (follows : MonitorFollows runtime step.said (.pollJobs fingerprint jobs))
    (inOrder : AtEach (fun earlier told => InOrder earlier told step.before) step.said)
    (knows : AtEach (fun earlier told => Knows earlier told step.before) step.said) :
    ∃ since edits earlier, ReadSince step.before step.said jobs since ∧ edits ≤ since ∧
      (step.before.past ++ [step.before.msdb])[edits]? = some earlier ∧ earlier.fingerprint = fingerprint := by
  obtain ⟨told, edits, since, split⟩ := follows
  obtain ⟨earlier, found, same, -⟩ := knows told _ _ split
  obtain ⟨past, each⟩ := inOrder (told ++ [⟨.readJobsFingerprint, .ok ⟨edits, fingerprint⟩⟩,
    ⟨.sameFingerprint fingerprint, false⟩]) ⟨.queryJobs, since⟩ [⟨.readJobs since, .ok jobs⟩]
    (by rw [split, List.append_assoc]; rfl) since rfl
  obtain ⟨-, distinct, stood⟩ := knows (told ++ [⟨.readJobsFingerprint, .ok ⟨edits, fingerprint⟩⟩,
    ⟨.sameFingerprint fingerprint, false⟩, ⟨.queryJobs, since⟩]) ⟨.readJobs since, .ok jobs⟩ []
    (by rw [split, List.append_assoc]; rfl)
  refine ⟨since, edits, earlier, ⟨fun moment member => ?_, past, distinct, stood⟩, ?_, found, same⟩
  · have inside := acquired_before (split ▸ member) (by simp)
    exact each _ (List.mem_append_left _ inside) _ rfl
  · exact each ⟨.readJobsFingerprint, .ok ⟨edits, fingerprint⟩⟩ (by simp) edits rfl

/-- A snapshot has read the jobs, and then the fingerprint. -/
theorem read_of_emitSnapshot {step : MonitorStep} {storing : Nat} {fingerprint : JobsFingerprint}
    {snapshotId : SnapshotId} {jobs : List MsdbJob} {blobs : List JobDefinitionBlob}
    (follows : MonitorFollows runtime step.said (.emitSnapshot storing fingerprint snapshotId jobs blobs))
    (inOrder : AtEach (fun earlier told => InOrder earlier told step.before) step.said)
    (knows : AtEach (fun earlier told => Knows earlier told step.before) step.said) :
    jobs.mapM (fun job => toBlob runtime job.toJobRecord) = .ok blobs ∧
    (step.before.unsent = some storing → step.before.monitor.definitionHashes =
      (step.before.toReporting.storeHashes blobs).monitor.definitionHashes) ∧
    ∃ since edits earlier, ReadSince step.before step.said jobs since ∧
      (step.before.past ++ [step.before.msdb])[edits]? = some earlier ∧ earlier.fingerprint = fingerprint ∧
      ∀ job, step.before.Stands edits job → job ∈ jobs := by
  obtain ⟨told, since, edits, split, made⟩ := follows
  obtain ⟨past, each⟩ := inOrder told ⟨.queryJobs, since⟩ _ split since rfl
  obtain ⟨-, distinct, stood⟩ := knows (told ++ [⟨.queryJobs, since⟩]) ⟨.readJobs since, .ok jobs⟩
    [⟨.randomUUID, snapshotId⟩, ⟨.storeHashes blobs, storing⟩, ⟨.readJobsFingerprint, .ok ⟨edits, fingerprint⟩⟩]
    (by rw [split, List.append_assoc]; rfl)
  obtain ⟨-, stored⟩ := knows (told ++ [⟨.queryJobs, since⟩, ⟨.readJobs since, .ok jobs⟩, ⟨.randomUUID, snapshotId⟩])
    ⟨.storeHashes blobs, storing⟩ [⟨.readJobsFingerprint, .ok ⟨edits, fingerprint⟩⟩]
    (by rw [split, List.append_assoc]; rfl)
  obtain ⟨earlier, found, same, read⟩ := knows (told ++ [⟨.queryJobs, since⟩, ⟨.readJobs since, .ok jobs⟩,
    ⟨.randomUUID, snapshotId⟩, ⟨.storeHashes blobs, storing⟩]) ⟨.readJobsFingerprint, .ok ⟨edits, fingerprint⟩⟩ []
    (by rw [split, List.append_assoc]; rfl)
  refine ⟨made, stored, since, edits, earlier, ⟨fun moment member => ?_, past, distinct, stood⟩, found, same,
    read jobs (by simp [jobsRead])⟩
  have inside := acquired_before (split ▸ member) (by simp)
  exact each _ inside _ rfl

/-- After a poll that keeps its fingerprint and was refused nothing, the jobs that it
has read are up to date. -/
theorem upToDate_of_recorded {accepts : HubMessage → Bool} {fingerprint : JobsFingerprint} {jobs : List MsdbJob}
    {reporting : Reporting} (distinct : (jobs.map (·.jobUuid)).Nodup) (honest : reporting.Honest)
    (recorded : (pollJobs runtime accepts fingerprint jobs reporting).2 = .recorded)
    (unrefused : (pollJobs runtime accepts fingerprint jobs reporting).1.refusals = reporting.refusals) :
    ∀ job ∈ jobs, (pollJobs runtime accepts fingerprint jobs reporting).1.UpToDate runtime job.toJobRecord := by
  obtain ⟨other, -⟩ | ⟨-, whole, same⟩ := pollJobs_cases runtime accepts fingerprint jobs reporting
  · exact absurd recorded other
  · rw [same] at unrefused ⊢
    intro job member
    obtain ⟨blob, made, kept⟩ := pollEach_kept distinct whole unrefused job member
    exact ⟨blob, made, honest.pollEach _ _ kept⟩

/-- A job that stands since the fingerprint that is kept is not newer than it. -/
theorem not_newer {site : MonitorSite} {moment : Nat} {earlier : Msdb} {job : MsdbJob}
    (found : (site.past ++ [site.msdb])[moment]? = some earlier) (stands : site.Stands moment job) :
    ∃ date ∈ earlier.fingerprint.maxDateModified, job.dateModified ≤ date := by
  have first : ((site.history ++ [site.msdb.jobs]).drop moment)[0]? = some earlier.jobs := by
    rw [List.getElem?_drop, Nat.add_zero]
    exact site.history_found found
  exact latest_bound (stands earlier.jobs (List.mem_of_getElem? first))

/-- What was said of the fingerprint stays true if the fingerprint is kept and what is
up to date stays so. -/
theorem told_stays {site after : MonitorSite} {exchange : Exchange MonitorAnswer} (right : site.Right runtime)
    (does : exchange.1.Does runtime site exchange.2 after)
    (fingerprint : after.monitor.lastFingerprint = site.monitor.lastFingerprint)
    (upToDate : ∀ moment (earlier : Msdb) job, (site.past ++ [site.msdb])[moment]? = some earlier →
      site.monitor.lastFingerprint = some earlier.fingerprint → site.Stands moment job →
      site.toReporting.UpToDate runtime job.toJobRecord → after.toReporting.UpToDate runtime job.toJobRecord)
    (kept : JobsFingerprint) (same : after.monitor.lastFingerprint = some kept) :
    ∃ (moment : Nat) (earlier : Msdb), (after.past ++ [after.msdb])[moment]? = some earlier ∧
      earlier.fingerprint = kept ∧ ∀ job, after.Stands moment job →
        after.toReporting.UpToDate runtime job.toJobRecord := by
  obtain ⟨moment, earlier, found, isKept, told⟩ := right.told kept (fingerprint.symm.trans same)
  have small : moment ≤ site.past.length := by
    have bounded := (List.getElem?_eq_some_iff.mp found).1
    rw [List.length_append, List.length_singleton] at bounded
    exact Nat.le_of_lt_succ bounded
  refine ⟨moment, earlier, found_stays does found, isKept, fun job stands => ?_⟩
  have stood := stood_before does small stands
  exact upToDate moment earlier job found (isKept ▸ fingerprint.symm.trans same) stood (told job stood)

/-- A poll that does not keep its fingerprint leaves what is up to date so. -/
theorem MonitorStep.Sound.told_of_unrecorded {step : MonitorStep} (sound : step.Sound)
    {accepts : HubMessage → Bool} {fingerprint : JobsFingerprint} {jobs : List MsdbJob} {ended : PollEnd}
    (isPoll : step.exchange = ⟨.pollJobs fingerprint jobs, ended⟩) (unrecorded : ended ≠ .recorded)
    {moment : Nat} {earlier : Msdb} {known : MsdbJob}
    (found : (step.before.past ++ [step.before.msdb])[moment]? = some earlier)
    (kept : step.before.monitor.lastFingerprint = some earlier.fingerprint)
    (stands : step.before.Stands moment known)
    (upToDate : step.before.toReporting.UpToDate runtime known.toJobRecord) :
    (pollEach runtime accepts jobs step.before.toReporting).1.UpToDate runtime known.toJobRecord := by
  refine upToDate.pollEach fun job member same => ?_
  have small : moment ≤ step.before.history.length := by
    have bounded := (List.getElem?_eq_some_iff.mp found).1
    rw [List.length_append, List.length_singleton] at bounded
    rw [MonitorSite.history, List.length_map]
    exact Nat.le_of_lt_succ bounded
  obtain agrees | newer :=
    sound.current fingerprint jobs ended isPoll unrecorded _ kept job member known (stands.here small) same
  · exact agrees
  · obtain ⟨date, isLatest, bound⟩ := not_newer found stands
    exact absurd (newer date isLatest) (not_lt.mpr bound)

/-- What is kept stays right at a sound step. -/
theorem MonitorStep.Sound.right {step : MonitorStep} (sound : step.Sound)
    (does : step.exchange.1.Does runtime step.before step.exchange.2 step.after)
    (follows : MonitorFollows runtime step.said step.exchange.1)
    (inOrder : AtEach (fun earlier told => InOrder earlier told step.before) step.said)
    (knows : AtEach (fun earlier told => Knows earlier told step.before) step.said)
    (right : step.before.Right runtime) : step.after.Right runtime := by
  obtain same | ⟨msdb, isEdit, edited⟩ | ⟨fingerprint, jobs, accepts, isPoll, polled⟩ | ⟨blobs, -, stored⟩ |
    ⟨storing, fingerprint, snapshotId, jobs, blobs, accepts, isEmit, emitted⟩ := monitor_does_cases does
  · exact {
      dated := by
        rw [MonitorSite.history, same.past, same.msdb]
        exact right.dated
      told := told_stays right does (by rw [same.reporting]) fun _ _ _ _ _ _ upToDate => by
        rw [same.reporting]
        exact upToDate
      honest := fun unsent => by
        rw [same.reporting]
        exact right.honest (same.unsent.symm.trans unsent) }
  · exact {
      dated := by
        rw [edited, MonitorSite.history, MonitorSite.edit, List.map_append]
        exact .change right.dated (sound.dated msdb isEdit)
      told := told_stays right does (by rw [edited, MonitorSite.edit]) fun _ _ _ _ _ _ upToDate => by
        rw [edited]
        exact upToDate
      honest := fun unsent => by
        rw [edited] at unsent ⊢
        exact right.honest unsent }
  · have alone := sound.alone _ _ _ isPoll
    rw [isPoll] at follows
    obtain ⟨since, edits, earlier, read, ordered, found, isFingerprint⟩ := read_of_pollJobs follows inOrder knows
    have dated : Dated (·.dateModified) step.after.history step.after.msdb.jobs := by
      rw [polled]
      exact right.dated
    obtain ⟨unrecorded, same⟩ | ⟨recorded, -, same⟩ :=
      pollJobs_cases runtime accepts fingerprint jobs step.before.toReporting
    · have reporting : step.after.toReporting = (pollEach runtime accepts jobs step.before.toReporting).1 := by
        rw [polled]
        exact same
      exact {
        dated := dated
        told := told_stays right does (by rw [reporting, pollEach_lastFingerprint])
          fun moment earlier known found kept stands upToDate => by
            rw [reporting]
            exact sound.told_of_unrecorded isPoll unrecorded found kept stands upToDate
        honest := fun _ => by
          rw [reporting]
          exact (right.honest alone).pollEach }
    · have reporting : step.after.toReporting =
          (pollJobs runtime accepts fingerprint jobs step.before.toReporting).1 := by rw [polled]
      have unrefused := sound.accepted fingerprint jobs (recorded ▸ isPoll)
      rw [reporting] at unrefused
      have current := upToDate_of_recorded read.distinct (right.honest alone) recorded unrefused
      have stood : ∀ job, step.after.Stands edits job → job ∈ jobs := by
        rw [polled]
        exact fun job stands => read.stood job (DatedHistory.Stands.later stands ordered)
      exact {
        dated := dated
        told := fun kept isKept => by
          rw [reporting, same] at isKept
          refine ⟨edits, earlier, by rw [polled]; exact found, isFingerprint.trans (Option.some.inj isKept),
            fun job stands => ?_⟩
          rw [reporting]
          exact current job (stood job stands)
        honest := fun _ => by
          rw [reporting, same]
          exact (right.honest alone).pollEach }
  · rw [stored] at does ⊢
    exact {
      dated := right.dated
      told := told_stays right does rfl fun _ _ _ _ _ _ upToDate => upToDate
      honest := fun unsent => by cases unsent }
  · have own := sound.own _ _ _ _ _ isEmit
    have unrefused := sound.whole _ _ _ _ _ isEmit
    rw [isEmit] at follows
    obtain ⟨made, hashes, since, edits, earlier, read, found, isFingerprint, stood⟩ :=
      read_of_emitSnapshot follows inOrder knows
    rw [emitted] at unrefused ⊢
    exact {
      dated := right.dated
      told := fun kept isKept => by
        rw [emitSnapshot_monitor] at isKept
        exact ⟨edits, earlier, found, isFingerprint.trans (Option.some.inj isKept), fun job stands =>
          emitSnapshot_upToDate unrefused read.distinct made (stood job stands)⟩
      honest := fun _ => emitSnapshot_honest unrefused (hashes own) }

theorem right_run
    (reaches : Reaches (MonitorCall.Does runtime) (MonitorOperation.body runtime) initial pool run)
    (started : initial.Started) (sound : ∀ step ∈ run, step.Sound) : ∀ step ∈ run, step.before.Right runtime := by
  have follows := (reaches.allowed (fun _ => MonitorFollows runtime) obeys_monitor).2
  have inOrder := inOrder_run reaches
  have knows := knows_run reaches sound
  exact (reaches.invariant (MonitorSite.Right runtime) started.right fun step member right =>
    (sound step member).right (monitor_does reaches step member) (follows step member) (inOrder step member)
      (knows step member) right).2

/-- A poll waits for its turn before anything else. -/
def WaitsTurn (operation : MonitorOperation) (said : List (Exchange MonitorAnswer)) (call : MonitorCall) : Prop :=
  operation = .pollDefinitions → call = .acquire ∨ ∃ moment, ⟨.acquire, moment⟩ ∈ said

theorem obeys_waitsTurn (operation : MonitorOperation) :
    Obeys (WaitsTurn operation) [] (operation.body runtime) := by
  cases operation with
  | pollDefinitions =>
    refine .call (fun _ => .inl rfl) fun moment => ?_
    have heard : (⟨.acquire, moment⟩ : Exchange MonitorAnswer) ∈ [] ++ [⟨MonitorCall.acquire, moment⟩] := by simp
    exact (obeys_heard _ heard).mono fun _ _ member _ => .inr ⟨moment, member⟩
  | _ => exact (obeys_any _).mono fun _ _ _ isPoll => by cases isPoll

/-- In a quiet time, what was read since the poll got its turn is what is there. -/
theorem read_now {site : MonitorSite} {said : List (Exchange MonitorAnswer)} {jobs : List MsdbJob} {since : Nat}
    (read : ReadSince site said jobs since) {moment : Moment} (turn : ⟨.acquire, moment⟩ ∈ said)
    (quiet : moment.edits = site.past.length) {job : MsdbJob} (here : job ∈ site.msdb.jobs) : job ∈ jobs := by
  have now : since = site.history.length := by
    rw [MonitorSite.history, List.length_map]
    exact Nat.le_antisymm read.past (quiet ▸ read.later moment turn)
  exact read.stood job (now ▸ stands_now here)

/-- A completing step of a poll in a quiet time leaves all jobs up to date. -/
theorem MonitorStep.Sound.upToDate {step : MonitorStep} (sound : step.Sound)
    (does : step.exchange.1.Does runtime step.before step.exchange.2 step.after)
    (follows : MonitorFollows runtime step.said step.exchange.1)
    (inOrder : AtEach (fun earlier told => InOrder earlier told step.before) step.said)
    (knows : AtEach (fun earlier told => Knows earlier told step.before) step.said)
    (right : step.before.Right runtime) {moment : Moment} (turn : ⟨.acquire, moment⟩ ∈ step.said)
    (quiet : moment.edits = step.after.past.length) (completes : Completes step.exchange) {job : MsdbJob}
    (here : job ∈ step.after.msdb.jobs) : step.after.toReporting.UpToDate runtime job.toJobRecord := by
  obtain ⟨operation, said, call, answer, before, after⟩ := step
  change call.Does runtime before answer after at does
  change MonitorFollows runtime said call at follows
  cases call with
  | sameFingerprint fingerprint =>
    cases show answer = true from completes
    obtain ⟨same, rfl⟩ := does
    obtain ⟨told, edits, split⟩ := follows
    obtain ⟨msdb, found, isFingerprint, -⟩ := knows told _ [] split
    obtain ⟨past, each⟩ := inOrder told _ [] split edits rfl
    have now : edits = after.past.length :=
      Nat.le_antisymm past (quiet ▸ each _ (acquired_before (split ▸ turn) (by simp)) _ rfl)
    have current : after.msdb.fingerprint = fingerprint := by
      rw [now, List.getElem?_concat_length] at found
      exact Option.some.inj found ▸ isFingerprint
    obtain ⟨kept, earlier, there, isKept, upToDate⟩ := right.told fingerprint (of_decide_eq_true same.symm)
    exact upToDate job (right.stands there (isKept.trans current.symm) here)
  | pollJobs fingerprint jobs =>
    cases show answer = PollEnd.recorded from completes
    obtain ⟨since, edits, earlier, read, -⟩ := read_of_pollJobs follows inOrder knows
    have unrefused := sound.accepted fingerprint jobs rfl
    have alone := sound.alone fingerprint jobs _ rfl
    obtain ⟨accepts, recorded, rfl⟩ := does
    exact upToDate_of_recorded read.distinct (right.honest alone) recorded.symm unrefused job
      (read_now read turn quiet here)
  | emitSnapshot storing fingerprint snapshotId jobs blobs =>
    obtain ⟨made, -, since, edits, earlier, read, -⟩ := read_of_emitSnapshot follows inOrder knows
    have unrefused := sound.whole storing fingerprint snapshotId jobs blobs rfl
    obtain ⟨accepts, rfl⟩ := does
    exact emitSnapshot_upToDate unrefused read.distinct made (read_now read turn quiet here)
  | _ => exact completes.elim

/-- **In a run whose steps are sound, polls converge**: one that completes in a quiet
time leaves every job observed last as it is. -/
theorem polls_converge
    (reaches : Reaches (MonitorCall.Does runtime) (MonitorOperation.body runtime) initial pool run)
    (started : initial.Started) (sound : ∀ step ∈ run, step.Sound)
    (collisionFree : ∀ step ∈ run, step.CollisionFree runtime) : ∀ step ∈ run, step.Converges runtime := by
  intro step member isPoll completes quiet job here
  have turn : ∃ moment, (⟨.acquire, moment⟩ : Exchange MonitorAnswer) ∈ step.said := by
    refine ((reaches.allowed WaitsTurn obeys_waitsTurn).2 step member isPoll).resolve_left fun first => ?_
    obtain ⟨operation, said, call, answer, before, after⟩ := step
    cases first
    exact completes
  obtain ⟨moment, turn⟩ := turn
  have follows := (reaches.allowed (fun _ => MonitorFollows runtime) obeys_monitor).2 step member
  obtain ⟨current, made, observed⟩ := (sound step member).upToDate (monitor_does reaches step member) follows
    (inOrder_run reaches step member) (knows_run reaches sound step member)
      (right_run reaches started sound step member)
    turn (congrArg Moment.edits (quiet moment turn)) completes here
  obtain ⟨last, isLast, same⟩ := Option.map_eq_some_iff.mp observed
  exact ⟨current, last, made, isLast, collisionFree step member job here current last made isLast same⟩

end Runs

/-! ## A sample instance -/

/-- One job, switched on or off, that was changed at a date. -/
def sampleMsdb (enabled : Bool) (date : Int) : Msdb where
  jobs := [{ jobUuid := js "j1", definition := observedJob enabled, dateModified := date, madeBy := none }]
  distinct := List.nodup_singleton _

def sampleSite : MonitorSite where
  monitor := { instanceName := js "SQL01", definitionHashes := [], lastFingerprint := none, pendingAttribution := [] }
  sent := []
  refusals := 0
  past := []
  msdb := sampleMsdb true 1
  exclusive := false
  storings := 0
  unsent := none

theorem sampleSite_started : sampleSite.Started where
  past := rfl
  lastFingerprint := rfl
  unsent := rfl
  honest jobUuid hash kept := by cases kept

/-- An instance on which everything works, and a stream that accepts all or nothing. -/
def monitorAnswer (accepting : Bool) (site : MonitorSite) :
    (call : MonitorCall) → Option (MonitorAnswer call × MonitorSite)
  | .acquire =>
    if site.exclusive then none
    else some (({ edits := site.past.length, refusals := site.refusals } : Moment), { site with exclusive := true })
  | .release => some ((), { site with exclusive := false })
  | .connected => some (true, site)
  | .readJobsFingerprint =>
    some (.ok ({ edits := site.past.length, fingerprint := site.msdb.fingerprint } : Reading), site)
  | .queryJobs => some (site.past.length, site)
  | .readJobs since => if since = site.past.length then some (.ok site.msdb.jobs, site) else none
  | .sameFingerprint fingerprint => some (decide (site.monitor.lastFingerprint = some fingerprint), site)
  | .pollJobs fingerprint jobs =>
    let polled := pollJobs mirrorRuntime (fun _ => accepting) fingerprint jobs site.toReporting
    some (polled.2, { site with toReporting := polled.1 })
  | .randomUUID => some (SnapshotSession.sampleId, site)
  | .storeHashes blobs => some (site.storings, { site with
      toReporting := site.toReporting.storeHashes blobs
      storings := site.storings + 1
      unsent := some site.storings })
  | .emitSnapshot storing fingerprint snapshotId jobs blobs => some ((), { site with
      toReporting := site.toReporting.emitSnapshot (fun _ => accepting) fingerprint snapshotId jobs blobs
      unsent := if site.unsent = some storing then none else site.unsent })
  | .edit msdb =>
    if ∀ job ∈ msdb.jobs, job ∉ site.msdb.jobs → job.madeBy = none then some ((), site.edit msdb) else none

theorem monitorAnswer_does {accepting : Bool} {site after : MonitorSite} {call : MonitorCall}
    {answer : MonitorAnswer call} (answered : monitorAnswer accepting site call = some (answer, after)) :
    call.Does mirrorRuntime site answer after := by
  cases call with
  | acquire =>
    simp only [monitorAnswer] at answered
    split at answered
    · cases answered
    · rename_i free
      cases answered
      exact ⟨Bool.eq_false_of_not_eq_true free, rfl, rfl⟩
  | readJobs since =>
    simp only [monitorAnswer] at answered
    split at answered
    · rename_i now
      cases answered
      refine ⟨site.msdb.distinct, fun job stands => ?_, fun job member => ⟨site.msdb.jobs, ?_, ?_⟩, rfl⟩
      · exact DatedHistory.Stands.here stands (by rw [MonitorSite.history, List.length_map, now])
      · have here : since = site.history.length := by rw [MonitorSite.history, List.length_map, now]
        rw [here, List.drop_left]
        exact List.mem_singleton_self _
      · exact List.mem_map_of_mem member
    · cases answered
  | edit msdb =>
    simp only [monitorAnswer] at answered
    split at answered
    · rename_i tagged
      cases answered
      exact ⟨tagged, rfl⟩
    · cases answered
  | pollJobs fingerprint jobs =>
    cases answered
    exact ⟨_, rfl, rfl⟩
  | emitSnapshot storing fingerprint snapshotId jobs blobs =>
    cases answered
    exact ⟨_, rfl⟩
  | readJobsFingerprint | queryJobs | sameFingerprint | storeHashes =>
    cases answered
    exact ⟨rfl, rfl⟩
  | release | connected | randomUUID =>
    cases answered
    rfl

/-- Start an operation, or let one take so many steps. -/
inductive MonitorWork where
  | begin (operation : MonitorOperation)
  | steps (index count : Nat) (accepting : Bool)

def MonitorWork.moves : MonitorWork → List (Move MonitorAnswer MonitorSite MonitorOperation)
  | .begin operation => [.begin operation]
  | .steps index count accepting => List.replicate count (.step index (monitorAnswer accepting))

def afterMonitorWork (work : List MonitorWork) :
    Pool MonitorAnswer JsString Unit MonitorSite MonitorOperation × List MonitorStep :=
  (work.flatMap MonitorWork.moves).foldl (Pool.play (MonitorOperation.body mirrorRuntime)) (⟨sampleSite, []⟩, [])

theorem reaches_afterMonitorWork (work : List MonitorWork) :
    Reaches (MonitorCall.Does mirrorRuntime) (MonitorOperation.body mirrorRuntime) sampleSite
      (afterMonitorWork work).1 (afterMonitorWork work).2 := by
  refine reaches_play _ fun index world member site call answer after answered => ?_
  obtain ⟨part, -, inside⟩ := List.mem_flatMap.mp member
  cases part with
  | begin operation => simp [MonitorWork.moves] at inside
  | steps other count accepting =>
    obtain ⟨-, same⟩ := List.mem_replicate.mp inside
    cases same
    exact monitorAnswer_does answered

/-! A poll whose change is refused keeps its fingerprint all the same. The next one
finds it unchanged and reports nothing. -/

/-- The job is reported, switched off and polled twice: the first poll is refused. -/
def refusedRun : List MonitorStep := (afterMonitorWork [
  .begin .pollDefinitions, .steps 0 8 true, .begin (.edit (sampleMsdb false 2)), .steps 1 1 true,
  .begin .pollDefinitions, .steps 2 8 false, .begin .pollDefinitions, .steps 3 4 true]).2

def isNow (site : MonitorSite) (moment : Moment) : Bool := moment = ⟨site.past.length, site.refusals⟩

private theorem eq_of_isNow {site : MonitorSite} {moment : Moment} (now : isNow site moment = true) :
    moment = ⟨site.past.length, site.refusals⟩ := of_decide_eq_true now

/-- Since the poll got its turn, nothing was edited and nothing refused. -/
def isQuiet (step : MonitorStep) : Bool := step.said.all fun
  | ⟨.acquire, moment⟩ => isNow step.after moment
  | _ => true

theorem quiet_of_isQuiet {step : MonitorStep} (quiet : isQuiet step = true) : MonitorStep.Quiet step :=
  fun moment member => eq_of_isNow (List.all_eq_true.mp quiet ⟨.acquire, moment⟩ member)

/-- The step completes a poll that finds the fingerprint as it was, and of the job `j1`
another definition was observed last. -/
def missesChange (step : MonitorStep) : Bool :=
  match step.operation, step.exchange with
  | .pollDefinitions, ⟨.sameFingerprint _, same⟩ => same && isQuiet step && step.after.msdb.jobs.any fun job =>
    (toBlob mirrorRuntime job.toJobRecord).toOption.map (·.canonicalJson) ≠
      (lastObserved step.after.sent job.jobUuid).map (·.canonicalJson)
  | _, _ => false

private theorem not_converges_of_missesChange {step : MonitorStep} (misses : missesChange step = true) :
    ¬ step.Converges mirrorRuntime := by
  obtain ⟨operation, said, call, answer, before, after⟩ := step
  unfold missesChange Taken.exchange at misses
  split at misses
  · rename_i isPoll isSame
    obtain ⟨first, missed⟩ := (Bool.and_eq_true _ _).mp misses
    obtain ⟨same, quiet⟩ := (Bool.and_eq_true _ _).mp first
    obtain ⟨job, here, apart⟩ := List.any_eq_true.mp missed
    intro converges
    obtain ⟨current, last, made, isLast, observed⟩ := converges isPoll (by
      unfold Taken.exchange
      rw [isSame]
      exact same) (quiet_of_isQuiet quiet) job here
    rw [made, isLast] at apart
    simp [observed, Except.toOption] at apart
  · cases misses

private theorem refusedRun_misses : (refusedRun[20]?).any missesChange = true := by decide +kernel

/-- **A change that was refused can stay unobserved**, however many polls complete. -/
theorem refused_change_missed :
    ¬ ∀ (runtime : Runtime) (initial : MonitorSite) (run : List MonitorStep)
        (pool : Pool MonitorAnswer JsString Unit MonitorSite MonitorOperation),
      Reaches (MonitorCall.Does runtime) (MonitorOperation.body runtime) initial pool run →
        initial.Started → ∀ step ∈ run, step.Converges runtime := by
  intro claim
  obtain ⟨step, found, misses⟩ := (Option.any_eq_true _ _).mp refusedRun_misses
  exact not_converges_of_missesChange misses
    (claim mirrorRuntime sampleSite refusedRun _ (reaches_afterMonitorWork _) sampleSite_started step
      (List.mem_of_getElem? found))

/-! With nothing refused, the second poll reports the change. -/

def acceptedRun : List MonitorStep := (afterMonitorWork [
  .begin .pollDefinitions, .steps 0 8 true, .begin (.edit (sampleMsdb false 2)), .steps 1 1 true,
  .begin .pollDefinitions, .steps 2 7 true]).2

def isRecorded (ended : PollEnd) : Bool := ended = .recorded

private theorem eq_of_isRecorded {ended : PollEnd} (recorded : isRecorded ended = true) : ended = .recorded :=
  of_decide_eq_true recorded

/-- Whether a step is sound, if it is not one of a snapshot. -/
def isSound (step : MonitorStep) : Bool :=
  match step.exchange with
  | ⟨.edit msdb, _⟩ => decide (∀ item ∈ msdb.jobs, item ∉ step.before.msdb.jobs →
    ∀ collection ∈ step.before.history ++ [step.before.msdb.jobs], ∀ old ∈ collection,
      old.dateModified < item.dateModified)
  | ⟨.readJobsFingerprint, _⟩ => (jobsRead step.said).isNone
  | ⟨.pollJobs _ _, ended⟩ => decide (step.before.unsent = none) && isRecorded ended &&
    decide (step.after.refusals = step.before.refusals)
  | ⟨.emitSnapshot _ _ _ _ _, _⟩ => false
  | _ => true

private theorem sound_of_isSound {step : MonitorStep} (sound : isSound step = true) : step.Sound where
  dated msdb isEdit := by
    simp only [isSound, isEdit] at sound
    have newer := of_decide_eq_true sound
    exact newer
  unchanged reading jobs isReading read := by
    simp only [isSound, isReading, read] at sound
    cases sound
  alone fingerprint jobs ended isPoll := by
    simp only [isSound, isPoll, Bool.and_eq_true, decide_eq_true_eq] at sound
    exact sound.1.1
  own storing fingerprint snapshotId jobs blobs isEmit := by
    simp only [isSound, isEmit] at sound
    cases sound
  whole storing fingerprint snapshotId jobs blobs isEmit := by
    simp only [isSound, isEmit] at sound
    cases sound
  accepted fingerprint jobs isPoll := by
    simp only [isSound, isPoll, Bool.and_eq_true, decide_eq_true_eq] at sound
    exact sound.2
  current fingerprint jobs ended isPoll unrecorded := by
    simp only [isSound, isPoll, Bool.and_eq_true, decide_eq_true_eq] at sound
    exact absurd (eq_of_isRecorded sound.1.2) unrecorded

/-- Whether the definitions in msdb have other hashes than those observed. -/
def isCollisionFree (step : MonitorStep) : Bool := step.after.msdb.jobs.all fun job =>
  match lastObserved step.after.sent job.jobUuid with
  | none => true
  | some last => (toBlob mirrorRuntime job.toJobRecord).toOption.all fun current =>
    decide (last.definitionHash = current.definitionHash → last.canonicalJson = current.canonicalJson)

private theorem collisionFree_of_isCollisionFree {step : MonitorStep} (free : isCollisionFree step = true) :
    step.CollisionFree mirrorRuntime := by
  intro job here current last made isLast
  have checked := List.all_eq_true.mp free job here
  simp only [isLast, made, Except.toOption, Option.all_some] at checked
  exact of_decide_eq_true checked

/-- The step completes a poll that has reported the jobs in a quiet time. -/
def completesQuietly (step : MonitorStep) : Bool :=
  match step.operation, step.exchange with
  | .pollDefinitions, ⟨.pollJobs _ _, ended⟩ => isRecorded ended && isQuiet step
  | _, _ => false

private theorem acceptedRun_checked : acceptedRun.all isSound = true ∧ acceptedRun.all isCollisionFree = true ∧
    (acceptedRun[15]?).any completesQuietly = true := by decide +kernel

/-- The job is observed as the second poll has found it. -/
theorem accepted_change_observed : ∃ step ∈ acceptedRun, ∀ job ∈ step.after.msdb.jobs,
    Completes step.exchange ∧ step.after.Observed mirrorRuntime job.toJobRecord := by
  obtain ⟨sound, free, completed⟩ := acceptedRun_checked
  obtain ⟨step, found, completes⟩ := (Option.any_eq_true _ _).mp completed
  have member := List.mem_of_getElem? found
  obtain ⟨operation, said, call, answer, before, after⟩ := step
  unfold completesQuietly Taken.exchange at completes
  split at completes
  · rename_i isPoll isRecording
    obtain ⟨recorded, quiet⟩ := (Bool.and_eq_true _ _).mp completes
    have ends : Completes (Taken.exchange
        (⟨operation, said, call, answer, before, after⟩ : MonitorStep)) := by
      unfold Taken.exchange
      rw [isRecording]
      exact eq_of_isRecorded recorded
    exact ⟨_, member, fun job here => ⟨ends, polls_converge (reaches_afterMonitorWork _) sampleSite_started
      (fun step there => sound_of_isSound (List.all_eq_true.mp sound step there))
      (fun step there => collisionFree_of_isCollisionFree (List.all_eq_true.mp free step there))
      _ member isPoll ends (quiet_of_isQuiet quiet) job here⟩⟩
  · cases completes

end RemoteSqlAgent
