import RemoteSqlAgent.InstanceMonitor
import RemoteSqlAgent.SnapshotCompleteness

/-! What the monitor was told when it makes a call, and what it knows from it; and
how far a poll and a snapshot bring what was observed of the jobs up to date. -/
namespace RemoteSqlAgent
open Js CallProgram DatedHistory

variable {runtime : Runtime}

/-! ## The calls of polls and snapshots -/

/-- The jobs that were read last. -/
def jobsRead (said : List (Exchange MonitorAnswer)) : Option (List MsdbJob) :=
  (said.filterMap fun
    | ⟨.readJobs _, .ok jobs⟩ => some jobs
    | _ => none).getLast?

/-- What polls and snapshots were told directly before some calls. -/
def MonitorFollows (runtime : Runtime) (said : List (Exchange MonitorAnswer)) : MonitorCall → Prop
  | .sameFingerprint fingerprint => ∃ earlier edits,
    said = earlier ++ [⟨.readJobsFingerprint, .ok ⟨edits, fingerprint⟩⟩]
  | .readJobs since => ∃ earlier, said = earlier ++ [⟨.queryJobs, since⟩]
  | .pollJobs fingerprint jobs => ∃ earlier edits since, said = earlier ++ [
    ⟨.readJobsFingerprint, .ok ⟨edits, fingerprint⟩⟩, ⟨.sameFingerprint fingerprint, false⟩,
    ⟨.queryJobs, since⟩, ⟨.readJobs since, .ok jobs⟩]
  | .storeHashes blobs => ∃ earlier since jobs snapshotId, said = earlier ++ [
    ⟨.queryJobs, since⟩, ⟨.readJobs since, .ok jobs⟩, ⟨.randomUUID, snapshotId⟩] ∧
    jobs.mapM (fun job => toBlob runtime job.toJobRecord) = .ok blobs
  | .emitSnapshot storing fingerprint snapshotId jobs blobs => ∃ earlier since edits, said = earlier ++ [
    ⟨.queryJobs, since⟩, ⟨.readJobs since, .ok jobs⟩, ⟨.randomUUID, snapshotId⟩, ⟨.storeHashes blobs, storing⟩,
    ⟨.readJobsFingerprint, .ok ⟨edits, fingerprint⟩⟩] ∧
    jobs.mapM (fun job => toBlob runtime job.toJobRecord) = .ok blobs
  | _ => True

variable {said : List (Exchange MonitorAnswer)}

theorem obeys_sendSnapshot : Obeys (MonitorFollows runtime) said (sendSnapshot runtime) := by
  refine .call trivial fun connected : Bool => .ite (fun _ => .done _) fun _ => ?_
  refine .call trivial fun since : Nat => .ask ⟨_, rfl⟩ fun jobs : Except JsString (List MsdbJob) => ?_
  cases jobs with
  | error message => exact .throw message
  | ok jobs =>
    refine .call trivial fun snapshotId : SnapshotId => ?_
    cases made : jobs.mapM fun job => toBlob runtime job.toJobRecord with
    | error message => exact .throw message
    | ok blobs =>
      refine .call ⟨said ++ [⟨.connected, connected⟩], since, jobs, snapshotId,
        by simp only [List.append_assoc, List.cons_append, List.nil_append], made⟩ fun storing : Nat => ?_
      refine .ask trivial fun reading : Except JsString Reading => ?_
      cases reading with
      | error message => exact .throw message
      | ok reading =>
        refine .call ⟨said ++ [⟨.connected, connected⟩], since, reading.edits,
          by simp only [List.append_assoc, List.cons_append, List.nil_append], made⟩ fun _ => .done _

theorem obeys_pollDefinitionsNow : Obeys (MonitorFollows runtime) said (pollDefinitionsNow runtime) := by
  refine .call trivial fun connected : Bool => .ite (fun _ => .done _) fun _ => ?_
  refine .ask trivial fun reading : Except JsString Reading => ?_
  cases reading with
  | error message => exact .throw message
  | ok reading =>
    refine .call ⟨_, reading.edits, rfl⟩ fun same : Bool => ?_
    cases same with
    | true => exact .done _
    | false =>
      refine .call trivial fun since : Nat => .ask ⟨_, rfl⟩ fun jobs : Except JsString (List MsdbJob) => ?_
      cases jobs with
      | error message => exact .throw message
      | ok jobs =>
        refine .call ⟨said ++ [⟨.connected, connected⟩], reading.edits, since,
          by simp only [List.append_assoc, List.cons_append, List.nil_append]⟩ fun ended : PollEnd => ?_
        cases ended with
        | recorded => exact .done _
        | vanished => exact obeys_sendSnapshot
        | threw message => exact .throw message

theorem obeys_monitor (operation : MonitorOperation) :
    Obeys (MonitorFollows runtime) [] (operation.body runtime) := by
  cases operation with
  | sendSnapshot => exact obeys_sendSnapshot
  | edit msdb => exact .call trivial fun _ => .done _
  | pollDefinitions =>
    refine .call trivial fun _ => .bind (.attempt obeys_pollDefinitionsNow) fun ended later => ?_
    exact .call trivial fun _ => obeys_orThrow ended

/-! ## What was observed -/

/-- The definitions that a message reports. -/
def HubMessage.observations : HubMessage → List JobDefinitionBlob
  | .definition delta => if delta.deleted then [] else delta.job.toList
  | .snapshot chunk => chunk.jobs
  | .commandResult outcome => outcome.resultingJob.toList
  | _ => []

/-- The last report on a job. -/
def lastOf (blobs : List JobDefinitionBlob) (jobUuid : JsString) : Option JobDefinitionBlob :=
  (blobs.filter (·.jobUuid = jobUuid)).getLast?

/-- The last observation of a job that was sent. -/
def lastObserved (sent : List Emission) (jobUuid : JsString) : Option JobDefinitionBlob :=
  lastOf (sent.flatMap (·.message.observations)) jobUuid

theorem lastOf_append (blobs later : List JobDefinitionBlob) (jobUuid : JsString) :
    lastOf (blobs ++ later) jobUuid = (lastOf later jobUuid).or (lastOf blobs jobUuid) := by
  rw [lastOf, List.filter_append, List.getLast?_append]
  rfl

/-- Where no two reports are on one job, each is the last on its own. -/
theorem lastOf_of_nodup {blobs : List JobDefinitionBlob} (distinct : (blobs.map (·.jobUuid)).Nodup)
    {blob : JobDefinitionBlob} (member : blob ∈ blobs) : lastOf blobs blob.jobUuid = some blob := by
  have one : ∀ other ∈ blobs.filter (·.jobUuid = blob.jobUuid), other = blob := by
    intro other there
    obtain ⟨inside, same⟩ := List.mem_filter.mp there
    exact List.inj_on_of_nodup_map distinct inside member (of_decide_eq_true same)
  have mine : blob ∈ blobs.filter (·.jobUuid = blob.jobUuid) := List.mem_filter.mpr ⟨member, by simp⟩
  obtain ⟨last, isLast⟩ := Option.isSome_iff_exists.mp (List.getLast?_isSome.mpr (List.ne_nil_of_mem mine))
  rw [lastOf, isLast, one last (List.mem_of_getLast? isLast)]

/-- A map from reports has for each job the hash that was reported last. -/
theorem get_ofReports (blobs : List JobDefinitionBlob) (jobUuid : JsString) :
    JsMap.get (JsMap.ofEntries (blobs.map fun blob => (blob.jobUuid, blob.definitionHash))) jobUuid =
      (lastOf blobs jobUuid).map (·.definitionHash) := by
  induction blobs using List.reverseRecOn with
  | nil => rfl
  | append_singleton blobs blob ih =>
    rw [JsMap.ofEntries, List.map_append, List.foldl_append, ← JsMap.ofEntries, List.map_singleton, List.foldl_cons,
      List.foldl_nil, JsMap.get_set, ih, lastOf_append]
    by_cases same : blob.jobUuid = jobUuid <;> simp [lastOf, same]

theorem toBlob_jobUuid {job : JobRecord} {blob : JobDefinitionBlob} (made : toBlob runtime job = .ok blob) :
    blob.jobUuid = job.jobUuid := by
  unfold toBlob at made
  cases canonical : canonicaliseJobWithHash runtime job.definition.toValue with
  | error message =>
    rw [canonical] at made
    cases made
  | ok canonical' =>
    rw [canonical] at made
    cases made
    rfl

/-- The hash that was observed of a job last. -/
def Reporting.observedHash (reporting : Reporting) (jobUuid : JsString) : Option JsString :=
  (lastObserved reporting.sent jobUuid).map (·.definitionHash)

/-- The hashes that are kept are those that were observed last. -/
def Reporting.Honest (reporting : Reporting) : Prop :=
  ∀ jobUuid hash, reporting.monitor.definitionHashes.get jobUuid = some hash →
    reporting.observedHash jobUuid = some hash

/-- The job was observed last as it is. -/
def Reporting.UpToDate (runtime : Runtime) (reporting : Reporting) (job : JobRecord) : Prop :=
  ∃ blob, toBlob runtime job = .ok blob ∧ reporting.observedHash job.jobUuid = some blob.definitionHash

/-! ## Polls -/

section
variable {accepts : HubMessage → Bool} {reporting : Reporting} {job : MsdbJob} {blob : JobDefinitionBlob}

/-- A job is skipped, refused or reported. -/
theorem pollJob_cases (accepts : HubMessage → Bool) (reporting : Reporting) (job : MsdbJob)
    (blob : JobDefinitionBlob) :
    (reporting.monitor.definitionHashes.get job.jobUuid = some blob.definitionHash ∧
      pollJob accepts reporting job blob = reporting) ∨
    pollJob accepts reporting job blob = { reporting with refusals := reporting.refusals + 1 } ∨
    pollJob accepts reporting job blob = { reporting with
      sent := reporting.sent ++ [{ message := reporting.monitor.delta blob, made := commandMade [job] }]
      monitor := { reporting.monitor with
        pendingAttribution := JsMap.delete reporting.monitor.pendingAttribution job.jobUuid
        definitionHashes := reporting.monitor.definitionHashes.set job.jobUuid blob.definitionHash } } := by
  unfold pollJob
  dsimp only
  split
  · rename_i cached
    exact .inl ⟨cached, rfl⟩
  · cases accepted : accepts (reporting.monitor.delta blob) with
    | true => exact .inr (.inr (by simp [Reporting.emit, accepted]))
    | false => exact .inr (.inl (by simp [Reporting.emit, accepted]))

/-- What is observed once a job has been reported. -/
theorem observedHash_delta (jobUuid : JsString) (monitor : InstanceMonitor) (made : List JsString) :
    ({ reporting with
      sent := reporting.sent ++ [{ message := reporting.monitor.delta blob, made := made }]
      monitor := monitor } : Reporting).observedHash jobUuid =
      if blob.jobUuid = jobUuid then some blob.definitionHash else reporting.observedHash jobUuid := by
  simp only [Reporting.observedHash, lastObserved, List.flatMap_append, List.flatMap_singleton, lastOf_append,
    InstanceMonitor.delta, HubMessage.observations, Bool.false_eq_true, ↓reduceIte, Option.toList_some]
  by_cases same : blob.jobUuid = jobUuid <;> simp [lastOf, same]

theorem Reporting.Honest.pollJob (honest : reporting.Honest) (made : toBlob runtime job.toJobRecord = .ok blob) :
    (pollJob accepts reporting job blob).Honest := by
  obtain ⟨-, same⟩ | same | same := pollJob_cases accepts reporting job blob
  · rw [same]
    exact honest
  · rw [same]
    exact honest
  · intro jobUuid hash kept
    rw [same] at kept ⊢
    rw [JsMap.get_set] at kept
    rw [observedHash_delta, toBlob_jobUuid made]
    split at kept
    · rename_i here
      rw [if_pos here, Option.some.inj kept]
    · rename_i other
      rw [if_neg other]
      exact honest jobUuid hash kept

/-- A job that a poll reads as it is stays up to date. -/
theorem Reporting.UpToDate.pollJob {known : MsdbJob} (upToDate : reporting.UpToDate runtime known.toJobRecord)
    (made : toBlob runtime job.toJobRecord = .ok blob) (agrees : job.jobUuid = known.jobUuid → job = known) :
    (pollJob accepts reporting job blob).UpToDate runtime known.toJobRecord := by
  obtain ⟨-, same⟩ | same | same := pollJob_cases accepts reporting job blob
  · rw [same]
    exact upToDate
  · rw [same]
    exact upToDate
  · obtain ⟨current, isCurrent, observed⟩ := upToDate
    refine ⟨current, isCurrent, ?_⟩
    rw [same, observedHash_delta, toBlob_jobUuid made]
    split
    · rename_i here
      rw [agrees here, isCurrent] at made
      rw [Except.ok.inj made]
    · exact observed

/-- What was refused is counted. -/
theorem pollJob_refusals : reporting.refusals ≤ (pollJob accepts reporting job blob).refusals := by
  obtain ⟨-, same⟩ | same | same := pollJob_cases accepts reporting job blob <;> simp [same]

/-- A job that is not refused has its hash kept. -/
theorem pollJob_kept (none : (pollJob accepts reporting job blob).refusals = reporting.refusals) :
    (pollJob accepts reporting job blob).monitor.definitionHashes.get job.jobUuid = some blob.definitionHash := by
  obtain ⟨cached, same⟩ | same | same := pollJob_cases accepts reporting job blob
  · rw [same]
    exact cached
  · rw [same] at none
    exact absurd none (Nat.succ_ne_self _)
  · rw [same, JsMap.get_set, if_pos rfl]

theorem pollJob_other {jobUuid : JsString} (other : job.jobUuid ≠ jobUuid) :
    (pollJob accepts reporting job blob).monitor.definitionHashes.get jobUuid =
      reporting.monitor.definitionHashes.get jobUuid := by
  obtain ⟨-, same⟩ | same | same := pollJob_cases accepts reporting job blob
  · rw [same]
  · rw [same]
  · rw [same, JsMap.get_set, if_neg other]

theorem pollJob_lastFingerprint :
    (pollJob accepts reporting job blob).monitor.lastFingerprint = reporting.monitor.lastFingerprint := by
  obtain ⟨-, same⟩ | same | same := pollJob_cases accepts reporting job blob <;> rw [same]

variable (runtime accepts) in
/-- Whatever reporting a job preserves, a poll preserves. -/
theorem pollEach_induction (holds : Reporting → Prop) {jobs : List MsdbJob}
    (each : ∀ reporting, ∀ job ∈ jobs, ∀ blob, toBlob runtime job.toJobRecord = .ok blob → holds reporting →
      holds (pollJob accepts reporting job blob)) (first : holds reporting) :
    holds (pollEach runtime accepts jobs reporting).1 := by
  induction jobs generalizing reporting with
  | nil => exact first
  | cons job rest ih =>
    unfold pollEach
    split
    · exact first
    · rename_i blob made
      exact ih (fun reporting other member => each reporting other (List.mem_cons_of_mem _ member))
        (each reporting job List.mem_cons_self blob made first)

theorem Reporting.Honest.pollEach {jobs : List MsdbJob} (honest : reporting.Honest) :
    (pollEach runtime accepts jobs reporting).1.Honest :=
  pollEach_induction runtime accepts Reporting.Honest (fun _ _ _ _ made kept => kept.pollJob made) honest

theorem Reporting.UpToDate.pollEach {jobs : List MsdbJob} {known : MsdbJob}
    (upToDate : reporting.UpToDate runtime known.toJobRecord)
    (agrees : ∀ job ∈ jobs, job.jobUuid = known.jobUuid → job = known) :
    (pollEach runtime accepts jobs reporting).1.UpToDate runtime known.toJobRecord :=
  pollEach_induction runtime accepts (·.UpToDate runtime known.toJobRecord)
    (fun _ job member _ made kept => kept.pollJob made (agrees job member)) upToDate

/-- If nothing is refused, every job that a poll reads has its hash kept. -/
theorem pollEach_kept {jobs : List MsdbJob} (distinct : (jobs.map (·.jobUuid)).Nodup)
    (whole : (pollEach runtime accepts jobs reporting).2 = none)
    (unrefused : (pollEach runtime accepts jobs reporting).1.refusals = reporting.refusals) :
    ∀ job ∈ jobs, ∃ blob, toBlob runtime job.toJobRecord = .ok blob ∧
      (pollEach runtime accepts jobs reporting).1.monitor.definitionHashes.get job.jobUuid =
        some blob.definitionHash := by
  induction jobs generalizing reporting with
  | nil => simp
  | cons job rest ih =>
    rw [List.map_cons, List.nodup_cons] at distinct
    cases made : toBlob runtime job.toJobRecord with
    | error message => simp [pollEach, made] at whole
    | ok blob =>
      simp only [pollEach, made] at whole unrefused ⊢
      have first : (pollJob accepts reporting job blob).refusals = reporting.refusals := by
        refine Nat.le_antisymm (unrefused ▸ ?_) pollJob_refusals
        exact pollEach_induction runtime accepts
          (fun later => (pollJob accepts reporting job blob).refusals ≤ later.refusals)
          (fun _ _ _ _ _ => (·.trans pollJob_refusals)) (Nat.le_refl _)
      have later := ih distinct.2 whole (unrefused.trans first.symm)
      rintro other (_ | ⟨_, member⟩)
      · refine ⟨blob, made, ?_⟩
        exact pollEach_induction runtime accepts
          (fun later => later.monitor.definitionHashes.get job.jobUuid = some blob.definitionHash)
          (fun reporting next there _ _ kept => (pollJob_other fun same =>
            distinct.1 (List.mem_map.mpr ⟨next, there, same⟩)).trans kept) (pollJob_kept first)
      · exact later other member

theorem pollEach_lastFingerprint {jobs : List MsdbJob} :
    (pollEach runtime accepts jobs reporting).1.monitor.lastFingerprint = reporting.monitor.lastFingerprint :=
  pollEach_induction runtime accepts
    (fun later => later.monitor.lastFingerprint = reporting.monitor.lastFingerprint)
    (fun _ _ _ _ _ same => pollJob_lastFingerprint.trans same) rfl

/-- A poll ends with what reporting the jobs has led to. Its fingerprint is kept if
all were read and none is gone. -/
theorem pollJobs_cases (runtime : Runtime) (accepts : HubMessage → Bool) (fingerprint : JobsFingerprint)
    (jobs : List MsdbJob) (reporting : Reporting) :
    ((pollJobs runtime accepts fingerprint jobs reporting).2 ≠ .recorded ∧
      (pollJobs runtime accepts fingerprint jobs reporting).1 = (pollEach runtime accepts jobs reporting).1) ∨
    ((pollJobs runtime accepts fingerprint jobs reporting).2 = .recorded ∧
      (pollEach runtime accepts jobs reporting).2 = none ∧
      (pollJobs runtime accepts fingerprint jobs reporting).1 =
        { (pollEach runtime accepts jobs reporting).1 with
          monitor := { (pollEach runtime accepts jobs reporting).1.monitor with
            lastFingerprint := some fingerprint } }) := by
  unfold pollJobs
  dsimp only
  split
  · exact .inl ⟨by simp, rfl⟩
  · rename_i whole
    split
    · exact .inl ⟨by simp, rfl⟩
    · exact .inr ⟨rfl, whole, rfl⟩

/-! ## Snapshots -/

theorem emitChunks_cons (made : List JsString) (chunk : Snapshot) (rest : List Snapshot) :
    reporting.emitChunks accepts made (chunk :: rest) =
      (reporting.emit accepts { message := .snapshot chunk, made := made }).emitChunks accepts made rest := rfl

theorem emit_monitor {emission : Emission} : (reporting.emit accepts emission).monitor = reporting.monitor := by
  unfold Reporting.emit
  split <;> rfl

theorem emit_refusals {emission : Emission} : reporting.refusals ≤ (reporting.emit accepts emission).refusals := by
  unfold Reporting.emit
  split
  · exact Nat.le_refl _
  · exact Nat.le_succ _

/-- A message that is not counted as refused is sent. -/
theorem emit_sent {emission : Emission} (unrefused : (reporting.emit accepts emission).refusals = reporting.refusals) :
    (reporting.emit accepts emission).sent = reporting.sent ++ [emission] := by
  unfold Reporting.emit at unrefused ⊢
  split
  · rfl
  · rename_i refused
    rw [if_neg refused] at unrefused
    exact absurd unrefused (Nat.succ_ne_self _)

theorem emitChunks_monitor (made : List JsString) (chunks : List Snapshot) :
    (reporting.emitChunks accepts made chunks).monitor = reporting.monitor := by
  induction chunks generalizing reporting with
  | nil => rfl
  | cons chunk rest ih => rw [emitChunks_cons, ih, emit_monitor]

theorem emitChunks_refusals (made : List JsString) (chunks : List Snapshot) :
    reporting.refusals ≤ (reporting.emitChunks accepts made chunks).refusals := by
  induction chunks generalizing reporting with
  | nil => exact Nat.le_refl _
  | cons chunk rest ih => exact emit_refusals.trans ih

/-- If no chunk is refused, all are sent. -/
theorem emitChunks_sent {made : List JsString} {chunks : List Snapshot}
    (unrefused : (reporting.emitChunks accepts made chunks).refusals = reporting.refusals) :
    (reporting.emitChunks accepts made chunks).sent =
      reporting.sent ++ chunks.map fun chunk => { message := .snapshot chunk, made := made } := by
  induction chunks generalizing reporting with
  | nil => simp [Reporting.emitChunks]
  | cons chunk rest ih =>
    rw [emitChunks_cons] at unrefused ⊢
    have first : (reporting.emit accepts { message := .snapshot chunk, made := made }).refusals =
        reporting.refusals := Nat.le_antisymm (unrefused ▸ emitChunks_refusals made rest) emit_refusals
    rw [ih (unrefused.trans first.symm), emit_sent first, List.append_assoc, List.map_cons]
    rfl

theorem observations_snapshot (instanceName : JsString) (snapshotId : SnapshotId) (made : List JsString)
    (blobs : List JobDefinitionBlob) :
    ((snapshotChunks instanceName snapshotId blobs).map fun chunk : Snapshot =>
      ({ message := .snapshot chunk, made := made } : Emission)).flatMap (·.message.observations) = blobs := by
  obtain ⟨initial, last, split, chunks⟩ := snapshotChunks_eq instanceName snapshotId blobs
  rw [split, List.flatMap_map]
  exact chunks.whole

/-- If no chunk is refused, every job is observed as the snapshot has it. -/
theorem emitSnapshot_observed {fingerprint : JobsFingerprint} {snapshotId : SnapshotId} {jobs : List MsdbJob}
    {blobs : List JobDefinitionBlob} (unrefused : (reporting.emitSnapshot accepts fingerprint snapshotId jobs
      blobs).refusals = reporting.refusals) (jobUuid : JsString) :
    (reporting.emitSnapshot accepts fingerprint snapshotId jobs blobs).observedHash jobUuid =
      ((lastOf blobs jobUuid).or (lastObserved reporting.sent jobUuid)).map (·.definitionHash) := by
  have sent := emitChunks_sent (unrefused : (Reporting.emitChunks accepts _ (commandMade jobs) _).refusals = _)
  unfold Reporting.observedHash Reporting.emitSnapshot lastObserved
  rw [sent, List.flatMap_append, observations_snapshot, lastOf_append]

theorem emitSnapshot_monitor {fingerprint : JobsFingerprint} {snapshotId : SnapshotId} {jobs : List MsdbJob}
    {blobs : List JobDefinitionBlob} :
    (reporting.emitSnapshot accepts fingerprint snapshotId jobs blobs).monitor =
      { reporting.monitor with lastFingerprint := some fingerprint } :=
  emitChunks_monitor _ _

/-- The hashes that a snapshot stored are those observed, once it is sent. -/
theorem emitSnapshot_honest {fingerprint : JobsFingerprint} {snapshotId : SnapshotId} {jobs : List MsdbJob}
    {blobs : List JobDefinitionBlob} (unrefused : (reporting.emitSnapshot accepts fingerprint snapshotId jobs
      blobs).refusals = reporting.refusals)
    (stored : reporting.monitor.definitionHashes = (reporting.storeHashes blobs).monitor.definitionHashes) :
    (reporting.emitSnapshot accepts fingerprint snapshotId jobs blobs).Honest := by
  intro jobUuid hash kept
  rw [emitSnapshot_monitor] at kept
  dsimp only at kept
  rw [stored, Reporting.storeHashes, get_ofReports] at kept
  rw [emitSnapshot_observed unrefused]
  obtain ⟨blob, last, same⟩ := Option.map_eq_some_iff.mp kept
  rw [last, ← same]
  rfl

theorem mapM_toBlob {jobs : List MsdbJob} {blobs : List JobDefinitionBlob}
    (made : jobs.mapM (fun job => toBlob runtime job.toJobRecord) = .ok blobs) :
    blobs.map (·.jobUuid) = jobs.map (·.jobUuid) ∧
      ∀ job ∈ jobs, ∃ blob ∈ blobs, toBlob runtime job.toJobRecord = .ok blob := by
  induction jobs generalizing blobs with
  | nil =>
    cases made
    simp
  | cons job rest ih =>
    rw [List.mapM_cons] at made
    cases first : toBlob runtime job.toJobRecord with
    | error message =>
      rw [first] at made
      cases made
    | ok blob =>
      cases others : rest.mapM fun job => toBlob runtime job.toJobRecord with
      | error message =>
        rw [first, others] at made
        cases made
      | ok more =>
        rw [first, others] at made
        cases made
        obtain ⟨uuids, each⟩ := ih others
        refine ⟨by rw [List.map_cons, List.map_cons, uuids, toBlob_jobUuid first], ?_⟩
        rintro other (_ | ⟨_, member⟩)
        · exact ⟨blob, List.mem_cons_self, first⟩
        · obtain ⟨found, there, same⟩ := each other member
          exact ⟨found, List.mem_cons_of_mem _ there, same⟩

/-- Every job that a snapshot has read is up to date once it is sent. -/
theorem emitSnapshot_upToDate {fingerprint : JobsFingerprint} {snapshotId : SnapshotId} {jobs : List MsdbJob}
    {blobs : List JobDefinitionBlob} (unrefused : (reporting.emitSnapshot accepts fingerprint snapshotId jobs
      blobs).refusals = reporting.refusals) (distinct : (jobs.map (·.jobUuid)).Nodup)
    (made : jobs.mapM (fun job => toBlob runtime job.toJobRecord) = .ok blobs) {job : MsdbJob} (member : job ∈ jobs) :
    (reporting.emitSnapshot accepts fingerprint snapshotId jobs blobs).UpToDate runtime job.toJobRecord := by
  obtain ⟨uuids, each⟩ := mapM_toBlob made
  obtain ⟨blob, there, isBlob⟩ := each job member
  refine ⟨blob, isBlob, ?_⟩
  rw [emitSnapshot_observed unrefused, ← toBlob_jobUuid isBlob, lastOf_of_nodup (uuids ▸ distinct) there]
  rfl

end

end RemoteSqlAgent
