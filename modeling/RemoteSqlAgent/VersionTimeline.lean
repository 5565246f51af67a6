import RemoteSqlAgent.Versioning
import Mathlib.Data.List.Chain
import Mathlib.Data.List.Range

/-! The timeline of versions of a job, over every sequence of the transactions
that write it. What the tables say of one job is one invariant, and each
transaction either leaves the two tables at a job alone, or rewrites its row
without touching the version it stands on, or adds the version that comes next. -/
namespace RemoteSqlAgent
open Js

/-- What the hub asks to record. It never claims a first version itself. -/
structure Observation where
  input : RecordVersionInput
  attributed : input.origin ≠ .initial

inductive TimelineCall where
  | recordJobVersion (observation : Observation) (now : Int)
  | markJobDeleted (instanceId jobUuid : JsString) (now : Int)
  | markJobsMissingFromSnapshot (instanceId : JsString) (seenJobUuids : List JsString) (now : Int)
  | acknowledgeDrift (instanceId jobUuid : JsString) (now : Int)

/-- The tables after a call. A definition that does not parse throws before the
transaction. -/
def TimelineCall.perform (runtime : Runtime) (tables : JobTables) : TimelineCall → JobTables
  | .recordJobVersion observation now =>
    match tables.recordJobVersion runtime observation.input now with
    | .error _ => tables
    | .ok (after, _) => after
  | .markJobDeleted instanceId jobUuid now => tables.markJobDeleted instanceId jobUuid now
  | .markJobsMissingFromSnapshot instanceId seenJobUuids now =>
    tables.markJobsMissingFromSnapshot instanceId seenJobUuids now
  | .acknowledgeDrift instanceId jobUuid now => tables.acknowledgeDrift instanceId jobUuid now

namespace JobTables

/-- The tables after a sequence of calls on an empty database. -/
def afterCalls (runtime : Runtime) (calls : List TimelineCall) : JobTables :=
  calls.foldl (TimelineCall.perform runtime) empty

/-- The row of a job agrees with the versions of it. -/
structure Timeline (row : JobsRow) (versions : List JobVersion) : Prop where
  numbered : versions.map (·.versionNo) = List.range' 1 row.currentVersionNo
  newest : ∃ version, versions.getLast? = some version ∧ row.currentDefinitionHash = some version.definitionHash ∧
    (row.isDrifted = true → version.origin = .local)
  moved : versions.IsChain fun earlier later => earlier.definitionHash ≠ later.definitionHash
  initial : ∀ version ∈ versions, version.origin = .initial ↔ version.versionNo = 1

/-- Every job has a row exactly if it has versions, and they agree. -/
structure WellFormed (tables : JobTables) : Prop where
  unseen : ∀ key, tables.jobs key = none ↔ tables.jobVersions key = []
  timeline : ∀ key row, tables.jobs key = some row → Timeline row (tables.jobVersions key)

/-- The row still stands on the same version, and no drift has come up. -/
structure SameVersion (before after : JobsRow) : Prop where
  versionNo : after.currentVersionNo = before.currentVersionNo
  definitionHash : after.currentDefinitionHash = before.currentDefinitionHash
  drift : after.isDrifted = true → before.isDrifted = true

theorem SameVersion.refl (row : JobsRow) : SameVersion row row := ⟨rfl, rfl, id⟩

theorem Timeline.of_sameVersion {before after : JobsRow} {versions : List JobVersion}
    (timeline : Timeline before versions) (same : SameVersion before after) : Timeline after versions where
  numbered := by rw [same.versionNo, timeline.numbered]
  newest := by
    obtain ⟨version, last, hash, drift⟩ := timeline.newest
    exact ⟨version, last, same.definitionHash.trans hash, fun drifted => drift (same.drift drifted)⟩
  moved := timeline.moved
  initial := timeline.initial

theorem Timeline.ne_nil {row : JobsRow} {versions : List JobVersion} (timeline : Timeline row versions) :
    versions ≠ [] := by
  obtain ⟨version, last, -⟩ := timeline.newest
  rintro rfl
  cases last

/-- The first version of a job is a timeline. -/
theorem timeline_first (version : JobVersion) (first : version.versionNo = 1)
    (origin : version.origin = .initial) : Timeline (jobColumns none version) [version] where
  numbered := by simp [jobColumns, first]
  newest := ⟨version, rfl, rfl, by simp [jobColumns]⟩
  moved := .singleton version
  initial := by simp [first, origin]

/-- The next version of a timeline: its number follows, its hash is another. -/
theorem Timeline.add {row : JobsRow} {versions : List JobVersion} (timeline : Timeline row versions)
    {version : JobVersion} (next : version.versionNo = row.currentVersionNo + 1)
    (hash : row.currentDefinitionHash ≠ some version.definitionHash) (origin : version.origin ≠ .initial) :
    Timeline (jobColumns (some row) version) (versions ++ [version]) where
  numbered := by
    simp only [List.map_append, List.map_cons, List.map_nil, timeline.numbered, next, jobColumns]
    rw [List.range'_concat, Nat.add_comm 1, Nat.one_mul]
  newest := ⟨version, by simp, rfl, by simp [jobColumns]⟩
  moved := by
    obtain ⟨last, isLast, lastHash, -⟩ := timeline.newest
    refine timeline.moved.append (.singleton version) ?_
    rintro earlier found later ⟨⟩ same
    cases isLast.symm.trans found
    exact hash (lastHash.trans (congrArg some same))
  initial := by
    have positive : row.currentVersionNo ≠ 0 := by
      intro zero
      have none := timeline.numbered
      rw [zero, List.range'_zero, List.map_eq_nil_iff] at none
      exact timeline.ne_nil none
    intro other member
    rcases List.mem_append.mp member with earlier | added
    · exact timeline.initial other earlier
    · cases List.mem_singleton.mp added
      simp only [origin, next, false_iff]
      omega

/-- Rewriting rows keeps the timelines if every row still stands on its version. -/
theorem WellFormed.of_sameVersion {before after : JobTables} (wellFormed : before.WellFormed)
    (versions : after.jobVersions = before.jobVersions)
    (none_iff : ∀ key, after.jobs key = none ↔ before.jobs key = none)
    (same : ∀ key row, after.jobs key = some row → ∃ earlier, before.jobs key = some earlier ∧
      SameVersion earlier row) :
    after.WellFormed where
  unseen key := by rw [none_iff, versions, wellFormed.unseen]
  timeline key row found := by
    obtain ⟨earlier, stood, sameVersion⟩ := same key row found
    rw [versions]
    exact (wellFormed.timeline key earlier stood).of_sameVersion sameVersion

/-- Rewriting the row of one job, standing on its version. -/
theorem WellFormed.updateJob {tables : JobTables} (wellFormed : tables.WellFormed) (key : JobKey)
    {change : JobsRow → JobsRow} (same : ∀ row, SameVersion row (change row)) :
    (tables.updateJob key change).WellFormed := by
  refine wellFormed.of_sameVersion rfl (fun other => ?_) fun other row found => ?_
  · by_cases at_key : other = key
    · subst at_key
      simp [JobTables.updateJob]
    · simp [JobTables.updateJob, at_key]
  · by_cases at_key : other = key
    · subst at_key
      simp only [JobTables.updateJob, Function.update_self, Option.map_eq_some_iff] at found
      obtain ⟨earlier, stood, rfl⟩ := found
      exact ⟨earlier, stood, same earlier⟩
    · simp only [JobTables.updateJob, Function.update_of_ne at_key] at found
      exact ⟨row, found, .refl row⟩

theorem WellFormed.markJobsMissingFromSnapshot {tables : JobTables} (wellFormed : tables.WellFormed)
    (instanceId : JsString) (seenJobUuids : List JsString) (now : Int) :
    (tables.markJobsMissingFromSnapshot instanceId seenJobUuids now).WellFormed := by
  refine wellFormed.of_sameVersion rfl (fun key => ?_) fun key row found => ?_
  · simp [JobTables.markJobsMissingFromSnapshot]
  · simp only [JobTables.markJobsMissingFromSnapshot, Option.map_eq_some_iff] at found
    obtain ⟨earlier, stood, rfl⟩ := found
    refine ⟨earlier, stood, ?_⟩
    split
    · exact ⟨rfl, rfl, id⟩
    · exact .refl earlier

/-- What clearing the deletion of a job does to its row. -/
def restored (row : JobsRow) (detectedAt : Int) : JobsRow :=
  if row.deletedAt.isSome then { row with deletedAt := none, updatedAt := detectedAt } else row

theorem reappear_eq {tables : JobTables} {key : JobKey} {existing : JobsRow}
    (found : tables.jobs key = some existing) (detectedAt : Int) :
    tables.reappear key existing detectedAt = tables.updateJob key (restored · detectedAt) := by
  unfold reappear restored
  split
  · simp only [JobTables.setJob, JobTables.updateJob, found, Option.map_some]
    rw [if_pos ‹_›]
  · simp only [JobTables.updateJob, found, Option.map_some]
    rw [if_neg ‹_›, ← found, Function.update_eq_self]

theorem sameVersion_restored (row : JobsRow) (detectedAt : Int) : SameVersion row (restored row detectedAt) := by
  unfold restored
  split
  · exact ⟨rfl, rfl, id⟩
  · exact .refl row

/-- A version after which the timeline of its job stands, and no other moves. -/
theorem WellFormed.addVersion {tables : JobTables} (wellFormed : tables.WellFormed) {key : JobKey}
    {version : JobVersion}
    (stands : Timeline (jobColumns (tables.jobs key) version) (tables.jobVersions key ++ [version])) :
    (tables.addVersion key version).WellFormed where
  unseen other := by
    by_cases at_key : other = key
    · subst at_key
      simp [JobTables.addVersion]
    · simp [JobTables.addVersion, at_key, wellFormed.unseen]
  timeline other row found := by
    by_cases at_key : other = key
    · subst at_key
      simp only [JobTables.addVersion, Function.update_self, Option.some.injEq] at found ⊢
      exact found ▸ stands
    · simp only [JobTables.addVersion, Function.update_of_ne at_key] at found ⊢
      exact wellFormed.timeline other row found

theorem WellFormed.observe {tables : JobTables} (wellFormed : tables.WellFormed) (observation : Observation)
    (definition : JobDefinition) (detectedAt : Int) :
    (tables.observe observation.input definition detectedAt).1.WellFormed := by
  rcases observe_cases tables observation.input definition detectedAt with
    ⟨existing, found, -, repeated⟩ | ⟨differs, version, rfl, added⟩
  · rw [repeated, reappear_eq found]
    exact wellFormed.updateJob _ fun row => sameVersion_restored row detectedAt
  · rw [added]
    apply wellFormed.addVersion
    cases found : tables.jobs observation.input.key with
    | none =>
      rw [(wellFormed.unseen _).mp found, List.nil_append]
      exact timeline_first _ rfl rfl
    | some existing =>
      exact (wellFormed.timeline _ existing found).add rfl (differs existing found) observation.attributed

/-- Each transaction keeps the timelines well formed. -/
theorem WellFormed.perform {tables : JobTables} (wellFormed : tables.WellFormed) (runtime : Runtime)
    (call : TimelineCall) : (call.perform runtime tables).WellFormed := by
  cases call with
  | recordJobVersion observation now =>
    simp only [TimelineCall.perform]
    cases parsed : parseJobDefinition runtime observation.input.canonicalJson with
    | error message =>
      rw [recordJobVersion_of_error parsed]
      exact wellFormed
    | ok definition =>
      rw [recordJobVersion_of_parsed parsed]
      exact wellFormed.observe observation definition _
  | markJobDeleted instanceId jobUuid now => exact wellFormed.updateJob _ fun row => ⟨rfl, rfl, id⟩
  | markJobsMissingFromSnapshot instanceId seenJobUuids now =>
    exact wellFormed.markJobsMissingFromSnapshot instanceId seenJobUuids now
  | acknowledgeDrift instanceId jobUuid now =>
    exact wellFormed.updateJob _ fun row => ⟨rfl, rfl, fun drifted => by cases drifted⟩

theorem wellFormed_empty : empty.WellFormed where
  unseen key := by simp [empty]
  timeline key row found := by cases found

theorem wellFormed_afterCalls (runtime : Runtime) (calls : List TimelineCall) :
    (afterCalls runtime calls).WellFormed := by
  refine List.foldlRecOn calls _ wellFormed_empty fun tables wellFormed call _ => ?_
  exact wellFormed.perform runtime call

/-- The current definition was recorded again: no version was created, and only
the deletion of the job is cleared, which also moves its `updatedAt`. -/
structure Repeated (tables after : JobTables) (key : JobKey) (row : JobsRow) (detectedAt : Int) : Prop where
  versions : after.jobVersions = tables.jobVersions
  others : ∀ other, other ≠ key → after.jobs other = tables.jobs other
  row : after.jobs key = some {
    row with deletedAt := none, updatedAt := if row.deletedAt.isSome then detectedAt else row.updatedAt }

theorem repeated_of_recordJobVersion {runtime : Runtime} {tables : JobTables} {input : RecordVersionInput}
    {now : Int} {row : JobsRow} {after : JobTables} {result : RecordVersionResult}
    (found : tables.jobs input.key = some row) (same : row.currentDefinitionHash = some input.definitionHash)
    (recorded : tables.recordJobVersion runtime input now = .ok (after, result)) :
    result = { changed := false, versionNo := row.currentVersionNo, isDrift := row.isDrifted } ∧
      Repeated tables after input.key row (input.detectedAt.getD now) := by
  cases parsed : parseJobDefinition runtime input.canonicalJson with
  | error message =>
    rw [recordJobVersion_of_error parsed] at recorded
    cases recorded
  | ok definition =>
    rw [recordJobVersion_of_parsed parsed, Except.ok.injEq] at recorded
    rcases observe_cases tables input definition (input.detectedAt.getD now) with
      ⟨existing, stood, -, repeated⟩ | ⟨differs, -⟩
    · cases stood.symm.trans found
      rw [repeated, reappear_eq found] at recorded
      cases recorded
      refine ⟨rfl, rfl, fun other apart => by simp [JobTables.updateJob, apart], ?_⟩
      simp only [JobTables.updateJob, Function.update_self, found, Option.map_some, restored]
      split
      · rfl
      · rw [← Option.not_isSome_iff_eq_none.mp ‹_›]
    · exact absurd same (differs row found)

/-- **The timeline of every job is well formed** after every sequence of calls,
and recording the current definition again adds nothing to it. -/
theorem version_timeline (runtime : Runtime) (calls : List TimelineCall) :
    (afterCalls runtime calls).WellFormed ∧
      ∀ (observation : Observation) (now : Int) (row : JobsRow) (after : JobTables) (result : RecordVersionResult),
        (afterCalls runtime calls).jobs observation.input.key = some row →
        row.currentDefinitionHash = some observation.input.definitionHash →
        (afterCalls runtime calls).recordJobVersion runtime observation.input now = .ok (after, result) →
        result.changed = false ∧
          Repeated (afterCalls runtime calls) after observation.input.key row
            (observation.input.detectedAt.getD now) := by
  refine ⟨wellFormed_afterCalls runtime calls, ?_⟩
  intro observation now row after result found same recorded
  obtain ⟨rfl, repeated⟩ := repeated_of_recordJobVersion found same recorded
  exact ⟨rfl, repeated⟩

/-! A job is seen, deleted and seen again as it was. -/

def reappearing : Observation where
  input := observedInput true
  attributed := by decide

def reappearingCalls : List TimelineCall :=
  [.recordJobVersion reappearing 1000, .markJobDeleted (js "i1") (js "j1") 2000]

def deletedRow : JobsRow where
  name := js "Nightly Backup"
  enabled := true
  categoryName := none
  ownerLoginName := some (js "sa")
  description := none
  currentVersionNo := 1
  currentDefinitionHash := some (js "h1")
  isDrifted := false
  driftDetectedAt := none
  deletedAt := some 2000
  updatedAt := 2000

private theorem deletedRow_found :
    (afterCalls observingRuntime reappearingCalls).jobs (observedInput true).key = some deletedRow := by
  decide +kernel

theorem version_timeline_reappearing :
    ∃ after, Repeated (afterCalls observingRuntime reappearingCalls) after (observedInput true).key deletedRow
      3000 := by
  obtain ⟨after, result, recorded⟩ := observedInput_recorded true (afterCalls observingRuntime reappearingCalls) 3000
  exact ⟨after, ((version_timeline observingRuntime reappearingCalls).2 reappearing 3000 deletedRow after result
    deletedRow_found rfl recorded).2⟩

/-- Clearing the deletion moves `updatedAt` too. -/
theorem recorded_again_moves_updatedAt :
    ¬ ∀ (runtime : Runtime) (calls : List TimelineCall) (observation : Observation) (now : Int) (row : JobsRow)
        (after : JobTables) (result : RecordVersionResult),
      (afterCalls runtime calls).jobs observation.input.key = some row →
      row.currentDefinitionHash = some observation.input.definitionHash →
      (afterCalls runtime calls).recordJobVersion runtime observation.input now = .ok (after, result) →
      after.jobVersions = (afterCalls runtime calls).jobVersions ∧
        (∀ other, other ≠ observation.input.key → after.jobs other = (afterCalls runtime calls).jobs other) ∧
        after.jobs observation.input.key = some { row with deletedAt := none } := by
  intro claim
  obtain ⟨after, result, recorded⟩ := observedInput_recorded true (afterCalls observingRuntime reappearingCalls) 3000
  obtain ⟨-, -, kept⟩ := claim observingRuntime reappearingCalls reappearing 3000 deletedRow after result
    deletedRow_found rfl recorded
  obtain ⟨-, repeated⟩ := repeated_of_recordJobVersion deletedRow_found rfl recorded
  have moved := kept.symm.trans repeated.row
  revert moved
  decide

end JobTables

end RemoteSqlAgent
