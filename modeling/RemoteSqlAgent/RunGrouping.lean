import RemoteSqlAgent.HistoryIngest
import RemoteSqlAgent.RowOrder

/-! The runs of a job as its history is shown: one for each outcome, with the steps that msdb
wrote before it. The steps of all runs are read at once and dealt out by one cursor. -/
namespace RemoteSqlAgent
open Js

structure HistoryStep where
  sqlInstanceId : Int
  stepId : Int
  stepName : Option JsString
  runStatus : Int
  runDatetime : Int
  runDurationSeconds : Int
  message : Option JsString
  retriesAttempted : Int
  sqlSeverity : Int
  sqlMessageId : Int
  deriving DecidableEq

structure HistoryRun where
  sqlInstanceId : Int
  runDatetime : Int
  runStatus : Int
  runDurationSeconds : Int
  message : Option JsString
  steps : List HistoryStep
  deriving DecidableEq

def toStep (row : JobHistoryRow) : HistoryStep where
  sqlInstanceId := row.sqlInstanceId
  stepId := row.stepId
  stepName := row.stepName
  runStatus := row.runStatus
  runDatetime := row.runDatetime
  runDurationSeconds := row.runDurationSeconds
  message := row.message
  retriesAttempted := row.retriesAttempted
  sqlSeverity := row.sqlSeverity
  sqlMessageId := row.sqlMessageId

/-- An outcome as a run, with its steps. -/
def JobHistoryRow.withSteps (outcome : JobHistoryRow) (steps : List HistoryStep) : HistoryRun where
  sqlInstanceId := outcome.sqlInstanceId
  runDatetime := outcome.runDatetime
  runStatus := outcome.runStatus
  runDurationSeconds := outcome.runDurationSeconds
  message := outcome.message
  steps := steps

def HistoryRun.push (run : HistoryRun) (step : HistoryStep) : HistoryRun := { run with steps := run.steps ++ [step] }

/-- Move the cursor on to the first run that ends after a step. -/
def advance (runs : List HistoryRun) (sqlInstanceId : Int) (cursor : Nat) : Nat :=
  if inside : cursor < runs.length then
    if runs[cursor].sqlInstanceId < sqlInstanceId then advance runs sqlInstanceId (cursor + 1) else cursor
  else cursor
termination_by runs.length - cursor

/-- Deal out the steps. The cursor only moves on, and past the last run it is over. -/
def dealSteps (runs : List HistoryRun) (cursor : Nat) : List JobHistoryRow → List HistoryRun
  | [] => runs
  | step :: rest =>
    let cursor := advance runs step.sqlInstanceId cursor
    if runs.length ≤ cursor then runs else dealSteps (runs.modify cursor (·.push (toStep step))) cursor rest

section Query
variable (history : KeyedTable JobHistoryRow.key) (instanceId jobUuid : JsString)

def rowsOfJob : List JobHistoryRow :=
  history.rows.filter fun row => row.instanceId = instanceId ∧ row.jobUuid = jobUuid

/-- The outcomes of a job. Its other rows are those of its steps. -/
def outcomeRows : List JobHistoryRow := (rowsOfJob history instanceId jobUuid).filter (·.stepId = 0)

def getJobHistory (limit : Nat) : List HistoryRun :=
  let rows := rowsOfJob history instanceId jobUuid
  let outcomes := (descending (·.sqlInstanceId) (outcomeRows history instanceId jobUuid)).take limit
  match outcomes with
  | [] =>
    let orphanSteps := (descending (·.sqlInstanceId) rows).take limit
    match orphanSteps with
    | [] => []
    | newest :: rest => [{
        sqlInstanceId := newest.sqlInstanceId
        runDatetime := ((newest :: rest).getLast (List.cons_ne_nil newest rest)).runDatetime
        runStatus := 4
        runDurationSeconds := 0
        message := none
        steps := (newest :: rest).reverse.map toStep }]
  | newest :: rest =>
    let oldestOutcomeId := ((newest :: rest).getLast (List.cons_ne_nil newest rest)).sqlInstanceId
    let previousOutcome := (descending (·.sqlInstanceId)
      (rows.filter fun row => row.stepId = 0 ∧ row.sqlInstanceId < oldestOutcomeId)).head?
    let floor := previousOutcome.elim 0 (·.sqlInstanceId)
    let allSteps := ascending (·.sqlInstanceId) (rows.filter fun row =>
      floor < row.sqlInstanceId ∧ row.sqlInstanceId ≤ newest.sqlInstanceId ∧ row.stepId ≠ 0)
    let runs := (newest :: rest).reverse.map (·.withSteps [])
    (dealSteps runs 0 allSteps).reverse

end Query

/-! ## Dealing out -/

/-- The steps dealt out run by run. -/
def distribute : List HistoryRun → List JobHistoryRow → List HistoryRun
  | [], _ => []
  | run :: rest, steps =>
    { run with steps := run.steps ++ (steps.takeWhile (·.sqlInstanceId ≤ run.sqlInstanceId)).map toStep } ::
      distribute rest (steps.dropWhile (·.sqlInstanceId ≤ run.sqlInstanceId))

theorem distribute_nil (runs : List HistoryRun) : distribute runs [] = runs := by
  induction runs with
  | nil => rfl
  | cons run rest ih =>
    rw [distribute, List.takeWhile_nil, List.dropWhile_nil, ih, List.map_nil, List.append_nil]

theorem advance_here {passed rest : List HistoryRun} {run : HistoryRun} {sqlInstanceId : Int}
    (within : sqlInstanceId ≤ run.sqlInstanceId) :
    advance (passed ++ run :: rest) sqlInstanceId passed.length = passed.length := by
  rw [advance, dif_pos (by simp), if_neg]
  simpa using within

theorem advance_past {passed rest : List HistoryRun} {run : HistoryRun} {sqlInstanceId : Int}
    (beyond : run.sqlInstanceId < sqlInstanceId) : advance (passed ++ run :: rest) sqlInstanceId passed.length =
      advance (passed ++ run :: rest) sqlInstanceId (passed.length + 1) := by
  rw [advance, dif_pos (by simp), if_pos]
  simpa using beyond

theorem advance_end (runs : List HistoryRun) (sqlInstanceId : Int) :
    advance runs sqlInstanceId runs.length = runs.length := by
  rw [advance, dif_neg (lt_irrefl _)]

/-- The cursor deals out what the runs take one after the other. -/
theorem dealSteps_eq (passed runs : List HistoryRun) (steps : List JobHistoryRow) :
    dealSteps (passed ++ runs) passed.length steps = passed ++ distribute runs steps := by
  induction steps generalizing passed runs with
  | nil => rw [dealSteps, distribute_nil]
  | cons step steps ih =>
    induction runs generalizing passed with
    | nil =>
      rw [List.append_nil, dealSteps, advance_end, if_pos le_rfl, distribute, List.append_nil]
    | cons run rest next =>
      by_cases within : step.sqlInstanceId ≤ run.sqlInstanceId
      · have inside : ¬ (passed ++ run :: rest).length ≤ passed.length := by simp
        have pushed : (passed ++ run :: rest).modify passed.length (·.push (toStep step)) =
            passed ++ run.push (toStep step) :: rest := by
          rw [List.modify_eq_take_cons_drop (by simp)]
          simp
        rw [dealSteps, advance_here within, if_neg inside, pushed, ih, distribute, distribute,
          List.takeWhile_cons_of_pos (by simpa using within), List.dropWhile_cons_of_pos (by simpa using within)]
        simp only [HistoryRun.push, List.map_cons, List.append_assoc, List.singleton_append]
        rfl
      · have beyond : run.sqlInstanceId < step.sqlInstanceId := not_le.mp within
        have moved := next (passed ++ [run])
        rw [List.append_assoc, List.singleton_append, List.length_append, List.length_singleton] at moved
        rw [dealSteps] at moved ⊢
        rw [advance_past beyond, moved, distribute, List.takeWhile_cons_of_neg (by simpa using within),
          List.dropWhile_cons_of_neg (by simpa using within), List.map_nil, List.append_nil, List.append_assoc,
          List.singleton_append]

/-- A run takes the steps up to its outcome that no earlier run took. -/
theorem distribute_eq {runs : List HistoryRun} {steps : List JobHistoryRow}
    (later : runs.Pairwise fun a b => a.sqlInstanceId < b.sqlInstanceId)
    (sorted : steps.Pairwise fun a b => a.sqlInstanceId < b.sqlInstanceId) :
    distribute runs steps = runs.map fun run => { run with
      steps := run.steps ++ (steps.filter fun step => step.sqlInstanceId ≤ run.sqlInstanceId ∧
        ∀ other ∈ runs, other.sqlInstanceId < run.sqlInstanceId → other.sqlInstanceId < step.sqlInstanceId).map
          toStep } := by
  induction runs generalizing steps with
  | nil => rfl
  | cons first rest ih =>
    obtain ⟨after, later⟩ := List.pairwise_cons.mp later
    obtain ⟨taken, dropped⟩ := takeWhile_le sorted first.sqlInstanceId
    rw [distribute, taken, dropped, ih later (sorted.filter _), List.map_cons]
    congr 1
    · -- No run comes before the first.
      have own : steps.filter (fun step => step.sqlInstanceId ≤ first.sqlInstanceId) =
          steps.filter fun step => step.sqlInstanceId ≤ first.sqlInstanceId ∧ ∀ other ∈ first :: rest,
            other.sqlInstanceId < first.sqlInstanceId → other.sqlInstanceId < step.sqlInstanceId := by
        refine List.filter_congr fun step _ => ?_
        refine decide_eq_decide.mpr ⟨fun within => ⟨within, ?_⟩, And.left⟩
        intro other member below
        rcases List.mem_cons.mp member with rfl | inRest
        · exact absurd below (lt_irrefl _)
        · exact absurd below (lt_asymm (after other inRest))
      rw [own]
    · refine List.map_congr_left fun run member => ?_
      have own : (steps.filter fun step => first.sqlInstanceId < step.sqlInstanceId).filter (fun step =>
            step.sqlInstanceId ≤ run.sqlInstanceId ∧ ∀ other ∈ rest,
              other.sqlInstanceId < run.sqlInstanceId → other.sqlInstanceId < step.sqlInstanceId) =
          steps.filter fun step => step.sqlInstanceId ≤ run.sqlInstanceId ∧ ∀ other ∈ first :: rest,
            other.sqlInstanceId < run.sqlInstanceId → other.sqlInstanceId < step.sqlInstanceId := by
        rw [List.filter_filter]
        refine List.filter_congr fun step _ => ?_
        rw [← Bool.decide_and]
        refine decide_eq_decide.mpr ⟨?_, ?_⟩
        · rintro ⟨⟨within, others⟩, above⟩
          exact ⟨within, List.forall_mem_cons.mpr ⟨fun _ => above, others⟩⟩
        · rintro ⟨within, others⟩
          obtain ⟨own, others⟩ := List.forall_mem_cons.mp others
          exact ⟨⟨within, others⟩, own (after run member)⟩
      rw [own]

/-! ## The runs of a job -/

section Grouping
variable (history : KeyedTable JobHistoryRow.key) (instanceId jobUuid : JsString)

/-- The id of the outcome before an id, or 0. -/
def precedingOutcome (sqlInstanceId : Int) : Int :=
  (((outcomeRows history instanceId jobUuid).map (·.sqlInstanceId)).filter (· < sqlInstanceId)).max?.getD 0

/-- The steps of the run that an outcome closes. -/
def stepRows (outcome : JobHistoryRow) : List JobHistoryRow :=
  ascending (·.sqlInstanceId) ((rowsOfJob history instanceId jobUuid).filter fun row => row.stepId ≠ 0 ∧
    precedingOutcome history instanceId jobUuid outcome.sqlInstanceId < row.sqlInstanceId ∧
    row.sqlInstanceId < outcome.sqlInstanceId)

/-- The most recent runs, newest first, each with its own steps. -/
structure Grouped (limit : Nat) (runs : List HistoryRun) : Prop where
  length : runs.length = min limit (outcomeRows history instanceId jobUuid).length
  newestFirst : runs.Pairwise fun a b => b.sqlInstanceId < a.sqlInstanceId
  mostRecent : ∀ outcome ∈ outcomeRows history instanceId jobUuid,
    (∃ run ∈ runs, run.sqlInstanceId = outcome.sqlInstanceId) ∨
      ∀ run ∈ runs, outcome.sqlInstanceId < run.sqlInstanceId
  steps : ∀ run ∈ runs, ∃ outcome ∈ outcomeRows history instanceId jobUuid,
    run = outcome.withSteps ((stepRows history instanceId jobUuid outcome).map toStep)
  ordered : ∀ run ∈ runs, run.steps.Pairwise fun a b => a.sqlInstanceId < b.sqlInstanceId

variable {history instanceId jobUuid}

theorem mem_rowsOfJob {row : JobHistoryRow} :
    row ∈ rowsOfJob history instanceId jobUuid ↔ row ∈ history ∧ row.instanceId = instanceId ∧ row.jobUuid = jobUuid := by
  rw [rowsOfJob, List.mem_filter, decide_eq_true_iff]
  rfl

theorem mem_outcomeRows {row : JobHistoryRow} : row ∈ outcomeRows history instanceId jobUuid ↔
    row ∈ rowsOfJob history instanceId jobUuid ∧ row.stepId = 0 := by
  rw [outcomeRows, List.mem_filter, decide_eq_true_iff]

/-- Of one instance the ids are distinct. -/
theorem rowsOfJob_distinct (history : KeyedTable JobHistoryRow.key) (instanceId jobUuid : JsString) :
    ((rowsOfJob history instanceId jobUuid).map (·.sqlInstanceId)).Nodup := by
  refine List.Nodup.map_on ?_ ((List.Nodup.of_map _ history.unique).sublist List.filter_sublist)
  intro a memberA b memberB same
  obtain ⟨heldA, instanceA, -⟩ := mem_rowsOfJob.mp memberA
  obtain ⟨heldB, instanceB, -⟩ := mem_rowsOfJob.mp memberB
  exact KeyedTable.eq_of_key heldA heldB (Prod.ext (instanceA.trans instanceB.symm) same)

theorem outcomeRows_distinct (history : KeyedTable JobHistoryRow.key) (instanceId jobUuid : JsString) :
    ((outcomeRows history instanceId jobUuid).map (·.sqlInstanceId)).Nodup :=
  (rowsOfJob_distinct history instanceId jobUuid).sublist (List.filter_sublist.map _)

/-- Above the preceding outcome is above every outcome before. -/
theorem precedingOutcome_lt_iff {bound sqlInstanceId : Int} (positive : 0 < sqlInstanceId) :
    precedingOutcome history instanceId jobUuid bound < sqlInstanceId ↔
      ∀ outcome ∈ outcomeRows history instanceId jobUuid, outcome.sqlInstanceId < bound →
        outcome.sqlInstanceId < sqlInstanceId := by
  have listed : ∀ outcome ∈ outcomeRows history instanceId jobUuid, outcome.sqlInstanceId < bound →
      outcome.sqlInstanceId ∈ ((outcomeRows history instanceId jobUuid).map (·.sqlInstanceId)).filter (· < bound) :=
    fun outcome member below => List.mem_filter.mpr ⟨List.mem_map_of_mem member, decide_eq_true below⟩
  unfold precedingOutcome
  cases highest : (((outcomeRows history instanceId jobUuid).map (·.sqlInstanceId)).filter (· < bound)).max? with
  | none =>
    rw [List.max?_eq_none_iff.mp highest] at listed
    exact iff_of_true positive fun outcome member below => absurd (listed outcome member below) List.not_mem_nil
  | some id =>
    obtain ⟨attained, bounds⟩ := List.max?_eq_some_iff.mp highest
    obtain ⟨isId, below⟩ := List.mem_filter.mp attained
    obtain ⟨last, there, rfl⟩ := List.mem_map.mp isId
    constructor
    · intro above outcome member below
      exact (bounds outcome.sqlInstanceId (listed outcome member below)).trans_lt above
    · exact fun all => all last there (of_decide_eq_true below)

/-- The floor of the window is the outcome that precedes its oldest. -/
theorem floor_eq (history : KeyedTable JobHistoryRow.key) (instanceId jobUuid : JsString) (bound : Int) :
    (descending (·.sqlInstanceId) ((rowsOfJob history instanceId jobUuid).filter fun row =>
        row.stepId = 0 ∧ row.sqlInstanceId < bound)).head?.elim 0 (·.sqlInstanceId) =
      precedingOutcome history instanceId jobUuid bound := by
  have members : ∀ row, row ∈ descending (·.sqlInstanceId) ((rowsOfJob history instanceId jobUuid).filter fun row =>
        row.stepId = 0 ∧ row.sqlInstanceId < bound) ↔
      row ∈ outcomeRows history instanceId jobUuid ∧ row.sqlInstanceId < bound := by
    intro row
    rw [mem_descending, List.mem_filter, decide_eq_true_iff, mem_outcomeRows, and_assoc]
  have sorted : (descending (·.sqlInstanceId) ((rowsOfJob history instanceId jobUuid).filter fun row =>
      row.stepId = 0 ∧ row.sqlInstanceId < bound)).Pairwise fun a b => b.sqlInstanceId < a.sqlInstanceId :=
    descending_pairwise ((rowsOfJob_distinct history instanceId jobUuid).sublist (List.filter_sublist.map _))
  unfold precedingOutcome
  cases found : descending (·.sqlInstanceId) ((rowsOfJob history instanceId jobUuid).filter fun row =>
      row.stepId = 0 ∧ row.sqlInstanceId < bound) with
  | nil =>
    have none_ : ((outcomeRows history instanceId jobUuid).map (·.sqlInstanceId)).filter (· < bound) = [] := by
      refine List.filter_eq_nil_iff.mpr fun id member below => ?_
      obtain ⟨row, there, rfl⟩ := List.mem_map.mp member
      have inside := (members row).mpr ⟨there, of_decide_eq_true below⟩
      rw [found] at inside
      cases inside
    rw [none_]
    rfl
  | cons first rest =>
    rw [found] at sorted members
    have highest : (((outcomeRows history instanceId jobUuid).map (·.sqlInstanceId)).filter (· < bound)).max? =
        some first.sqlInstanceId := by
      refine List.max?_eq_some_iff.mpr ⟨?_, fun id member => ?_⟩
      · obtain ⟨isOutcome, below⟩ := (members first).mp List.mem_cons_self
        exact List.mem_filter.mpr ⟨List.mem_map_of_mem isOutcome, decide_eq_true below⟩
      · obtain ⟨isId, below⟩ := List.mem_filter.mp member
        obtain ⟨row, there, rfl⟩ := List.mem_map.mp isId
        rcases List.mem_cons.mp ((members row).mpr ⟨there, of_decide_eq_true below⟩) with rfl | later
        · exact le_rfl
        · exact ((List.pairwise_cons.mp sorted).1 row later).le
    rw [highest]
    rfl

/-- Ids tell the rows of a job apart. -/
theorem eq_of_sqlInstanceId {a b : JobHistoryRow} (memberA : a ∈ rowsOfJob history instanceId jobUuid)
    (memberB : b ∈ rowsOfJob history instanceId jobUuid) (same : a.sqlInstanceId = b.sqlInstanceId) : a = b :=
  List.inj_on_of_nodup_map (rowsOfJob_distinct history instanceId jobUuid) memberA memberB same

/-- The most recent outcomes: any other is before all of them. -/
structure Window (history : KeyedTable JobHistoryRow.key) (instanceId jobUuid : JsString)
    (outcomes : List JobHistoryRow) : Prop where
  inside : ∀ outcome ∈ outcomes, outcome ∈ outcomeRows history instanceId jobUuid
  newestFirst : outcomes.Pairwise fun a b => b.sqlInstanceId < a.sqlInstanceId
  mostRecent : ∀ outcome ∈ outcomeRows history instanceId jobUuid,
    outcome ∈ outcomes ∨ ∀ other ∈ outcomes, outcome.sqlInstanceId < other.sqlInstanceId

theorem window_take (history : KeyedTable JobHistoryRow.key) (instanceId jobUuid : JsString) (limit : Nat) :
    Window history instanceId jobUuid ((descending (·.sqlInstanceId) (outcomeRows history instanceId jobUuid)).take
      limit) := by
  have sorted := descending_pairwise (outcomeRows_distinct history instanceId jobUuid)
  have cut := List.take_append_drop limit (descending (·.sqlInstanceId) (outcomeRows history instanceId jobUuid))
  refine ⟨fun outcome member => mem_descending.mp (List.mem_of_mem_take member),
    sorted.sublist (List.take_sublist ..), fun outcome member => ?_⟩
  have there : outcome ∈ descending (·.sqlInstanceId) (outcomeRows history instanceId jobUuid) :=
    mem_descending.mpr member
  rw [← cut] at sorted there
  rcases List.mem_append.mp there with early | late
  · exact .inl early
  · exact .inr fun other inside => (List.pairwise_append.mp sorted).2.2 other inside outcome late

section Steps
variable (positive : ∀ row ∈ rowsOfJob history instanceId jobUuid, 0 < row.sqlInstanceId) {newest : JobHistoryRow}
  {rest : List JobHistoryRow} (window : Window history instanceId jobUuid (newest :: rest))
include positive window

/-- Between the bounds of the window, and after the outcomes in it that are before one, is
after every outcome before it. -/
theorem between_iff {outcome row : JobHistoryRow} (member : outcome ∈ newest :: rest)
    (isRow : row ∈ rowsOfJob history instanceId jobUuid) (isStep : row.stepId ≠ 0) :
    (precedingOutcome history instanceId jobUuid
          ((newest :: rest).getLast (List.cons_ne_nil newest rest)).sqlInstanceId < row.sqlInstanceId ∧
        row.sqlInstanceId ≤ newest.sqlInstanceId) ∧ row.sqlInstanceId ≤ outcome.sqlInstanceId ∧
        (∀ other ∈ newest :: rest, other.sqlInstanceId < outcome.sqlInstanceId →
          other.sqlInstanceId < row.sqlInstanceId) ↔
      precedingOutcome history instanceId jobUuid outcome.sqlInstanceId < row.sqlInstanceId ∧
        row.sqlInstanceId < outcome.sqlInstanceId := by
  have isPositive := positive row isRow
  have oldest := List.getLast_mem (List.cons_ne_nil newest rest)
  have newer : ∀ other ∈ newest :: rest, other.sqlInstanceId ≤ newest.sqlInstanceId := by
    intro other there
    rcases List.mem_cons.mp there with rfl | later
    · exact le_rfl
    · exact ((List.pairwise_cons.mp window.newestFirst).1 other later).le
  have older : ∀ other ∈ newest :: rest,
      ((newest :: rest).getLast (List.cons_ne_nil newest rest)).sqlInstanceId ≤ other.sqlInstanceId := by
    have shape := List.dropLast_append_getLast (List.cons_ne_nil newest rest)
    have sorted := window.newestFirst
    rw [← shape] at sorted
    intro other there
    rw [← shape, List.mem_append, List.mem_singleton] at there
    rcases there with earlier | rfl
    · exact ((List.pairwise_append.mp sorted).2.2 other earlier _ (List.mem_singleton_self _)).le
    · exact le_rfl
  rw [precedingOutcome_lt_iff isPositive, precedingOutcome_lt_iff isPositive]
  constructor
  · rintro ⟨⟨before, -⟩, within, inWindow⟩
    refine ⟨fun other isOutcome below => ?_, lt_of_le_of_ne within fun same => isStep ?_⟩
    · rcases window.mostRecent other isOutcome with inside | outside
      · exact inWindow other inside below
      · exact before other isOutcome (outside _ oldest)
    · obtain ⟨isOutcomeRow, zero⟩ := mem_outcomeRows.mp (window.inside outcome member)
      rw [eq_of_sqlInstanceId isRow isOutcomeRow same, zero]
  · rintro ⟨after, below⟩
    refine ⟨⟨fun other isOutcome early => ?_, below.le.trans (newer outcome member)⟩, below.le, ?_⟩
    · exact after other isOutcome (early.trans_le (older outcome member))
    · exact fun other inside less => after other (window.inside other inside) less

/-- The cursor gives each outcome of the window its own steps. -/
theorem dealSteps_window : (dealSteps ((newest :: rest).reverse.map (·.withSteps [])) 0
      (ascending (·.sqlInstanceId) ((rowsOfJob history instanceId jobUuid).filter fun row =>
        precedingOutcome history instanceId jobUuid
            ((newest :: rest).getLast (List.cons_ne_nil newest rest)).sqlInstanceId < row.sqlInstanceId ∧
          row.sqlInstanceId ≤ newest.sqlInstanceId ∧ row.stepId ≠ 0))).reverse =
    (newest :: rest).map fun outcome => outcome.withSteps ((stepRows history instanceId jobUuid outcome).map toStep) := by
  have distinct := rowsOfJob_distinct history instanceId jobUuid
  have dealt := dealSteps_eq [] ((newest :: rest).reverse.map (·.withSteps []))
  rw [List.nil_append, List.length_nil] at dealt
  rw [dealt, List.nil_append, distribute_eq]
  · rw [List.map_map, ← List.map_reverse, List.reverse_reverse]
    refine List.map_congr_left fun outcome member => ?_
    refine congrArg outcome.withSteps (congrArg (List.map toStep) ?_)
    rw [filter_ascending (distinct.sublist (List.filter_sublist.map _)), List.filter_filter, stepRows]
    refine congrArg (ascending _) (List.filter_congr fun row isRow => ?_)
    rw [← Bool.decide_and]
    refine decide_eq_decide.mpr ?_
    have others : (∀ other ∈ (newest :: rest).reverse.map (·.withSteps []),
        other.sqlInstanceId < outcome.sqlInstanceId → other.sqlInstanceId < row.sqlInstanceId) ↔
          ∀ other ∈ newest :: rest, other.sqlInstanceId < outcome.sqlInstanceId →
            other.sqlInstanceId < row.sqlInstanceId := by
      simp only [List.forall_mem_map, List.mem_reverse]
      rfl
    constructor
    · rintro ⟨⟨within, inWindow⟩, above, below, isStep⟩
      exact ⟨isStep, (between_iff positive window member isRow isStep).mp
        ⟨⟨above, below⟩, within, others.mp inWindow⟩⟩
    · rintro ⟨isStep, between⟩
      obtain ⟨⟨above, below⟩, within, inWindow⟩ := (between_iff positive window member isRow isStep).mpr between
      exact ⟨⟨within, others.mpr inWindow⟩, above, below, isStep⟩
  · exact List.pairwise_map.mpr (List.pairwise_reverse.mpr window.newestFirst)
  · exact ascending_pairwise (distinct.sublist (List.filter_sublist.map _))

end Steps

/-- The steps of a run are in order, and no two have one id. -/
theorem stepRows_ascending (outcome : JobHistoryRow) :
    (stepRows history instanceId jobUuid outcome).Pairwise fun a b => a.sqlInstanceId < b.sqlInstanceId :=
  ascending_pairwise ((rowsOfJob_distinct history instanceId jobUuid).sublist (List.filter_sublist.map _))

/-- **Run grouping is exact.** -/
theorem getJobHistory_grouped (history : KeyedTable JobHistoryRow.key) (instanceId jobUuid : JsString) (limit : Nat)
    (positive : ∀ row ∈ rowsOfJob history instanceId jobUuid, 0 < row.sqlInstanceId)
    (ended : outcomeRows history instanceId jobUuid ≠ []) (some_ : 0 < limit) :
    Grouped history instanceId jobUuid limit (getJobHistory history instanceId jobUuid limit) := by
  have window := window_take history instanceId jobUuid limit
  have count : ((descending (·.sqlInstanceId) (outcomeRows history instanceId jobUuid)).take limit).length =
      min limit (outcomeRows history instanceId jobUuid).length := by
    rw [List.length_take, descending, length_sortBy]
  have many := List.length_pos_iff.mpr ended
  unfold getJobHistory
  cases outcomes : (descending (·.sqlInstanceId) (outcomeRows history instanceId jobUuid)).take limit with
  | nil =>
    rw [outcomes, List.length_nil] at count
    omega
  | cons newest rest =>
    rw [outcomes] at window count
    dsimp only
    rw [floor_eq, dealSteps_window positive window]
    refine ⟨by rw [List.length_map, count], List.pairwise_map.mpr window.newestFirst, fun outcome member => ?_, ?_, ?_⟩
    · rcases window.mostRecent outcome member with inside | outside
      · exact .inl ⟨_, List.mem_map_of_mem inside, rfl⟩
      · refine .inr fun run isRun => ?_
        obtain ⟨other, there, rfl⟩ := List.mem_map.mp isRun
        exact outside other there
    · intro run isRun
      obtain ⟨outcome, there, rfl⟩ := List.mem_map.mp isRun
      exact ⟨outcome, window.inside outcome there, rfl⟩
    · intro run isRun
      obtain ⟨outcome, -, rfl⟩ := List.mem_map.mp isRun
      exact List.pairwise_map.mpr (stepRows_ascending outcome)

end Grouping

/-- A row of history of a job, that of a step if the step has a number. -/
def ranRow (jobUuid : JsString) (sqlInstanceId stepId : Int) : JobHistoryRow where
  instanceId := js "i1"
  jobUuid := jobUuid
  sqlInstanceId := sqlInstanceId
  stepId := stepId
  stepName := none
  runStatus := 1
  runDatetime := 1700000000000 + sqlInstanceId
  runDurationSeconds := 5
  message := none
  retriesAttempted := 0
  server := none
  sqlSeverity := 0
  sqlMessageId := 0

/-- Two runs of a job, a run of another job between them, and one that is not over. -/
def ranHistory : KeyedTable JobHistoryRow.key where
  rows := [ranRow (js "j1") 10 1, ranRow (js "j1") 11 2, ranRow (js "j1") 12 0, ranRow (js "j1") 13 1,
    ranRow (js "j2") 14 1, ranRow (js "j2") 15 0, ranRow (js "j1") 16 0, ranRow (js "j1") 17 1]
  unique := by decide

theorem getJobHistory_grouped_ran :
    Grouped ranHistory (js "i1") (js "j1") 5 (getJobHistory ranHistory (js "i1") (js "j1") 5) ∧
      ((stepRows ranHistory (js "i1") (js "j1") (ranRow (js "j1") 16 0)).map (·.sqlInstanceId)) = [13] :=
  ⟨getJobHistory_grouped ranHistory (js "i1") (js "j1") 5 (by decide) (by decide) (by decide), by decide⟩

end RemoteSqlAgent
