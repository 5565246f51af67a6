import RemoteSqlAgent.AuditExport

/-! Where an audit event is. A drain takes it off the queue when the batch processor holds it, which is
before the collector acknowledged it, and what drops the buffer then drops the event. Every event is
accounted for exactly as long as rows are taken off that were acknowledged already. -/
namespace RemoteSqlAgent
open Js CallProgram

namespace AuditStatement

/-- The rows of the queue that a statement is about. -/
def queueIds : AuditStatement → List Nat
  | deleteDelivered queueIds => queueIds
  | deleteFailed failure | updateFailed failure => [failure.queueId]

/-- The rows that a statement takes off the queue because the batch processor holds their records. -/
def handedOver : AuditStatement → List Nat
  | deleteDelivered queueIds => queueIds
  | deleteFailed _ | updateFailed _ => []

end AuditStatement

namespace AuditExport

def Acknowledged (state : AuditExport) (id : Nat) : Prop := ∃ record ∈ state.acknowledged, record.auditId = id

def Queued (state : AuditExport) (id : Nat) : Prop := ∃ row ∈ state.queue, row.auditLogId = id

/-- How often emitting an event failed. -/
def failed (state : AuditExport) (id : Nat) : Nat := (state.failures.filter fun other => other = id).length

/-- An event was given up after as many failures as are configured. -/
def GivenUp (config : AuditConfig) (state : AuditExport) (id : Nat) : Prop :=
  id ∈ state.dropped ∧ config.maxAttempts ≤ state.failed id

/-- Every event is acknowledged, queued or given up. -/
def Accounted (config : AuditConfig) (state : AuditExport) : Prop :=
  ∀ row ∈ state.log, state.Acknowledged row.id ∨ state.Queued row.id ∨ GivenUp config state row.id

/-- A row is taken off the queue for its record when the collector acknowledged it. -/
def Awaits (state : AuditExport) : AuditStep → Prop
  | .statement fault => (fault = none ∨ fault = some .unheard) → ∀ first ∈ state.statements.head?,
    ∀ row ∈ state.queue, row.id ∈ first.handedOver → state.Acknowledged row.auditLogId
  | _ => True

/-- Emitting never throws. -/
def Buffers (steps : List AuditStep) : Prop := ∀ emits, .drain emits ∈ steps → ∀ record, (emits record).toBool = true

/-! ## What every step keeps -/

/-- Every event has a place in the queue at most. A drain in progress is about rows that are there, each
once, and their failures are counted. -/
structure Sound (config : AuditConfig) (state : AuditExport) : Prop where
  ids : state.log.map (·.id) = List.range state.log.length
  own : ∀ row ∈ state.queue, row.auditLogId = row.id ∧ row.id < state.log.length
  once : (state.queue.map (·.id)).Nodup
  there : ∀ id ∈ state.statements.flatMap AuditStatement.queueIds, ∃ row ∈ state.queue, row.id = id
  apart : (state.statements.flatMap AuditStatement.queueIds).Nodup
  counted : ∀ row ∈ state.queue, row.attempts ≤ state.failed row.id
  retried : ∀ failure, .updateFailed failure ∈ state.statements → failure.attempts ≤ state.failed failure.queueId
  spent : ∀ failure, .deleteFailed failure ∈ state.statements →
    config.maxAttempts ≤ state.failed failure.queueId ∧ 0 < state.failed failure.queueId
  gone : ∀ id ∈ state.dropped, id < state.log.length ∧ ¬ state.Queued id ∧ config.maxAttempts ≤ state.failed id ∧
    0 < state.failed id

section Steps
variable {config : AuditConfig} {state after : AuditExport}

/-- Nothing changes but what the drain has still to do, which gets less. -/
theorem Sound.narrowed (sound : Sound config state) (log : after.log = state.log) (queue : after.queue = state.queue)
    (failures : after.failures = state.failures) (dropped : after.dropped = state.dropped)
    (fewer : after.statements <:+ state.statements) : Sound config after := by
  obtain ⟨ids, own, once, there, apart, counted, retried, spent, gone⟩ := sound
  have part : (after.statements.flatMap AuditStatement.queueIds).Sublist
      (state.statements.flatMap AuditStatement.queueIds) := by
    obtain ⟨made, split⟩ := fewer
    rw [← split, List.flatMap_append]
    exact List.sublist_append_right _ _
  unfold failed Queued at *
  rw [← log, ← queue, ← failures, ← dropped] at *
  exact ⟨ids, own, once, fun id member => there id (part.subset member), apart.sublist part, counted,
    fun failure member => retried failure (fewer.subset member),
    fun failure member => spent failure (fewer.subset member), gone⟩

theorem sound_writeAudit (sound : Sound config state) (entry : AuditEntry) : Sound config (state.writeAudit entry) := by
  have longer : (state.writeAudit entry).log.length = state.log.length + 1 := List.length_append
  have fresh : ∀ row ∈ state.queue, row.id ≠ state.log.length := fun row member same => by
    have below := (sound.own row member).2
    omega
  refine ⟨?_, fun row member => ?_, ?_, fun id member => ?_, sound.apart,
    fun row member => ?_, sound.retried, sound.spent,
    fun id member => ?_⟩
  · rw [longer, List.range_succ, ← sound.ids]
    exact List.map_append
  · rw [longer]
    rcases List.mem_append.mp member with before | new
    · exact ⟨(sound.own row before).1, (sound.own row before).2.trans (Nat.lt_succ_self _)⟩
    · rw [List.mem_singleton.mp new]
      exact ⟨rfl, Nat.lt_succ_self _⟩
  · refine (List.map_append (f := AuditQueueRow.id)).symm ▸ List.nodup_append.mpr
      ⟨sound.once, List.nodup_singleton _, ?_⟩
    intro id before other new same
    obtain ⟨row, member, rfl⟩ := List.mem_map.mp before
    exact fresh row member (same.trans (List.mem_singleton.mp new))
  · obtain ⟨row, held, same⟩ := sound.there id member
    exact ⟨row, List.mem_append_left _ held, same⟩
  · rcases List.mem_append.mp member with before | new
    · exact sound.counted row before
    · rw [List.mem_singleton.mp new]
      exact Nat.zero_le _
  · obtain ⟨below, unqueued, rest⟩ := sound.gone id member
    refine ⟨longer ▸ below.trans (Nat.lt_succ_self _), fun ⟨row, held, same⟩ => ?_, rest⟩
    rcases List.mem_append.mp held with before | new
    · exact unqueued ⟨row, before, same⟩
    · rw [List.mem_singleton.mp new] at same
      exact below.ne same.symm

/-- What is due is in the queue, each row once. -/
theorem pending_rows (sound : Sound config state) (limit : Nat) :
    (∀ row ∈ state.pending limit, row.1 ∈ state.queue) ∧ ((state.pending limit).map (·.1.id)).Nodup := by
  let due := state.queue.filter fun row => row.nextAttemptAt ≤ state.clock
  let joined (row : AuditQueueRow) := (state.log.filter (·.id = row.auditLogId)).map fun event => (row, event)
  have selected : state.pending limit = (sortBy (fun a b : AuditQueueRow × AuditRow => a.1.createdAt - b.1.createdAt)
      (due.flatMap joined)).take limit := rfl
  constructor
  · intro row member
    rw [selected] at member
    obtain ⟨source, isDue, inside⟩ := List.mem_flatMap.mp (mem_sortBy.mp (List.mem_of_mem_take member))
    obtain ⟨event, -, rfl⟩ := List.mem_map.mp inside
    exact (List.mem_filter.mp isDue).1
  · have events : state.log.Pairwise fun a b => a.id ≠ b.id :=
      List.pairwise_map.mp (sound.ids ▸ List.nodup_range)
    have rows : due.Pairwise fun a b => a.id ≠ b.id := (List.pairwise_map.mp sound.once).filter _
    rw [selected, List.map_take]
    refine List.Nodup.sublist (List.take_sublist _ _) (((sortBy_perm _ _).map _).nodup_iff.mpr ?_)
    refine List.pairwise_map.mpr
      (List.pairwise_flatMap.mpr ⟨fun row _ => ?_, rows.imp fun {a b} apart x inA y inB => ?_⟩)
    · -- A row has one event.
      refine List.pairwise_map.mpr ((events.filter _).imp_of_mem fun {a b} isEvent also apart => absurd ?_ apart)
      exact (of_decide_eq_true (List.mem_filter.mp isEvent).2).trans
        (of_decide_eq_true (List.mem_filter.mp also).2).symm
    · obtain ⟨event, -, rfl⟩ := List.mem_map.mp inA
      obtain ⟨other, -, rfl⟩ := List.mem_map.mp inB
      exact apart

section Drain
variable (config) (emits : LogRecord → Except JsString Unit)

theorem settle_queueIds (failure : AuditFailure) : (settle config failure).queueIds = [failure.queueId] := by
  unfold settle
  split <;> rfl

theorem mem_failureOf {row : AuditQueueRow × AuditRow} {failure : AuditFailure} :
    failureOf emits row = some failure → Emitted emits row = false ∧ failure.queueId = row.1.id ∧
      failure.attempts = row.1.attempts + 1 := by
  unfold failureOf Emitted
  cases emits row.2.record with
  | ok => exact fun none_ => absurd none_ (by simp)
  | error error =>
    rintro ⟨⟩
    exact ⟨rfl, rfl, rfl⟩

/-- The failures are those of the rows whose emission threw. -/
theorem failures_queueIds (rows : List (AuditQueueRow × AuditRow)) :
    (rows.filterMap (failureOf emits)).map (·.queueId) = (rows.filter fun row => ¬ Emitted emits row).map (·.1.id) := by
  induction rows with
  | nil => rfl
  | cons row rest ih =>
    cases emission : emits row.2.record with
    | ok => simpa [failureOf, Emitted, emission, Except.toBool] using ih
    | error error => simpa [failureOf, Emitted, emission, Except.toBool] using ih

/-- A drain is about each row that is due. -/
theorem statements_queueIds (rows : List (AuditQueueRow × AuditRow)) :
    (((if (rows.filter (Emitted emits)).length > 0 then
          [AuditStatement.deleteDelivered ((rows.filter (Emitted emits)).map (·.1.id))] else []) ++
        (rows.filterMap (failureOf emits)).map (settle config)).flatMap AuditStatement.queueIds).Perm
          (rows.map (·.1.id)) := by
  have delivered : (if (rows.filter (Emitted emits)).length > 0 then
      [AuditStatement.deleteDelivered ((rows.filter (Emitted emits)).map (·.1.id))] else []).flatMap
        AuditStatement.queueIds = (rows.filter (Emitted emits)).map (·.1.id) := by
    cases found : rows.filter (Emitted emits) with
    | nil => rfl
    | cons first others => simp [AuditStatement.queueIds]
  have rejected : ((rows.filterMap (failureOf emits)).map (settle config)).flatMap AuditStatement.queueIds =
      (rows.filter fun row => ¬ Emitted emits row).map (·.1.id) := by
    rw [← failures_queueIds, List.flatMap_map, List.map_eq_flatMap]
    simp only [settle_queueIds]
  rw [List.flatMap_append, delivered, rejected, ← List.map_append]
  refine List.Perm.map _ ?_
  simpa using List.filter_append_perm (Emitted emits) rows

/-- What a drain gives up was tried as often as is configured. -/
theorem mem_settle {queueIds : List Nat} {some_ : Prop} [Decidable some_] {failures : List AuditFailure}
    {failure : AuditFailure} :
    (.updateFailed failure ∈ (if some_ then [AuditStatement.deleteDelivered queueIds] else []) ++
        failures.map (settle config) → failure ∈ failures) ∧
      (.deleteFailed failure ∈ (if some_ then [AuditStatement.deleteDelivered queueIds] else []) ++
        failures.map (settle config) → failure ∈ failures ∧ config.maxAttempts ≤ failure.attempts) := by
  have other : ∀ statement : AuditStatement, statement ≠ .deleteDelivered queueIds →
      statement ∈ (if some_ then [AuditStatement.deleteDelivered queueIds] else []) ++ failures.map (settle config) →
        ∃ source ∈ failures, settle config source = statement := by
    intro statement apart member
    rcases List.mem_append.mp member with delivered | failed
    · split at delivered
      · exact absurd (List.mem_singleton.mp delivered) apart
      · exact absurd delivered List.not_mem_nil
    · exact List.mem_map.mp failed
  constructor
  · intro member
    obtain ⟨source, isFailure, same⟩ := other _ (by simp) member
    unfold settle at same
    split at same
    · cases same
    · cases same
      exact isFailure
  · intro member
    obtain ⟨source, isFailure, same⟩ := other _ (by simp) member
    unfold settle at same
    split at same
    · rename_i spent
      cases same
      exact ⟨isFailure, spent⟩
    · cases same

theorem sound_drain (sound : Sound config state) : Sound config (state.drain config emits) := by
  unfold drain
  split
  · exact sound
  · obtain ⟨held, distinct⟩ := pending_rows sound config.exportBatchSize
    let rows := state.pending config.exportBatchSize
    have about := statements_queueIds config emits rows
    have more : ∀ id, state.failed id ≤ ((state.failures ++ (rows.filter fun row => ¬ Emitted emits row).map
        (·.1.auditLogId)).filter fun other => other = id).length := by
      intro id
      rw [List.filter_append, List.length_append]
      exact Nat.le_add_right _ _
    -- A row whose emission threw has one more failure than it had.
    have counts : ∀ failure ∈ rows.filterMap (failureOf emits), failure.attempts ≤ ((state.failures ++
        (rows.filter fun row => ¬ Emitted emits row).map (·.1.auditLogId)).filter fun other =>
          other = failure.queueId).length ∧ 0 < failure.attempts := by
      intro failure member
      obtain ⟨row, isRow, gives⟩ := List.mem_filterMap.mp member
      obtain ⟨threw, same, attempts⟩ := mem_failureOf emits gives
      have before := sound.counted row.1 (held row isRow)
      have own := (sound.own row.1 (held row isRow)).1
      have once : 0 < (((rows.filter fun row => ¬ Emitted emits row).map (·.1.auditLogId)).filter fun other =>
          other = failure.queueId).length := by
        refine List.length_pos_of_mem (List.mem_filter.mpr ⟨List.mem_map.mpr ⟨row, ?_, rfl⟩, ?_⟩)
        · exact List.mem_filter.mpr ⟨isRow, by simp [threw]⟩
        · exact decide_eq_true (own.trans same.symm)
      rw [List.filter_append, List.length_append, attempts]
      unfold failed at before
      rw [← same] at before
      omega
    refine ⟨sound.ids, sound.own, sound.once, fun id member => ?_, about.nodup_iff.mpr distinct,
      fun row member => (sound.counted row member).trans (more row.id), fun failure member => ?_,
      fun failure member => ?_,
      fun id member => ?_⟩
    · obtain ⟨row, isRow, same⟩ := List.mem_map.mp (about.mem_iff.mp member)
      exact ⟨row.1, held row isRow, same⟩
    · exact (counts failure ((mem_settle config).1 member)).1
    · obtain ⟨isFailure, spent⟩ := (mem_settle config).2 member
      obtain ⟨counted, positive⟩ := counts failure isFailure
      exact ⟨spent.trans counted, positive.trans_le counted⟩
    · obtain ⟨below, unqueued, enough, positive⟩ := sound.gone id member
      exact ⟨below, unqueued, enough.trans (more id), positive.trans_le (more id)⟩

end Drain

/-- Taking rows off the queue keeps what is left. -/
theorem Sound.deleted (sound : Sound config state) {first : AuditStatement} {rest : List AuditStatement}
    (pending : state.statements = first :: rest) (gone : List Nat)
    (after_ : after = { state with
      queue := state.queue.filter fun row => row.id ∉ first.queueIds
      statements := rest
      dropped := state.dropped ++ gone })
    (given : ∀ id ∈ gone, id < state.log.length ∧ id ∈ first.queueIds ∧ config.maxAttempts ≤ state.failed id ∧
      0 < state.failed id) : Sound config after := by
  have apart := sound.apart
  have there := sound.there
  rw [pending, List.flatMap_cons] at apart there
  obtain ⟨-, distinct, disjoint⟩ := List.nodup_append.mp apart
  have held : ∀ row ∈ state.queue.filter fun row => row.id ∉ first.queueIds,
      row ∈ state.queue ∧ row.id ∉ first.queueIds :=
    fun row member => ⟨(List.mem_filter.mp member).1, of_decide_eq_true (List.mem_filter.mp member).2⟩
  subst after_
  refine ⟨sound.ids, fun row member => sound.own row (held row member).1,
    sound.once.sublist ((List.filter_sublist).map _), fun id member => ?_, distinct,
    fun row member => sound.counted row (held row member).1, fun failure member => ?_, fun failure member => ?_,
    fun id member => ?_⟩
  · obtain ⟨row, isRow, rfl⟩ := there id (List.mem_append_right _ member)
    refine ⟨row, List.mem_filter.mpr ⟨isRow, decide_eq_true fun inFirst => ?_⟩, rfl⟩
    exact disjoint _ inFirst _ member rfl
  · exact sound.retried failure (pending ▸ List.mem_cons_of_mem _ member)
  · exact sound.spent failure (pending ▸ List.mem_cons_of_mem _ member)
  · rcases List.mem_append.mp member with before | new
    · obtain ⟨below, unqueued, rest⟩ := sound.gone id before
      exact ⟨below, fun ⟨row, isRow, same⟩ => unqueued ⟨row, (held row isRow).1, same⟩, rest⟩
    · obtain ⟨below, inFirst, rest⟩ := given id new
      refine ⟨below, fun ⟨row, isRow, same⟩ => (held row isRow).2 ?_, rest⟩
      rw [← (sound.own row (held row isRow).1).1, same]
      exact inFirst

/-- Noting a failure changes no row but its own, and that row only counts the failures that there were. -/
theorem Sound.noted (sound : Sound config state) {failure : AuditFailure} {rest : List AuditStatement}
    (pending : state.statements = .updateFailed failure :: rest) :
    Sound config { state with queue := state.queue.map (failure.note state.clock), statements := rest } := by
  have here : .updateFailed failure ∈ state.statements := pending ▸ List.mem_cons_self
  have later : ∀ statement ∈ rest, statement ∈ state.statements :=
    fun statement member => pending ▸ List.mem_cons_of_mem _ member
  have apart := sound.apart
  have there := sound.there
  rw [pending, List.flatMap_cons] at apart there
  refine ⟨sound.ids, fun row member => ?_, ?_, fun id member => ?_, (List.nodup_append.mp apart).2.1,
    fun row member => ?_, fun other member => sound.retried other (later _ member),
    fun other member => sound.spent other (later _ member), fun id member => ?_⟩
  · obtain ⟨source, isRow, rfl⟩ := List.mem_map.mp member
    rw [failure.note_id, failure.note_auditLogId]
    exact sound.own source isRow
  · have same : (state.queue.map (failure.note state.clock)).map (·.id) = state.queue.map (·.id) := by
      rw [List.map_map]
      exact List.map_congr_left fun row _ => failure.note_id state.clock row
    exact same ▸ sound.once
  · obtain ⟨row, isRow, same⟩ := there id (List.mem_append_right _ member)
    exact ⟨_, List.mem_map_of_mem isRow, (failure.note_id state.clock row).trans same⟩
  · obtain ⟨source, isRow, rfl⟩ := List.mem_map.mp member
    rw [failure.note_id]
    by_cases own : source.id = failure.queueId
    · have noted : (failure.note state.clock source).attempts = failure.attempts := by
        unfold AuditFailure.note
        rw [if_pos own]
      rw [noted, own]
      exact sound.retried failure here
    · have same : failure.note state.clock source = source := if_neg own
      rw [same]
      exact sound.counted source isRow
  · obtain ⟨below, unqueued, rest⟩ := sound.gone id member
    refine ⟨below, ?_, rest⟩
    rintro ⟨row, isRow, same⟩
    obtain ⟨source, held, rfl⟩ := List.mem_map.mp isRow
    exact unqueued ⟨source, held, (failure.note_auditLogId state.clock source).symm.trans same⟩

/-- A statement that is made. -/
theorem sound_perform (sound : Sound config state) {first : AuditStatement} {rest : List AuditStatement}
    (pending : state.statements = first :: rest) : Sound config { state.perform first with statements := rest } := by
  have here : first ∈ state.statements := pending ▸ List.mem_cons_self
  cases first with
  | deleteDelivered queueIds =>
    refine sound.deleted pending [] ?_ fun id member => absurd member List.not_mem_nil
    rw [List.append_nil]
    rfl
  | deleteFailed failure =>
    obtain ⟨enough, positive⟩ := sound.spent failure here
    refine sound.deleted pending ((state.queue.filter fun row => row.id = failure.queueId).map (·.auditLogId)) ?_
      fun id member => ?_
    · simp only [perform, AuditStatement.queueIds, List.mem_singleton, ne_eq]
    · obtain ⟨row, found, rfl⟩ := List.mem_map.mp member
      obtain ⟨isRow, same⟩ := List.mem_filter.mp found
      obtain ⟨own, below⟩ := sound.own row isRow
      rw [own, of_decide_eq_true same]
      exact ⟨of_decide_eq_true same ▸ below, List.mem_singleton_self _, enough, positive⟩
  | updateFailed failure => exact sound.noted pending

theorem sound_next (sound : Sound config state) (step : AuditStep) : Sound config (state.next config step) := by
  cases step with
  | start | exported | exportFailed | wait => exact sound.narrowed rfl rfl rfl rfl List.suffix_rfl
  | writeAudit entry => exact sound_writeAudit sound entry
  | drain emits => exact sound_drain config emits sound
  | crash => exact sound.narrowed rfl rfl rfl rfl (List.nil_suffix)
  | statement fault =>
    unfold next
    dsimp only
    split
    · exact sound
    · rename_i first rest pending
      have made := sound_perform sound pending
      split
      · exact made
      · exact sound.narrowed rfl rfl rfl rfl List.nil_suffix
      · exact made.narrowed rfl rfl rfl rfl List.nil_suffix
      · exact sound.narrowed rfl rfl rfl rfl List.nil_suffix

/-! ## Where events are -/

/-- A statement that is made leaves every event accounted for, if it takes no row off the queue that was
not acknowledged. -/
theorem accounted_perform (sound : Sound config state) (accounted : Accounted config state) {first : AuditStatement}
    {rest : List AuditStatement} (pending : state.statements = first :: rest) : Accounted config (state.perform first) ↔
      ∀ row ∈ state.queue, row.id ∈ first.handedOver → state.Acknowledged row.auditLogId := by
  cases first with
  | deleteDelivered queueIds =>
    constructor
    · intro after row member handed
      obtain ⟨own, below⟩ := sound.own row member
      have inLog : row.auditLogId ∈ state.log.map (·.id) := by
        rw [sound.ids, own]
        exact List.mem_range.mpr below
      obtain ⟨event, isEvent, same⟩ := List.mem_map.mp inLog
      rw [← same]
      rcases after event isEvent with acknowledged | ⟨other, isRow, also⟩ | ⟨dropped, -⟩
      · exact acknowledged
      · obtain ⟨held, left⟩ := List.mem_filter.mp isRow
        have sameRow : other.id = row.id := by rw [← (sound.own other held).1, also, same, own]
        exact absurd (sameRow ▸ handed) (of_decide_eq_true left)
      · exact absurd ⟨row, member, same.symm⟩ (sound.gone event.id dropped).2.1
    · intro awaited event isEvent
      rcases accounted event isEvent with acknowledged | ⟨row, isRow, same⟩ | givenUp
      · exact .inl acknowledged
      · by_cases handed : row.id ∈ queueIds
        · exact .inl (same ▸ awaited row isRow handed)
        · exact .inr (.inl ⟨row, List.mem_filter.mpr ⟨isRow, decide_eq_true handed⟩, same⟩)
      · exact .inr (.inr givenUp)
  | deleteFailed failure =>
    refine iff_of_true (fun event isEvent => ?_) fun row _ handed => absurd handed List.not_mem_nil
    rcases accounted event isEvent with acknowledged | ⟨row, isRow, same⟩ | ⟨dropped, enough⟩
    · exact .inl acknowledged
    · by_cases own : row.id = failure.queueId
      · refine .inr (.inr ⟨List.mem_append_right _ (List.mem_map.mpr ⟨row, ?_, same⟩), ?_⟩)
        · exact List.mem_filter.mpr ⟨isRow, decide_eq_true own⟩
        · have spent := (sound.spent failure (pending ▸ List.mem_cons_self)).1
          rw [← own, ← (sound.own row isRow).1, same] at spent
          exact spent
      · exact .inr (.inl ⟨row, List.mem_filter.mpr ⟨isRow, decide_eq_true own⟩, same⟩)
    · exact .inr (.inr ⟨List.mem_append_left _ dropped, enough⟩)
  | updateFailed failure =>
    refine iff_of_true (fun event isEvent => ?_) fun row _ handed => absurd handed List.not_mem_nil
    rcases accounted event isEvent with acknowledged | ⟨row, isRow, same⟩ | givenUp
    · exact .inl acknowledged
    · exact .inr (.inl ⟨_, List.mem_map_of_mem isRow, (failure.note_auditLogId state.clock row).trans same⟩)
    · exact .inr (.inr givenUp)

theorem accounted_next (sound : Sound config state) (accounted : Accounted config state) (step : AuditStep) :
    Accounted config (state.next config step) ↔ state.Awaits step := by
  cases step with
  | start | exportFailed | wait | crash => exact iff_of_true accounted trivial
  | exported count =>
    refine iff_of_true (fun event isEvent => ?_) trivial
    rcases accounted event isEvent with ⟨record, member, same⟩ | rest
    · exact .inl ⟨record, List.mem_append_left _ member, same⟩
    · exact .inr rest
  | writeAudit entry =>
    refine iff_of_true (fun event isEvent => ?_) trivial
    rcases List.mem_append.mp isEvent with before | new
    · rcases accounted event before with acknowledged | ⟨row, isRow, same⟩ | givenUp
      · exact .inl acknowledged
      · exact .inr (.inl ⟨row, List.mem_append_left _ isRow, same⟩)
      · exact .inr (.inr givenUp)
    · rw [List.mem_singleton.mp new]
      exact .inr (.inl ⟨_, List.mem_append_right _ List.mem_cons_self, rfl⟩)
  | drain emits =>
    refine iff_of_true ?_ trivial
    change Accounted config (state.drain config emits)
    unfold drain
    split
    · exact accounted
    · intro event isEvent
      rcases accounted event isEvent with acknowledged | queued | ⟨dropped, enough⟩
      · exact .inl acknowledged
      · exact .inr (.inl queued)
      · refine .inr (.inr ⟨dropped, enough.trans ?_⟩)
        unfold failed
        rw [List.filter_append, List.length_append]
        exact Nat.le_add_right _ _
  | statement fault =>
    unfold next Awaits
    dsimp only
    split
    · rename_i nothing
      refine iff_of_true accounted fun _ first isFirst => ?_
      rw [nothing] at isFirst
      cases isFirst
    · rename_i first rest pending
      have made := accounted_perform sound accounted pending
      rw [pending]
      split
      · refine Iff.trans made ⟨fun awaited _ other isFirst => ?_, fun each => each (.inl rfl) first rfl⟩
        cases isFirst
        exact awaited
      · exact iff_of_true accounted fun effect => absurd effect (by decide)
      · refine Iff.trans made ⟨fun awaited _ other isFirst => ?_, fun each => each (.inr rfl) first rfl⟩
        cases isFirst
        exact awaited
      · exact iff_of_true accounted fun effect => absurd effect (by decide)

end Steps

/-! ## Runs -/

section Runs
variable {config : AuditConfig} {clock : Int} {steps : List AuditStep}

theorem sound_initial (config : AuditConfig) (clock : Int) : Sound config (initial clock) :=
  ⟨rfl, fun _ member => absurd member List.not_mem_nil, List.nodup_nil, fun _ member => absurd member List.not_mem_nil,
    List.nodup_nil, fun _ member => absurd member List.not_mem_nil, fun _ member => absurd member List.not_mem_nil,
    fun _ member => absurd member List.not_mem_nil, fun _ member => absurd member List.not_mem_nil⟩

theorem sound_run (config : AuditConfig) (clock : Int) (steps : List AuditStep) :
    Sound config ((initial clock).run config steps) := by
  induction steps using List.reverseRecOn with
  | nil => exact sound_initial config clock
  | append_singleton steps step ih =>
    rw [run_concat]
    exact sound_next ih step

/-- While emitting does not throw no failure is counted, whatever the collector does. -/
theorem failures_run (buffers : Buffers steps) : ((initial clock).run config steps).failures = [] := by
  induction steps using List.reverseRecOn with
  | nil => rfl
  | append_singleton steps step ih =>
    rw [run_concat]
    have before := ih fun emits member => buffers emits (List.mem_append_left _ member)
    cases step with
    | start | writeAudit | exported | exportFailed | crash | wait => exact before
    | drain emits =>
      have emitted : ∀ row, Emitted emits row = true := fun row =>
        buffers emits (List.mem_append_right _ List.mem_cons_self) row.2.record
      change (AuditExport.drain config emits ((initial clock).run config steps)).failures = []
      unfold drain
      split
      · exact before
      · simp [before, emitted]
    | statement fault =>
      unfold next
      dsimp only
      split
      · exact before
      · rename_i first rest pending
        have same : (AuditExport.perform ((initial clock).run config steps) first).failures = [] := by
          cases first <;> exact before
        split
        · exact same
        · exact before
        · exact same
        · exact before

/-- Nothing is given up before emitting it failed. -/
theorem unfailed_queued (sound : Sound config ((initial clock).run config steps)) (buffers : Buffers steps)
    (accounted : Accounted config ((initial clock).run config steps)) :
    ∀ row ∈ ((initial clock).run config steps).log,
      ((initial clock).run config steps).Acknowledged row.id ∨ ((initial clock).run config steps).Queued row.id := by
  intro row member
  rcases accounted row member with acknowledged | queued | ⟨dropped, -⟩
  · exact .inl acknowledged
  · exact .inr queued
  · obtain ⟨-, -, -, positive⟩ := sound.gone row.id dropped
    rw [failed, failures_run buffers] at positive
    exact absurd positive (lt_irrefl 0)

/-- **Every audit event is at every time acknowledged, queued, or given up after the configured number of
failures**, and acknowledged or queued if emitting never throws, exactly in the runs in which the collector has
acknowledged the rows that a drain takes off the queue when it takes them off. -/
theorem accounted_iff_awaits (config : AuditConfig) (clock : Int) (steps : List AuditStep) :
    (∀ earlier, earlier <+: steps → Accounted config ((initial clock).run config earlier) ∧ (Buffers earlier →
      ∀ row ∈ ((initial clock).run config earlier).log, ((initial clock).run config earlier).Acknowledged row.id ∨
        ((initial clock).run config earlier).Queued row.id)) ↔
      AtEach (fun earlier step => ((initial clock).run config earlier).Awaits step) steps := by
  have always : (∀ earlier, earlier <+: steps → Accounted config ((initial clock).run config earlier)) ↔
      AtEach (fun earlier step => ((initial clock).run config earlier).Awaits step) steps := by
    induction steps using List.reverseRecOn with
    | nil =>
      refine iff_of_true (fun earlier isFirst => ?_) atEach_nil
      rw [List.prefix_nil.mp isFirst]
      exact fun row member => absurd member List.not_mem_nil
    | append_singleton steps step ih =>
      rw [atEach_concat, ← ih]
      constructor
      · intro each
        have before : ∀ earlier, earlier <+: steps → Accounted config ((initial clock).run config earlier) :=
          fun earlier isEarlier => each earlier (isEarlier.trans (List.prefix_append steps [step]))
        have last := each (steps ++ [step]) List.prefix_rfl
        rw [run_concat] at last
        exact ⟨before, (accounted_next (sound_run config clock steps) (before steps List.prefix_rfl) step).mp last⟩
      · rintro ⟨before, awaits⟩ earlier isEarlier
        rcases List.prefix_concat_iff.mp isEarlier with rfl | isBefore
        · rw [run_concat]
          exact (accounted_next (sound_run config clock steps) (before steps List.prefix_rfl) step).mpr awaits
        · exact before earlier isBefore
  rw [← always]
  constructor
  · exact fun each earlier isEarlier => (each earlier isEarlier).1
  · intro each earlier isEarlier
    have accounted := each earlier isEarlier
    exact ⟨accounted, fun buffers => unfailed_queued (sound_run config clock earlier) buffers accounted⟩

end Runs

/-! ## A sample -/

def auditConfig : AuditConfig := ⟨true, some (js "http://otel-collector:4318/v1/logs"), 200, 10⟩

/-- A failed sign-in. -/
def signIn : AuditEntry := ⟨.user, js "sam", js "auth.login.failed", none, none, some (js "10.0.0.7")⟩

def buffering : LogRecord → Except JsString Unit := fun _ => .ok ()

/-- The collector is down when the batch is exported. -/
def outage : List AuditStep := [.start, .writeAudit signIn, .drain buffering, .statement none, .exportFailed 1]

/-- **Counterexample.** An outage of the collector leaves an event neither acknowledged nor queued nor buffered,
and nothing was given up. -/
theorem outage_loses :
    ((initial 0).run auditConfig outage).log.map (·.id) = [0] ∧ ((initial 0).run auditConfig outage).queue = [] ∧
      ((initial 0).run auditConfig outage).buffer = [] ∧ ((initial 0).run auditConfig outage).acknowledged = [] ∧
        ((initial 0).run auditConfig outage).dropped = [] ∧
          ¬ Accounted auditConfig ((initial 0).run auditConfig outage) := by
  have queue : ((initial 0).run auditConfig outage).queue = [] := by decide +kernel
  have acknowledged : ((initial 0).run auditConfig outage).acknowledged = [] := by decide +kernel
  have dropped : ((initial 0).run auditConfig outage).dropped = [] := by decide +kernel
  refine ⟨by decide +kernel, queue, by decide +kernel, acknowledged, dropped, fun accounted => ?_⟩
  rcases accounted ⟨signIn, 0, 0⟩ List.mem_cons_self with ⟨record, member, -⟩ | ⟨row, member, -⟩ | ⟨member, -⟩
  · rw [acknowledged] at member
    cases member
  · rw [queue] at member
    cases member
  · rw [dropped] at member
    cases member

end AuditExport

end RemoteSqlAgent
