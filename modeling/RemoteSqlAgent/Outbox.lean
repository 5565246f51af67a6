import RemoteSqlAgent.JsText
import Mathlib.Data.List.Nodup

/-! The idempotency records of a worker: what came of each command the first
time it was applied. Records go once no signature they guard can still be in
the replay window. -/
namespace RemoteSqlAgent
open Js

def APPLIED_COMMAND_RETENTION_MS : Int := 24 * 60 * 60 * 1000

def APPLIED_COMMAND_PRUNE_INTERVAL_MS : Int := 60 * 60 * 1000

/-- A row of `applied_commands`. -/
structure AppliedCommand where
  command_id : JsString
  applied_at : Int
  success : Bool
  result : Option JsString
  deriving DecidableEq

/-- The table, whose primary key is the command id, and when it was last pruned
by this process. -/
structure Outbox where
  appliedCommands : List AppliedCommand
  primaryKey : (appliedCommands.map (·.command_id)).Nodup
  lastAppliedCommandPruneAt : Int

namespace Outbox

/-- A database that was just created. -/
def empty : Outbox where
  appliedCommands := []
  primaryKey := List.nodup_nil
  lastAppliedCommandPruneAt := 0

/-- What happened the first time this command was applied, if it was. -/
def appliedCommandOutcome (outbox : Outbox) (commandId : JsString) : Option (Bool × Option JsString) :=
  (outbox.appliedCommands.find? (·.command_id = commandId)).map fun row => (row.success, row.result)

/-- `INSERT ... ON CONFLICT (command_id) DO NOTHING`. -/
def recordAppliedCommand (outbox : Outbox) (commandId : JsString) (success : Bool)
    (result : Option JsString) (now : Int) : Outbox :=
  if present : commandId ∈ outbox.appliedCommands.map (·.command_id) then outbox
  else { outbox with
    appliedCommands := outbox.appliedCommands ++ [{
      command_id := commandId
      applied_at := now
      success := success
      result := result }]
    primaryKey := by
      rw [List.map_append]
      refine List.Nodup.append outbox.primaryKey (List.nodup_singleton _) ?_
      exact List.disjoint_singleton.mpr present }

/-- Drop records older than `maxAgeMs`, by default the retention, at most once an
hour. -/
def pruneAppliedCommands (outbox : Outbox) (now maxAgeMs : Int) : Outbox :=
  if now - outbox.lastAppliedCommandPruneAt < APPLIED_COMMAND_PRUNE_INTERVAL_MS then outbox
  else {
    appliedCommands := outbox.appliedCommands.filter fun row => !decide (row.applied_at < now - maxAgeMs)
    primaryKey := outbox.primaryKey.sublist (List.filter_sublist.map _)
    lastAppliedCommandPruneAt := now }

/-- What the heartbeats at these times leave. -/
def afterHeartbeats (outbox : Outbox) (times : List Int) : Outbox :=
  times.foldl (fun outbox now => outbox.pruneAppliedCommands now APPLIED_COMMAND_RETENTION_MS) outbox

/-- Open the database again, as a new process does. -/
def reopen (outbox : Outbox) : Outbox := { outbox with lastAppliedCommandPruneAt := 0 }

variable {outbox : Outbox}

theorem appliedCommandOutcome_eq_none {commandId : JsString} :
    outbox.appliedCommandOutcome commandId = none ↔
      commandId ∉ outbox.appliedCommands.map (·.command_id) := by
  simp only [appliedCommandOutcome, Option.map_eq_none_iff, List.find?_eq_none, decide_eq_true_eq,
    List.mem_map, not_exists, not_and]

/-- Where a key occurs once, a lookup finds its row. -/
theorem appliedCommandOutcome_of_mem {row : AppliedCommand} (member : row ∈ outbox.appliedCommands) :
    outbox.appliedCommandOutcome row.command_id = some (row.success, row.result) := by
  cases found : outbox.appliedCommands.find? (·.command_id = row.command_id) with
  | none =>
    have missing := List.find?_eq_none.mp found row member
    simp only [decide_true, not_true_eq_false] at missing
  | some other =>
    have named : other.command_id = row.command_id := by simpa using List.find?_some found
    have same : other = row :=
      List.inj_on_of_nodup_map outbox.primaryKey (List.mem_of_find?_eq_some found) member named
    rw [appliedCommandOutcome, found, same]
    rfl

/-- A new record is the only change to the table. -/
theorem mem_recordAppliedCommand {commandId : JsString} {success : Bool} {result : Option JsString}
    {now : Int} (fresh : outbox.appliedCommandOutcome commandId = none) {row : AppliedCommand} :
    row ∈ (outbox.recordAppliedCommand commandId success result now).appliedCommands ↔
      row ∈ outbox.appliedCommands ∨ row = ⟨commandId, now, success, result⟩ := by
  rw [recordAppliedCommand, dif_neg (appliedCommandOutcome_eq_none.mp fresh)]
  simp only [List.mem_append, List.mem_singleton]

theorem appliedCommandOutcome_record {commandId : JsString} {success : Bool} {result : Option JsString}
    {now : Int} (fresh : outbox.appliedCommandOutcome commandId = none) :
    (outbox.recordAppliedCommand commandId success result now).appliedCommandOutcome commandId =
      some (success, result) := by
  have member : ⟨commandId, now, success, result⟩ ∈
      (outbox.recordAppliedCommand commandId success result now).appliedCommands :=
    (mem_recordAppliedCommand fresh).mpr (.inr rfl)
  exact appliedCommandOutcome_of_mem member

/-- Pruning keeps every record young enough, and adds none. -/
theorem mem_pruneAppliedCommands {now maxAgeMs : Int} {row : AppliedCommand}
    (member : row ∈ outbox.appliedCommands) (young : now - maxAgeMs ≤ row.applied_at) :
    row ∈ (outbox.pruneAppliedCommands now maxAgeMs).appliedCommands := by
  unfold pruneAppliedCommands
  split
  · exact member
  · refine List.mem_filter.mpr ⟨member, ?_⟩
    rw [decide_eq_false (by omega)]
    rfl

theorem pruneAppliedCommands_subset {now maxAgeMs : Int} :
    (outbox.pruneAppliedCommands now maxAgeMs).appliedCommands ⊆ outbox.appliedCommands := by
  unfold pruneAppliedCommands
  split
  · exact fun _ member => member
  · exact fun _ member => List.mem_of_mem_filter member

theorem afterHeartbeats_subset {times : List Int} :
    (outbox.afterHeartbeats times).appliedCommands ⊆ outbox.appliedCommands := by
  induction times generalizing outbox with
  | nil => exact fun _ member => member
  | cons now later ih => exact fun _ member => pruneAppliedCommands_subset (ih member)

/-- Heartbeats make no record. -/
theorem appliedCommandOutcome_afterHeartbeats {commandId : JsString} {times : List Int}
    (fresh : outbox.appliedCommandOutcome commandId = none) :
    (outbox.afterHeartbeats times).appliedCommandOutcome commandId = none := by
  rw [appliedCommandOutcome_eq_none] at fresh ⊢
  exact fun member => fresh (List.map_subset _ afterHeartbeats_subset member)

end Outbox

end RemoteSqlAgent
