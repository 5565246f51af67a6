import RemoteSqlAgent.MonitorRules

/-! When an attribution is forgotten. Only `set` removes entries that are too old, so what `get`
finds may be older than the time to live. It is not where every entry is swept in time. -/
namespace RemoteSqlAgent
open Js CallProgram

/-! ## The map -/

/-- What is called on a map. -/
inductive AttributionCall where
  | set (jobUuid commandId : JsString)
  | get (jobUuid : JsString)
  | delete (jobUuid : JsString)
  deriving DecidableEq

namespace AttributionCall

/-- The call sets or deletes the entry of a job. -/
def Touches (jobUuid : JsString) : AttributionCall → Prop
  | set other _ => other = jobUuid
  | get _ => False
  | delete other => other = jobUuid

def IsSet : AttributionCall → Prop
  | set _ _ => True
  | _ => False

end AttributionCall

/-- A call, and when it is made. -/
structure AttributionAt where
  now : Int
  call : AttributionCall
  deriving DecidableEq

namespace PendingAttributionMap

/-- `#sweep`, with any time to live. -/
def sweepFor (ttlMs : Int) (entries : PendingAttributionMap) (now : Int) : PendingAttributionMap :=
  entries.filter fun entry => entry.2.setAt > now - ttlMs

def afterCall (ttlMs : Int) (entries : PendingAttributionMap) (timed : AttributionAt) : PendingAttributionMap :=
  match timed.call with
  | .set jobUuid commandId =>
    JsMap.set (sweepFor ttlMs entries timed.now) jobUuid { commandId := commandId, setAt := timed.now }
  | .get _ => entries
  | .delete jobUuid => JsMap.delete entries jobUuid

/-- A map after some calls. -/
def afterCalls (ttlMs : Int) (calls : List AttributionAt) : PendingAttributionMap := calls.foldl (afterCall ttlMs) []

end PendingAttributionMap

open PendingAttributionMap

/-- No `get` finds an entry that was set longer ago than the time to live. -/
def NeverStale (ttlMs : Int) (calls : List AttributionAt) : Prop :=
  AtEach (fun earlier timed => ∀ jobUuid, timed.call = .get jobUuid →
    ∀ entry ∈ JsMap.get (afterCalls ttlMs earlier) jobUuid, timed.now ≤ entry.setAt + ttlMs) calls

/-- Between a `set` and a later `get` of its job that finds it too old, there is a call that removes
it: one for the job, or a `set` for any job once the time to live is over. -/
def SweptInTime (ttlMs : Int) (calls : List AttributionAt) : Prop :=
  AtEach (fun earlier timed => ∀ jobUuid, timed.call = .get jobUuid →
    ∀ before setAt commandId between, earlier = before ++ ⟨setAt, .set jobUuid commandId⟩ :: between →
      (∃ other ∈ between, other.call.Touches jobUuid) ∨ timed.now ≤ setAt + ttlMs ∨
        ∃ other ∈ between, other.call.IsSet ∧ setAt + ttlMs ≤ other.now) calls

section Map
variable {ttlMs : Int} {entries : PendingAttributionMap} {jobUuid : JsString} {entry : PendingAttribution}

theorem keys_sweepFor {now : Int} : (sweepFor ttlMs entries now).keys.Sublist entries.keys :=
  List.filter_sublist.map _

theorem get_sweepFor (distinct : entries.keys.Nodup) {now : Int} :
    JsMap.get (sweepFor ttlMs entries now) jobUuid = some entry ↔
      JsMap.get entries jobUuid = some entry ∧ now < entry.setAt + ttlMs := by
  have left : (sweepFor ttlMs entries now).keys.Nodup := distinct.sublist keys_sweepFor
  rw [JsMap.get, property_eq_some left, JsMap.get, property_eq_some distinct, sweepFor, List.mem_filter,
    decide_eq_true_eq]
  have young : entry.setAt > now - ttlMs ↔ now < entry.setAt + ttlMs := by omega
  exact and_congr_right fun _ => young

/-- One call: the entry is the one it sets, or was there and is left. -/
theorem get_afterCall (distinct : entries.keys.Nodup) (timed : AttributionAt) :
    JsMap.get (afterCall ttlMs entries timed) jobUuid = some entry ↔
      timed = ⟨entry.setAt, .set jobUuid entry.commandId⟩ ∨
        (JsMap.get entries jobUuid = some entry ∧ ¬ timed.call.Touches jobUuid ∧
          (timed.call.IsSet → timed.now < entry.setAt + ttlMs)) := by
  obtain ⟨now, call⟩ := timed
  cases call with
  | get other => simp [afterCall, AttributionCall.Touches, AttributionCall.IsSet]
  | delete other =>
    by_cases same : other = jobUuid
    · simp [afterCall, AttributionCall.Touches, same]
    · simp [afterCall, AttributionCall.Touches, AttributionCall.IsSet, same]
  | set other commandId =>
    simp only [afterCall, JsMap.get_set, AttributionCall.Touches, AttributionCall.IsSet, true_implies]
    by_cases same : other = jobUuid
    · obtain ⟨command, setAt⟩ := entry
      simp [same, and_comm]
    · rw [if_neg same, get_sweepFor distinct]
      simp [same]

theorem nodup_afterCall (distinct : entries.keys.Nodup) (timed : AttributionAt) :
    (afterCall ttlMs entries timed).keys.Nodup := by
  unfold afterCall
  split
  · exact JsMap.nodup_set (distinct.sublist keys_sweepFor) _ _
  · exact distinct
  · exact JsMap.nodup_delete distinct _

theorem afterCalls_concat (calls : List AttributionAt) (timed : AttributionAt) :
    afterCalls ttlMs (calls ++ [timed]) = afterCall ttlMs (afterCalls ttlMs calls) timed := by
  rw [afterCalls, List.foldl_append]
  rfl

theorem nodup_afterCalls (calls : List AttributionAt) : (afterCalls ttlMs calls).keys.Nodup := by
  induction calls using List.reverseRecOn with
  | nil => exact List.nodup_nil
  | append_singleton earlier last ih =>
    rw [afterCalls_concat]
    exact nodup_afterCall ih last

/-- **Where an entry comes from.** It is in a map just if it was set, and since then no call was for
its job and no `set` found it too old. -/
theorem get_afterCalls (calls : List AttributionAt) :
    JsMap.get (afterCalls ttlMs calls) jobUuid = some entry ↔ ∃ before between,
      calls = before ++ ⟨entry.setAt, .set jobUuid entry.commandId⟩ :: between ∧
        ∀ other ∈ between, ¬ other.call.Touches jobUuid ∧ (other.call.IsSet → other.now < entry.setAt + ttlMs) := by
  induction calls using List.reverseRecOn with
  | nil => simp [afterCalls]
  | append_singleton earlier last ih =>
    rw [afterCalls_concat, get_afterCall (nodup_afterCalls earlier), ih]
    constructor
    · rintro (rfl | ⟨⟨before, between, rfl, kept⟩, left⟩)
      · exact ⟨earlier, [], rfl, by simp⟩
      · refine ⟨before, between ++ [last], by simp, fun other member => ?_⟩
        rcases List.mem_append.mp member with inside | here
        · exact kept other inside
        · rw [List.mem_singleton.mp here]
          exact left
    · rintro ⟨before, between, whole, kept⟩
      rcases List.eq_nil_or_concat' between with rfl | ⟨inside, tip, rfl⟩
      · exact .inl (List.head_eq_of_cons_eq (List.append_inj' whole rfl).2)
      · rw [← List.cons_append, ← List.append_assoc] at whole
        obtain ⟨rfl, same⟩ := List.append_inj' whole rfl
        obtain rfl := List.head_eq_of_cons_eq same
        exact .inr ⟨⟨before, inside, rfl, fun other member => kept other (List.mem_append_left _ member)⟩,
          kept last (List.mem_append_right _ List.mem_cons_self)⟩

/-- One more call. -/
theorem neverStale_concat (calls : List AttributionAt) (timed : AttributionAt) :
    NeverStale ttlMs (calls ++ [timed]) ↔ NeverStale ttlMs calls ∧ ∀ jobUuid, timed.call = .get jobUuid →
      ∀ entry ∈ JsMap.get (afterCalls ttlMs calls) jobUuid, timed.now ≤ entry.setAt + ttlMs := atEach_concat

/-- No stale entry is found where every entry is swept in time, and only there. -/
theorem neverStale_iff (calls : List AttributionAt) : NeverStale ttlMs calls ↔ SweptInTime ttlMs calls := by
  unfold NeverStale SweptInTime
  constructor
  · intro fresh earlier timed later whole jobUuid lookup before setAt commandId between split
    by_contra stale
    simp only [not_or, not_exists, not_and, not_le] at stale
    obtain ⟨untouched, old, unswept⟩ := stale
    have found : JsMap.get (afterCalls ttlMs earlier) jobUuid = some ⟨commandId, setAt⟩ :=
      (get_afterCalls earlier).mpr ⟨before, between, split, fun other member =>
        ⟨untouched other member, unswept other member⟩⟩
    have young := fresh earlier timed later whole jobUuid lookup _ found
    exact absurd young (not_le.mpr old)
  · intro swept earlier timed later whole jobUuid lookup entry found
    obtain ⟨before, between, split, kept⟩ := (get_afterCalls earlier).mp found
    rcases swept earlier timed later whole jobUuid lookup before _ _ between split with
      ⟨other, member, touches⟩ | young | ⟨other, member, sets, late⟩
    · exact absurd touches (kept other member).1
    · exact young
    · exact absurd ((kept other member).2 sets) (not_lt.mpr late)

end Map

/-! ## The monitor -/

/-- What happens to the attributions of a monitor: a command is noted, or a poll comes to a job. -/
inductive AttributionEvent where
  | noted (jobUuid commandId : JsString)
  | polled (accepts : HubMessage → Bool) (job : MsdbJob)

structure AttributionEventAt where
  now : Int
  event : AttributionEvent

section Monitor
variable (runtime : Runtime)

/-- The poll has a definition of the job that it did not report. -/
def InstanceMonitor.FindsChange (monitor : InstanceMonitor) (job : MsdbJob) (blob : JobDefinitionBlob) : Prop :=
  toBlob runtime job.toJobRecord = .ok blob ∧ monitor.definitionHashes.get job.jobUuid ≠ some blob.definitionHash

def Reporting.react (reporting : Reporting) (timed : AttributionEventAt) : Reporting :=
  match timed.event with
  | .noted jobUuid commandId =>
    { reporting with monitor := reporting.monitor.noteAppliedCommand jobUuid commandId timed.now }
  | .polled accepts job =>
    match toBlob runtime job.toJobRecord with
    | .error _ => reporting
    | .ok blob => pollJob accepts reporting job blob

/-- The calls on the map that this comes to. -/
def Reporting.callsFor (reporting : Reporting) : AttributionEvent → List AttributionCall
  | .noted jobUuid commandId => [.set (toLowerCase jobUuid) commandId]
  | .polled accepts job =>
    match toBlob runtime job.toJobRecord with
    | .error _ => []
    | .ok blob =>
      if reporting.monitor.definitionHashes.get job.jobUuid = some blob.definitionHash then []
      else if accepts (reporting.monitor.delta blob) then [.get job.jobUuid, .delete job.jobUuid]
      else [.get job.jobUuid]

/-- The monitor after some events, and the calls on its map. -/
def Reporting.attribute (reporting : Reporting) (events : List AttributionEventAt) : Reporting × List AttributionAt :=
  events.foldl (fun reached timed =>
    (reached.1.react runtime timed, reached.2 ++ (reached.1.callsFor runtime timed.event).map (⟨timed.now, ·⟩)))
    (reporting, [])

/-- No change that a poll finds is attributed to a command that was noted longer ago than the time
to live. -/
def Reporting.AttributesFresh (reporting : Reporting) (events : List AttributionEventAt) : Prop :=
  AtEach (fun earlier timed => ∀ accepts job blob, timed.event = .polled accepts job →
    (reporting.attribute runtime earlier).1.monitor.FindsChange runtime job blob →
    ∀ entry ∈ JsMap.get (reporting.attribute runtime earlier).1.monitor.pendingAttribution job.jobUuid,
      timed.now ≤ entry.setAt + PENDING_ATTRIBUTION_TTL_MS) events

variable {runtime} {reporting : Reporting}

theorem attribute_concat (events : List AttributionEventAt) (timed : AttributionEventAt) :
    reporting.attribute runtime (events ++ [timed]) =
      ((reporting.attribute runtime events).1.react runtime timed, (reporting.attribute runtime events).2 ++
        ((reporting.attribute runtime events).1.callsFor runtime timed.event).map (⟨timed.now, ·⟩)) := by
  rw [Reporting.attribute, List.foldl_append]
  rfl

/-- An event does to the map what its calls do. -/
theorem react_pendingAttribution (timed : AttributionEventAt) :
    (reporting.react runtime timed).monitor.pendingAttribution =
      ((reporting.callsFor runtime timed.event).map (⟨timed.now, ·⟩)).foldl (afterCall PENDING_ATTRIBUTION_TTL_MS)
        reporting.monitor.pendingAttribution := by
  obtain ⟨now, event⟩ := timed
  cases event with
  | noted jobUuid commandId => rfl
  | polled accepts job =>
    cases made : toBlob runtime job.toJobRecord with
    | error message => simp [Reporting.react, Reporting.callsFor, made]
    | ok blob =>
      simp only [Reporting.react, Reporting.callsFor, made, pollJob]
      by_cases reported : reporting.monitor.definitionHashes.get job.jobUuid = some blob.definitionHash
      · simp [reported]
      · by_cases accepted : accepts (reporting.monitor.delta blob) = true
        · simp [reported, accepted, afterCall, Reporting.emit]
        · simp [reported, accepted, afterCall, Reporting.emit]

theorem attribute_pendingAttribution (empty : reporting.monitor.pendingAttribution = [])
    (events : List AttributionEventAt) :
    (reporting.attribute runtime events).1.monitor.pendingAttribution =
      afterCalls PENDING_ATTRIBUTION_TTL_MS (reporting.attribute runtime events).2 := by
  induction events using List.reverseRecOn with
  | nil => exact empty
  | append_singleton earlier last ih =>
    rw [attribute_concat, react_pendingAttribution, ih, afterCalls, afterCalls, List.foldl_append]

/-- The calls of a poll find a stale entry just if it finds a change to the job. -/
private theorem neverStale_polled (reached : Reporting) (calls : List AttributionAt) (now : Int)
    (accepts : HubMessage → Bool) (job : MsdbJob) :
    NeverStale PENDING_ATTRIBUTION_TTL_MS
        (calls ++ (reached.callsFor runtime (.polled accepts job)).map (AttributionAt.mk now)) ↔
      NeverStale PENDING_ATTRIBUTION_TTL_MS calls ∧ ∀ blob, reached.monitor.FindsChange runtime job blob →
        ∀ entry ∈ JsMap.get (afterCalls PENDING_ATTRIBUTION_TTL_MS calls) job.jobUuid,
          now ≤ entry.setAt + PENDING_ATTRIBUTION_TTL_MS := by
  cases made : toBlob runtime job.toJobRecord with
  | error message => simp [Reporting.callsFor, made, InstanceMonitor.FindsChange]
  | ok blob =>
    by_cases reported : reached.monitor.definitionHashes.get job.jobUuid = some blob.definitionHash
    · simp [Reporting.callsFor, made, InstanceMonitor.FindsChange, reported]
    · have lookup : NeverStale PENDING_ATTRIBUTION_TTL_MS (calls ++ [⟨now, .get job.jobUuid⟩]) ↔
          NeverStale PENDING_ATTRIBUTION_TTL_MS calls ∧ ∀ blob, reached.monitor.FindsChange runtime job blob →
            ∀ entry ∈ JsMap.get (afterCalls PENDING_ATTRIBUTION_TTL_MS calls) job.jobUuid,
              now ≤ entry.setAt + PENDING_ATTRIBUTION_TTL_MS := by
        simp [neverStale_concat, InstanceMonitor.FindsChange, made, reported]
      rw [← lookup]
      by_cases accepted : accepts (reached.monitor.delta blob) = true
      · have forgotten := @neverStale_concat PENDING_ATTRIBUTION_TTL_MS (calls ++ [⟨now, .get job.jobUuid⟩])
          ⟨now, .delete job.jobUuid⟩
        have made_ : (reached.callsFor runtime (.polled accepts job)).map (AttributionAt.mk now) =
            [⟨now, .get job.jobUuid⟩, ⟨now, .delete job.jobUuid⟩] := by
          simp [Reporting.callsFor, made, reported, accepted]
        rw [List.append_assoc] at forgotten
        rw [made_]
        refine forgotten.trans (and_iff_left ?_)
        intro jobUuid lookup
        cases lookup
      · simp [Reporting.callsFor, made, reported, accepted]

/-- Polls find what the calls find. -/
theorem attributesFresh_iff (empty : reporting.monitor.pendingAttribution = []) (events : List AttributionEventAt) :
    reporting.AttributesFresh runtime events ↔
      NeverStale PENDING_ATTRIBUTION_TTL_MS (reporting.attribute runtime events).2 := by
  induction events using List.reverseRecOn with
  | nil => exact iff_of_true atEach_nil atEach_nil
  | append_singleton earlier last ih =>
    have same := @attribute_pendingAttribution runtime reporting empty earlier
    rw [Reporting.AttributesFresh, atEach_concat, ← Reporting.AttributesFresh, ih, attribute_concat, same]
    generalize reporting.attribute runtime earlier = reached
    obtain ⟨now, event⟩ := last
    cases event with
    | noted jobUuid commandId =>
      rw [Reporting.callsFor, List.map_singleton, neverStale_concat]
      refine and_congr_right fun _ => iff_of_true ?_ ?_
      · intro accepts job blob polled
        cases polled
      · intro jobUuid lookup
        cases lookup
    | polled accepts job =>
      refine Iff.trans (and_congr_right fun _ => ?_) (neverStale_polled reached.1 reached.2 now accepts job).symm
      constructor
      · intro all blob
        exact all accepts job blob rfl
      · intro all _ _ blob same
        cases same
        exact all blob

/-- A change is attributed to the command of the entry that the poll finds. -/
theorem delta_appliedCommandId {job : MsdbJob} {blob : JobDefinitionBlob}
    (change : reporting.monitor.FindsChange runtime job blob) :
    reporting.monitor.delta blob = .definition {
      instanceName := reporting.monitor.instanceName
      job := some blob
      deleted := false
      appliedCommandId :=
        ((JsMap.get reporting.monitor.pendingAttribution job.jobUuid).map (·.commandId)).getD [] } := by
  rw [InstanceMonitor.delta, toBlob_jobUuid change.1]
  rfl

end Monitor

/-- **When stale attributions are used.** In any sequence of calls, no `get` finds an entry that was
set longer ago than the time to live just if every such entry was removed before: by a call for its
job, or by a `set` once its time was over. So with the polls of a monitor, whose changes are
attributed to stale commands where the calls that they make are not swept in time. -/
theorem attribution_fresh_iff (ttlMs : Int) (calls : List AttributionAt) (runtime : Runtime) (reporting : Reporting)
    (events : List AttributionEventAt) :
    (NeverStale ttlMs calls ↔ SweptInTime ttlMs calls) ∧
      (reporting.monitor.pendingAttribution = [] →
        (reporting.AttributesFresh runtime events ↔
          SweptInTime PENDING_ATTRIBUTION_TTL_MS (reporting.attribute runtime events).2)) :=
  ⟨neverStale_iff calls, fun empty => (attributesFresh_iff empty events).trans (neverStale_iff _)⟩

/-- A monitor that has reported nothing. -/
def newReporting : Reporting where
  monitor := { instanceName := js "i1", definitionHashes := [], lastFingerprint := none, pendingAttribution := [] }
  sent := []
  refusals := 0

/-- An edit that nobody noted, long after a command that changed nothing. -/
def laterEdit : JobDefinitionBlob where
  jobUuid := js "a1"
  canonicalJson := js "b"
  definitionHash := js "b"
  dateModified := toTimestamp 0

theorem attribution_fresh_iff_noted :
    newReporting.AttributesFresh mirrorRuntime [⟨0, .noted (js "A1") (js "c1")⟩] ↔
      SweptInTime PENDING_ATTRIBUTION_TTL_MS [⟨0, .set (js "a1") (js "c1")⟩] :=
  (attribution_fresh_iff 0 [] mirrorRuntime newReporting [⟨0, .noted (js "A1") (js "c1")⟩]).2 rfl

theorem attribution_kept :
    let calls : List AttributionAt :=
      [⟨0, .set (js "a1") (js "c1")⟩, ⟨PENDING_ATTRIBUTION_TTL_MS + 1, .get (js "a1")⟩]
    calls.Pairwise (fun earlier later => earlier.now ≤ later.now) ∧
      (PendingAttributionMap.get (afterCalls PENDING_ATTRIBUTION_TTL_MS [⟨0, .set (js "a1") (js "c1")⟩]) (js "a1") =
        some (js "c1")) ∧
      (newReporting.monitor.noteAppliedCommand (js "a1") (js "c1") 0).delta laterEdit = .definition {
        instanceName := js "i1"
        job := some laterEdit
        deleted := false
        appliedCommandId := js "c1" } ∧
      ¬ ∀ ttlMs calls, calls.Pairwise (fun earlier later => earlier.now ≤ later.now) → NeverStale ttlMs calls := by
  refine ⟨by decide, by decide, rfl, fun always => ?_⟩
  have fresh := always 1 [⟨0, .set [] []⟩, ⟨2, .get []⟩] (by decide) [⟨0, .set [] []⟩] ⟨2, .get []⟩ [] rfl [] rfl
    ⟨[], 0⟩ rfl
  exact absurd fresh (by decide)

end RemoteSqlAgent
