import RemoteSqlAgent.SnapshotAssembly
import Mathlib.Data.List.TakeWhile

/-! When a snapshot is committed from all of its chunks. What is gathered under
its key is followed over a whole session: chunks of the snapshot add to it,
sweeps can drop it, nothing else touches it. -/
namespace RemoteSqlAgent
open Js CallProgram

private theorem takeWhile_key (instanceName : JsString) (snapshotId : SnapshotId) :
    (instanceName ++ js ":" ++ snapshotId.text).reverse.takeWhile (fun unit => unit ≠ 0x3A) =
      snapshotId.text.reverse := by
  have plain : ∀ unit ∈ snapshotId.text.reverse, decide (unit ≠ (0x3A : CodeUnit)) = true := by
    intro unit member
    simp only [decide_eq_true_eq]
    rintro rfl
    exact snapshotId.noColon (List.mem_reverse.mp member)
  have colon : (js ":").reverse = [(0x3A : CodeUnit)] := by decide
  rw [List.reverse_append, List.reverse_append, List.takeWhile_append_of_pos plain, colon]
  simp

/-- The key tells snapshots apart. -/
theorem snapshot_key_inj {s t : Snapshot} :
    s.key = t.key ↔ s.instanceName = t.instanceName ∧ s.snapshotId = t.snapshotId := by
  constructor
  · intro same
    unfold Snapshot.key at same
    have texts := congrArg (fun key => key.reverse.takeWhile fun unit => unit ≠ (0x3A : CodeUnit)) same
    simp only [takeWhile_key, List.reverse_inj] at texts
    have ids : s.snapshotId = t.snapshotId := by
      cases left : s.snapshotId
      cases right : t.snapshotId
      simp_all
    rw [ids] at same
    exact ⟨List.append_cancel_right (List.append_cancel_right same), ids⟩
  · rintro ⟨names, ids⟩
    rw [Snapshot.key, Snapshot.key, names, ids]

/-! ## Chunks -/

theorem slices_ne_nil (blobs : List JobDefinitionBlob) : slices blobs ≠ [] := by
  unfold slices
  dsimp only
  split
  · simp
  · rename_i some
    exact List.ne_nil_of_length_pos (Nat.pos_of_ne_zero some)

private theorem flatten_slices_from {α : Type} (size : Nat) (positive : 0 < size) :
    ∀ (count : Nat) (items : List α), items.length ≤ count * size →
      ((List.range count).map fun i => (items.drop (i * size)).take size).flatten = items
  | 0, items, short => by
    have : items = [] := List.length_eq_zero_iff.mp (by omega)
    simp [this]
  | count + 1, items, short => by
    have rest := flatten_slices_from size positive count (items.drop size) (by
      rw [List.length_drop]
      rw [Nat.add_mul] at short
      omega)
    rw [List.range_succ_eq_map, List.map_cons, List.map_map, List.flatten_cons]
    have shifted : (List.map ((fun i => (items.drop (i * size)).take size) ∘ Nat.succ) (List.range count)) =
        (List.range count).map fun i => ((items.drop size).drop (i * size)).take size := by
      refine List.map_congr_left fun i _ => ?_
      simp only [Function.comp, List.drop_drop, Nat.succ_eq_add_one, Nat.add_mul, Nat.one_mul, Nat.add_comm]
    rw [shifted, rest, Nat.zero_mul, List.drop_zero, List.take_append_drop]

theorem flatten_slices (blobs : List JobDefinitionBlob) : (slices blobs).flatten = blobs := by
  have whole := flatten_slices_from SNAPSHOT_CHUNK_SIZE (by decide)
    ((blobs.length + (SNAPSHOT_CHUNK_SIZE - 1)) / SNAPSHOT_CHUNK_SIZE) blobs (by
      simp only [SNAPSHOT_CHUNK_SIZE]
      omega)
  unfold slices
  dsimp only
  split
  · rename_i none
    rw [List.length_eq_zero_iff.mp none] at whole
    simpa using whole
  · exact whole

/-- Only the one slice of an empty snapshot is empty. -/
theorem slice_ne_nil (blobs : List JobDefinitionBlob) {chunk : List JobDefinitionBlob} (member : chunk ∈ slices blobs)
    (others : 1 < (slices blobs).length) : chunk ≠ [] := by
  unfold slices at member others
  dsimp only at member others
  split at member
  · rename_i none
    rw [if_pos none] at others
    simp at others
  · simp only [List.mem_map, List.mem_range] at member
    obtain ⟨i, small, rfl⟩ := member
    simp only [SNAPSHOT_CHUNK_SIZE] at small ⊢
    apply List.ne_nil_of_length_pos
    rw [List.length_take, List.length_drop]
    omega

/-- Chunks of one snapshot: each but the last says that more follow, and has
jobs; together they have the jobs of the snapshot. -/
structure ChunksOf (instanceName : JsString) (snapshotId : SnapshotId) (blobs : List JobDefinitionBlob)
    (initial : List Snapshot) (last : Snapshot) : Prop where
  named : ∀ chunk ∈ initial ++ [last], chunk.instanceName = instanceName ∧ chunk.snapshotId = snapshotId
  more : ∀ chunk ∈ initial, chunk.moreChunks = true ∧ chunk.jobs ≠ []
  final : last.moreChunks = false
  whole : (initial ++ [last]).flatMap Snapshot.jobs = blobs

theorem snapshotChunks_eq (instanceName : JsString) (snapshotId : SnapshotId) (blobs : List JobDefinitionBlob) :
    ∃ initial last, snapshotChunks instanceName snapshotId blobs = initial ++ [last] ∧
      ChunksOf instanceName snapshotId blobs initial last := by
  obtain ⟨front, tip, split⟩ := List.eq_nil_or_concat' (slices blobs) |>.resolve_left (slices_ne_nil blobs)
  have count : (slices blobs).length - 1 = front.length := by
    rw [split, List.length_append, List.length_singleton]
    omega
  refine ⟨_, _, by rw [snapshotChunks, count, split, List.mapIdx_concat], ?_, ?_, ?_, ?_⟩
  · intro chunk member
    rw [← List.mapIdx_concat] at member
    obtain ⟨index, small, rfl⟩ := List.mem_mapIdx.mp member
    exact ⟨rfl, rfl⟩
  · intro chunk member
    obtain ⟨index, small, rfl⟩ := List.mem_mapIdx.mp member
    refine ⟨decide_eq_true small, slice_ne_nil blobs ?_ ?_⟩
    · rw [split]
      exact List.mem_append_left _ (List.getElem_mem small)
    · rw [split, List.length_append, List.length_singleton]
      omega
  · simp
  · rw [← List.mapIdx_concat, ← split]
    conv => rhs; rw [← flatten_slices blobs]
    rw [List.flatMap_def, List.mapIdx_eq_zipIdx_map, List.map_map]
    congr 1
    exact List.zipIdx_map_fst 0 (slices blobs)

/-! ## What is gathered under a key -/

namespace SnapshotSession

/-- What is gathered once an event is taken in, before anything is committed. -/
def take (session : SnapshotSession) : Event → PendingSnapshots
  | .declared _ => session.pending
  | .chunk arrival =>
    if (session.instanceIds arrival.snapshot.instanceName).isSome then gatherChunk session.pending arrival
    else session.pending

/-- The reading of the clock by the sweep of an event, if there is one. -/
def sweptAt (session : SnapshotSession) : Event → Option Int
  | .declared _ => none
  | .chunk arrival =>
    if (session.instanceIds arrival.snapshot.instanceName).isSome then some arrival.sweptAt else none

/-- The jobs an event brings for the snapshot under a key. -/
def Event.jobsFor (key : JsString) : Event → List JobDefinitionBlob
  | .declared _ => []
  | .chunk arrival => if arrival.snapshot.key = key then arrival.snapshot.jobs else []

/-- The event does not end the snapshot under a key. -/
def Event.Leaves (key : JsString) : Event → Prop
  | .declared _ => True
  | .chunk arrival => arrival.snapshot.key = key → arrival.snapshot.moreChunks = true

def Abandoned (acc : PendingSnapshot) (now : Int) : Prop := acc.startedAt ≤ now - SNAPSHOT_ABANDON_MS

def heldJobs (acc : Option PendingSnapshot) : List JobDefinitionBlob := (acc.map (·.jobs)).getD []

variable {session : SnapshotSession} {key : JsString} {event : Event} {events : List Event} {acc : PendingSnapshot}

theorem sweeps_cons : session.sweeps (event :: events) =
    (session.sweptAt event).toList ++ (session.on event).1.sweeps events := by
  cases event with
  | declared ids => rfl
  | chunk arrival =>
    simp only [sweeps, sweptAt]
    split <;> rfl

@[simp] theorem after_nil : session.after [] = session := rfl

theorem after_cons : session.after (event :: events) = (session.on event).1.after events := rfl

theorem after_append (more : List Event) : session.after (events ++ more) = (session.after events).after more :=
  List.foldl_append

theorem on_chunk_undeclared {arrival : Arrival} (absent : session.instanceIds arrival.snapshot.instanceName = none) :
    session.on (.chunk arrival) = (session, none) := by
  simp only [on, absent]

theorem on_chunk_declared {arrival : Arrival} {instanceId : JsString}
    (declared : session.instanceIds arrival.snapshot.instanceName = some instanceId) :
    session.on (.chunk arrival) =
      ({ session with pending := (handleSnapshotChunk session.pending arrival).1 },
        (handleSnapshotChunk session.pending arrival).2.map fun acc : PendingSnapshot =>
          ⟨instanceId, arrival.snapshot, acc.jobs⟩) := by
  simp only [on, declared]

/-- Unless the snapshot ends, what is gathered stays. -/
theorem on_pending (leaves : event.Leaves key) : (session.on event).1.pending key = session.take event key := by
  cases event with
  | declared ids => rfl
  | chunk arrival =>
    cases declared : session.instanceIds arrival.snapshot.instanceName with
    | none => simp [on_chunk_undeclared declared, take, declared]
    | some instanceId =>
      simp only [on_chunk_declared declared, take, declared, Option.isSome_some, ↓reduceIte, handleSnapshotChunk]
      split
      · rfl
      · rename_i final
        have other : key ≠ arrival.snapshot.key := by
          rintro rfl
          exact final (leaves rfl)
        simp [other]

/-- What an event can do to a gathering that is not too old. -/
theorem take_alive (gathering : session.pending key = some acc)
    (alive : ∀ now ∈ session.sweptAt event, ¬ Abandoned acc now) :
    ∃ jobs, session.take event key = some { acc with jobs := acc.jobs ++ jobs } ∧
      ((∀ arrival, event = .chunk arrival → arrival.snapshot.key = key →
          (session.instanceIds arrival.snapshot.instanceName).isSome = true) → jobs = event.jobsFor key) := by
  cases event with
  | declared ids => exact ⟨[], by simp [take, gathering], fun _ => rfl⟩
  | chunk arrival =>
    by_cases declared : (session.instanceIds arrival.snapshot.instanceName).isSome = true
    · have young : acc.startedAt > arrival.sweptAt - SNAPSHOT_ABANDON_MS := by
        have kept := alive arrival.sweptAt (by simp [sweptAt, declared])
        unfold Abandoned at kept
        omega
      have swept : sweepAbandonedSnapshots session.pending arrival.sweptAt key = some acc := by
        simp [sweepAbandonedSnapshots, gathering, young]
      by_cases own : arrival.snapshot.key = key
      · subst own
        exact ⟨arrival.snapshot.jobs, by simp [take, declared, gatherChunk, swept], fun _ => by simp [Event.jobsFor]⟩
      · refine ⟨[], ?_, fun _ => by simp [Event.jobsFor, own]⟩
        simp [take, declared, gatherChunk, Ne.symm own, swept]
    · refine ⟨[], by simp [take, declared, gathering], fun each => ?_⟩
      by_cases own : arrival.snapshot.key = key
      · exact absurd (each arrival rfl own) declared
      · simp [Event.jobsFor, own]

private theorem length_sweep_le (pending : PendingSnapshots) (key : JsString) (now : Int) :
    (heldJobs (sweepAbandonedSnapshots pending now key)).length ≤ (heldJobs (pending key)).length := by
  unfold sweepAbandonedSnapshots
  cases pending key with
  | none => simp
  | some acc =>
    rw [Option.filter_some]
    split
    · exact Nat.le_refl _
    · exact Nat.zero_le _

/-- An event adds at most its own jobs. -/
theorem length_take_le (session : SnapshotSession) (key : JsString) (event : Event) :
    (heldJobs (session.take event key)).length ≤
    (heldJobs (session.pending key)).length + (event.jobsFor key).length := by
  cases event with
  | declared ids => simp [take, Event.jobsFor]
  | chunk arrival =>
    simp only [take]
    split
    · by_cases own : arrival.snapshot.key = key
      · subst own
        have swept := length_sweep_le session.pending arrival.snapshot.key arrival.sweptAt
        simp only [gatherChunk, Function.update_self, Event.jobsFor, ↓reduceIte, heldJobs, Option.map_some,
          Option.getD_some, List.length_append] at swept ⊢
        cases found : sweepAbandonedSnapshots session.pending arrival.sweptAt arrival.snapshot.key with
        | none => simp
        | some acc =>
          rw [found] at swept
          exact Nat.add_le_add_right swept _
      · simp only [gatherChunk, Function.update_of_ne (Ne.symm own), Event.jobsFor, own, ↓reduceIte]
        exact length_sweep_le session.pending key arrival.sweptAt
    · simp

/-- A sweep drops a gathering that is too old. -/
theorem length_take_swept (gathering : session.pending key = some acc) {now : Int}
    (swept : now ∈ session.sweptAt event) (abandoned : Abandoned acc now) :
    (heldJobs (session.take event key)).length ≤ (event.jobsFor key).length := by
  cases event with
  | declared ids => cases swept
  | chunk arrival =>
    by_cases declared : (session.instanceIds arrival.snapshot.instanceName).isSome = true
    · simp only [sweptAt, declared, ↓reduceIte, Option.mem_some_iff] at swept
      subst swept
      have dropped : sweepAbandonedSnapshots session.pending arrival.sweptAt key = none := by
        simp only [sweepAbandonedSnapshots, gathering, Option.filter_eq_none_iff, Option.some.injEq, forall_eq',
          decide_eq_true_eq, not_lt]
        exact abandoned
      by_cases own : arrival.snapshot.key = key
      · subst own
        simp [take, declared, gatherChunk, dropped, heldJobs, Event.jobsFor]
      · simp [take, declared, gatherChunk, Ne.symm own, dropped, heldJobs]
    · simp [sweptAt, declared] at swept

/-! ## Over a session -/

private theorem heldJobs_some : heldJobs (some acc) = acc.jobs := rfl

/-- However the session goes on, no more is gathered than there was and came. -/
theorem length_gathered_le (session : SnapshotSession) (last : Event) (leave : ∀ event ∈ events, event.Leaves key) :
    (heldJobs ((session.after events).take last key)).length ≤
      (heldJobs (session.pending key)).length + ((events ++ [last]).flatMap (Event.jobsFor key)).length := by
  induction events generalizing session with
  | nil => simpa using length_take_le session key last
  | cons event events ih =>
    have onward := ih (session.on event).1 fun other member => leave other (List.mem_cons_of_mem _ member)
    rw [on_pending (leave event List.mem_cons_self)] at onward
    have here := length_take_le session key event
    rw [after_cons, List.cons_append, List.flatMap_cons, List.length_append]
    omega

/-- A gathering that a sweep drops is lost for good. -/
theorem length_lost_le (last : Event) (leave : ∀ event ∈ events, event.Leaves key)
    (gathering : session.pending key = some acc) {now : Int} (swept : now ∈ session.sweeps (events ++ [last]))
    (abandoned : Abandoned acc now) :
    (heldJobs ((session.after events).take last key)).length ≤
      ((events ++ [last]).flatMap (Event.jobsFor key)).length := by
  induction events generalizing session acc with
  | nil =>
    rw [List.nil_append, sweeps_cons, sweeps, List.append_nil, Option.mem_toList] at swept
    simpa using length_take_swept gathering swept abandoned
  | cons event events ih =>
    have leaves := leave event List.mem_cons_self
    have others : ∀ other ∈ events, other.Leaves key := fun other member => leave other (List.mem_cons_of_mem _ member)
    rw [List.cons_append, sweeps_cons, List.mem_append, Option.mem_toList] at swept
    rw [after_cons, List.cons_append, List.flatMap_cons, List.length_append]
    by_cases alive : ∀ reading ∈ session.sweptAt event, ¬ Abandoned acc reading
    · obtain ⟨jobs, grown, -⟩ := take_alive gathering alive
      have later : now ∈ (session.on event).1.sweeps (events ++ [last]) :=
        swept.resolve_left fun here => alive now here abandoned
      have onward := ih others ((on_pending leaves).trans grown) later abandoned
      omega
    · push Not at alive
      obtain ⟨reading, here, dead⟩ := alive
      have dropped := length_take_swept gathering here dead
      have onward := length_gathered_le (session.on event).1 last others
      rw [on_pending leaves] at onward
      omega

/-- Instances stay declared. -/
theorem declared_on {instanceName : JsString} (declared : (session.instanceIds instanceName).isSome = true) :
    ((session.on event).1.instanceIds instanceName).isSome = true := by
  cases event with
  | declared ids =>
    simp only [on, declareInstances]
    generalize session.instanceIds = map at declared ⊢
    induction ids generalizing map with
    | nil => exact declared
    | cons id rest ih =>
      refine ih _ ?_
      by_cases same : instanceName = id.1
      · simp [same]
      · simpa only [Function.update_of_ne same] using declared
  | chunk arrival =>
    cases found : session.instanceIds arrival.snapshot.instanceName with
    | none =>
      rw [on_chunk_undeclared found]
      exact declared
    | some instanceId =>
      rw [on_chunk_declared found]
      exact declared

/-- While no sweep finds it too old, all that comes is gathered. -/
theorem take_gathered {instanceName : JsString} (last : Event) (leave : ∀ event ∈ events, event.Leaves key)
    (gathering : session.pending key = some acc)
    (alive : ∀ now ∈ session.sweeps (events ++ [last]), ¬ Abandoned acc now)
    (declared : (session.instanceIds instanceName).isSome = true)
    (named : ∀ event ∈ events ++ [last], ∀ arrival, event = .chunk arrival → arrival.snapshot.key = key →
      arrival.snapshot.instanceName = instanceName) :
    (session.after events).take last key =
      some { acc with jobs := acc.jobs ++ (events ++ [last]).flatMap (Event.jobsFor key) } := by
  induction events generalizing session acc with
  | nil =>
    simp only [List.nil_append, sweeps_cons, sweeps, List.append_nil, Option.mem_toList] at alive
    obtain ⟨jobs, grown, mine⟩ := take_alive gathering alive
    rw [mine fun arrival same own => by rw [named last (by simp) arrival same own]; exact declared] at grown
    simpa using grown
  | cons event events ih =>
    simp only [List.cons_append, sweeps_cons, List.mem_append, Option.mem_toList] at alive
    obtain ⟨jobs, grown, mine⟩ := take_alive gathering fun now member => alive now (.inl member)
    rw [mine fun arrival same own => by
      rw [named event List.mem_cons_self arrival same own]
      exact declared] at grown
    have onward := ih (fun other member => leave other (List.mem_cons_of_mem _ member))
      ((on_pending (leave event List.mem_cons_self)).trans grown) (fun now member => alive now (.inr member))
      (declared_on declared) fun other member => named other (List.mem_cons_of_mem _ member)
    rw [after_cons, onward, List.cons_append, List.flatMap_cons, List.append_assoc]

/-! ## The chunks of one snapshot in a session -/

def keyOf (instanceName : JsString) (snapshotId : SnapshotId) : JsString :=
  instanceName ++ js ":" ++ snapshotId.text

theorem key_eq_iff {snapshot : Snapshot} {instanceName : JsString} {snapshotId : SnapshotId} :
    snapshot.key = keyOf instanceName snapshotId ↔
      snapshot.instanceName = instanceName ∧ snapshot.snapshotId = snapshotId :=
  snapshot_key_inj (t := ⟨snapshotId, instanceName, true, []⟩)

/-- The chunk of a snapshot that an event is. -/
def Event.chunkOf (instanceName : JsString) (snapshotId : SnapshotId) : Event → Option Snapshot
  | .declared _ => none
  | .chunk arrival =>
    if arrival.snapshot.instanceName = instanceName ∧ arrival.snapshot.snapshotId = snapshotId then
      some arrival.snapshot
    else none

section
variable {instanceName : JsString} {snapshotId : SnapshotId}

theorem chunkOf_eq_some {chunk : Snapshot} : event.chunkOf instanceName snapshotId = some chunk ↔
    ∃ arrival, event = .chunk arrival ∧ arrival.snapshot = chunk ∧ chunk.key = keyOf instanceName snapshotId := by
  cases event with
  | declared ids => simp [Event.chunkOf]
  | chunk arrival =>
    simp only [Event.chunkOf, Option.ite_none_right_eq_some, Option.some.injEq, Event.chunk.injEq, exists_eq_left',
      ← key_eq_iff]
    constructor
    · rintro ⟨own, rfl⟩
      exact ⟨rfl, own⟩
    · rintro ⟨rfl, own⟩
      exact ⟨own, rfl⟩

theorem leaves_iff : event.Leaves (keyOf instanceName snapshotId) ↔
    ∀ chunk, event.chunkOf instanceName snapshotId = some chunk → chunk.moreChunks = true := by
  simp only [chunkOf_eq_some]
  cases event with
  | declared ids => simp [Event.Leaves]
  | chunk arrival =>
    simp only [Event.Leaves, Event.chunk.injEq]
    constructor
    · rintro leaves _ ⟨_, rfl, rfl, own⟩
      exact leaves own
    · intro each own
      exact each _ ⟨arrival, rfl, rfl, own⟩

theorem leaves_of_none (none : event.chunkOf instanceName snapshotId = none) :
    event.Leaves (keyOf instanceName snapshotId) := by
  rw [leaves_iff]
  intro chunk some
  rw [none] at some
  cases some

theorem flatMap_jobsFor (events : List Event) :
    events.flatMap (Event.jobsFor (keyOf instanceName snapshotId)) =
      (events.filterMap (Event.chunkOf instanceName snapshotId)).flatMap Snapshot.jobs := by
  induction events with
  | nil => rfl
  | cons event events ih =>
    rw [List.flatMap_cons, ih]
    cases found : event.chunkOf instanceName snapshotId with
    | none =>
      rw [List.filterMap_cons_none found]
      cases event with
      | declared ids => rfl
      | chunk arrival =>
        have other : arrival.snapshot.key ≠ keyOf instanceName snapshotId := by
          intro own
          rw [chunkOf_eq_some.mpr ⟨arrival, rfl, rfl, own⟩] at found
          cases found
        simp [Event.jobsFor, other]
    | some chunk =>
      obtain ⟨arrival, rfl, rfl, own⟩ := chunkOf_eq_some.mp found
      rw [List.filterMap_cons_some found, List.flatMap_cons]
      simp [Event.jobsFor, own]

/-- Nothing is gathered under a key of which no chunk has come. -/
theorem pending_none (absent : session.pending (keyOf instanceName snapshotId) = none)
    (others : ∀ event ∈ events, event.chunkOf instanceName snapshotId = none) :
    (session.after events).pending (keyOf instanceName snapshotId) = none := by
  induction events generalizing session with
  | nil => exact absent
  | cons event events ih =>
    refine ih ?_ fun other member => others other (List.mem_cons_of_mem _ member)
    have other := others event List.mem_cons_self
    rw [on_pending (leaves_of_none other)]
    cases event with
    | declared ids => exact absent
    | chunk arrival =>
      have apart : arrival.snapshot.key ≠ keyOf instanceName snapshotId := by
        intro own
        rw [chunkOf_eq_some.mpr ⟨arrival, rfl, rfl, own⟩] at other
        cases other
      simp only [take]
      split
      · simp [gatherChunk, Ne.symm apart, sweepAbandonedSnapshots, absent]
      · exact absent

/-! ## What is committed -/

theorem commits_append (more : List Event) :
    session.commits (events ++ more) = session.commits events ++ (session.after events).commits more := by
  induction events generalizing session with
  | nil => rfl
  | cons event events ih => rw [List.cons_append, commits, ih, commits, List.append_assoc, after_cons]

/-- A snapshot that does not end is not committed. -/
theorem not_committed (leave : ∀ event ∈ events, event.Leaves key) :
    ∀ commit ∈ session.commits events, commit.snapshot.key ≠ key := by
  induction events generalizing session with
  | nil => simp [commits]
  | cons event events ih =>
    intro commit member
    rcases List.mem_append.mp member with here | later
    · cases event with
      | declared ids => cases here
      | chunk arrival =>
        cases found : session.instanceIds arrival.snapshot.instanceName with
        | none =>
          rw [on_chunk_undeclared found] at here
          cases here
        | some instanceId =>
          rw [on_chunk_declared found, handleSnapshotChunk] at here
          dsimp only at here
          split at here
          · cases here
          · rename_i final
            simp only [Option.mem_toList, Option.map_eq_some_iff] at here
            obtain ⟨acc, -, rfl⟩ := here
            exact fun own => final (leave _ List.mem_cons_self own)
    · exact ih (fun other member => leave other (List.mem_cons_of_mem _ member)) commit later

/-- The last chunk commits what is gathered then. -/
theorem on_final {arrival : Arrival} {instanceId : JsString}
    (declared : session.instanceIds arrival.snapshot.instanceName = some instanceId)
    (final : arrival.snapshot.moreChunks = false) :
    (session.on (.chunk arrival)).2 =
      some ⟨instanceId, arrival.snapshot, heldJobs (session.take (.chunk arrival) arrival.snapshot.key)⟩ := by
  simp only [on_chunk_declared declared, handleSnapshotChunk, final, Bool.false_eq_true, ↓reduceIte, take, declared,
    Option.isSome_some]
  simp [gatherChunk, heldJobs]

/-- What a snapshot commits is the whole of it, and the commit deletes no job of
it. -/
structure Commit.Whole (runtime : Runtime) (commit : Commit) (blobs : List JobDefinitionBlob) : Prop where
  jobs : commit.jobs = blobs
  kept : ∀ blob ∈ blobs, (commitSnapshot runtime.crypto commit.instanceId commit.jobs).Within fun call =>
    ¬ call.SoftDeletes runtime ⟨commit.instanceId, blob.jobUuid⟩

/-- From its first chunk to its last, no sweep finds the snapshot too old; if its
instance is declared when the last comes, it was when the first came. -/
def Prompt (events : List Event) (instanceName : JsString) (snapshotId : SnapshotId) : Prop :=
  ∀ before first between last rest,
    events = before ++ .chunk first :: (between ++ .chunk last :: rest) →
    (∀ event ∈ before, event.chunkOf instanceName snapshotId = none) →
    first.snapshot.key = keyOf instanceName snapshotId →
    last.snapshot.key = keyOf instanceName snapshotId → last.snapshot.moreChunks = false →
    ((start.after (before ++ .chunk first :: between)).instanceIds instanceName).isSome = true →
      ((start.after before).instanceIds instanceName).isSome = true ∧
        ∀ now ∈ (start.after (before ++ [.chunk first])).sweeps (between ++ [.chunk last]),
          now < first.startedAt + SNAPSHOT_ABANDON_MS

/-- A commit deletes no job it is made from. -/
theorem within_commitSnapshot (runtime : Runtime) (instanceId : JsString) {jobs : List JobDefinitionBlob}
    {blob : JobDefinitionBlob} (member : blob ∈ jobs) :
    (commitSnapshot runtime.crypto instanceId jobs).Within fun call =>
      ¬ call.SoftDeletes runtime ⟨instanceId, blob.jobUuid⟩ := by
  refine Within.bind (Within.forM fun other _ => ?_) fun _ => ?_
  · refine Within.bind (Within.call ?_ fun answer => ?_) fun _ => .done _
    · rintro ⟨tables, answer, after, before, row, does, stood, present, found, deleted⟩
      cases answer with
      | error message =>
        cases does
        cases stood.symm.trans found
        rw [present] at deleted
        cases deleted
      | ok result =>
        obtain ⟨now, recorded⟩ := does
        have kept := JobTables.recordJobVersion_present recorded stood present
        rw [found, Option.map_some, Option.some.injEq] at kept
        rw [kept] at deleted
        cases deleted
    · cases answer with
      | error message => exact .throw _
      | ok result => exact .done _
  · refine Within.call ?_ fun answer => ?_
    · rintro ⟨tables, answer, after, before, row, does, stood, present, found, deleted⟩
      cases answer with
      | error message =>
        cases does
        cases stood.symm.trans found
        rw [present] at deleted
        cases deleted
      | ok result =>
        obtain ⟨now, rfl⟩ := does
        have seen : blob.jobUuid ∈ jobs.map (·.jobUuid) := List.mem_map_of_mem member
        have same := JobTables.markJobsMissingFromSnapshot_of_mem tables ⟨instanceId, blob.jobUuid⟩ instanceId now seen
        rw [same, stood] at found
        cases found
        rw [present] at deleted
        cases deleted
    · cases answer with
      | error message => exact .throw _
      | ok result => exact .done _

/-- The first chunk that comes. -/
theorem take_first {arrival : Arrival} (absent : session.pending arrival.snapshot.key = none)
    (declared : (session.instanceIds arrival.snapshot.instanceName).isSome = true) :
    session.take (.chunk arrival) arrival.snapshot.key = some {
      instanceName := arrival.snapshot.instanceName
      jobs := arrival.snapshot.jobs
      startedAt := arrival.startedAt } := by
  simp [take, declared, gatherChunk, sweepAbandonedSnapshots, absent]

/-- An own chunk in terms of the snapshot it belongs to. -/
private theorem chunkOf_own {arrival : Arrival} (own : arrival.snapshot.key = keyOf instanceName snapshotId) :
    (Event.chunk arrival).chunkOf instanceName snapshotId = some arrival.snapshot :=
  chunkOf_eq_some.mpr ⟨arrival, rfl, rfl, own⟩

/-- If of the chunks that came one is the last, then all came. -/
private theorem all_came {before initial rest : List Snapshot} {chunk last : Snapshot}
    (more : ∀ other ∈ initial, other.moreChunks = true ∧ other.jobs ≠ []) (final : chunk.moreChunks = false)
    (came : before ++ chunk :: rest <+: initial ++ [last]) : before = initial ∧ chunk = last ∧ rest = [] := by
  induction initial generalizing before with
  | nil =>
    obtain ⟨later, same⟩ := came
    cases before with
    | nil => simp_all
    | cons other others => simp_all
  | cons head tail ih =>
    cases before with
    | nil =>
      have same : chunk = head := (List.cons_prefix_cons.mp came).1
      rw [same, (more head List.mem_cons_self).1] at final
      cases final
    | cons other others =>
      obtain ⟨rfl, onward⟩ := List.cons_prefix_cons.mp came
      obtain ⟨rfl, same, none⟩ := ih (fun other member => more other (List.mem_cons_of_mem _ member)) onward
      exact ⟨rfl, same, none⟩

private theorem leave_of_more {events : List Event}
    (more : ∀ chunk ∈ events.filterMap (Event.chunkOf instanceName snapshotId), chunk.moreChunks = true) :
    ∀ event ∈ events, event.Leaves (keyOf instanceName snapshotId) := by
  intro event member
  rw [leaves_iff]
  intro chunk found
  exact more chunk (List.mem_filterMap.mpr ⟨event, member, found⟩)

/-- Once the first chunk has come, its jobs are what is held. -/
private theorem pending_first {before : List Event} {first : Arrival}
    (others : ∀ event ∈ before, event.chunkOf instanceName snapshotId = none)
    (own : first.snapshot.key = keyOf instanceName snapshotId) (more : first.snapshot.moreChunks = true)
    (known : ((start.after before).instanceIds instanceName).isSome = true) :
    (start.after (before ++ [.chunk first])).pending (keyOf instanceName snapshotId) = some {
      instanceName := first.snapshot.instanceName
      jobs := first.snapshot.jobs
      startedAt := first.startedAt } := by
  obtain ⟨firstName, -⟩ := key_eq_iff.mp own
  have absent : (start.after before).pending first.snapshot.key = none := by
    rw [own]
    exact pending_none rfl others
  rw [after_append, ← own, ← take_first absent (firstName.symm ▸ known)]
  exact on_pending fun _ => more

variable {blobs : List JobDefinitionBlob} {initial : List Snapshot} {last : Snapshot}

/-- A snapshot that is only committed whole came promptly. -/
theorem prompt_of_whole {runtime : Runtime} (chunks : ChunksOf instanceName snapshotId blobs initial last)
    (came : events.filterMap (Event.chunkOf instanceName snapshotId) <+: initial ++ [last])
    (whole : ∀ commit ∈ start.commits events, commit.snapshot.key = keyOf instanceName snapshotId →
      commit.Whole runtime blobs) : Prompt events instanceName snapshotId := by
  rintro before first between final rest rfl others firstOwn finalOwn ends declared
  have noneBefore : before.filterMap (Event.chunkOf instanceName snapshotId) = [] := by
    rw [List.filterMap_eq_nil_iff]
    exact others
  simp only [List.filterMap_append, noneBefore, List.nil_append, List.filterMap_cons_some (chunkOf_own firstOwn),
    List.filterMap_cons_some (chunkOf_own finalOwn)] at came
  rw [← List.cons_append] at came
  obtain ⟨same, rfl, -⟩ := all_came chunks.more ends came
  have more : ∀ chunk ∈ between.filterMap (Event.chunkOf instanceName snapshotId), chunk.moreChunks = true :=
    fun chunk member => (chunks.more chunk (same ▸ List.mem_cons_of_mem _ member)).1
  have leave := leave_of_more more
  have firstJobs : first.snapshot.jobs ≠ [] := (chunks.more _ (same ▸ List.mem_cons_self)).2
  have firstMore : first.snapshot.moreChunks = true := (chunks.more _ (same ▸ List.mem_cons_self)).1
  -- What is gathered after the first chunk must not be all there is to gather.
  have jobsLeft : blobs = first.snapshot.jobs ++
      (between ++ [Event.chunk final]).flatMap (Event.jobsFor (keyOf instanceName snapshotId)) := by
    rw [flatMap_jobsFor, List.filterMap_append, List.filterMap_cons_some (chunkOf_own finalOwn), List.filterMap_nil,
      ← List.flatMap_cons, ← List.cons_append, same, chunks.whole]
  obtain ⟨finalName, -⟩ := key_eq_iff.mp finalOwn
  obtain ⟨firstName, -⟩ := key_eq_iff.mp firstOwn
  obtain ⟨instanceId, found⟩ := Option.isSome_iff_exists.mp declared
  have committed := on_final (finalName.symm ▸ found) ends
  have gathered := whole ⟨instanceId, final.snapshot,
      heldJobs ((start.after (before ++ .chunk first :: between)).take (.chunk final) final.snapshot.key)⟩ (by
    rw [← List.cons_append, ← List.append_assoc, commits_append, commits, committed]
    simp) finalOwn
  have held := gathered.jobs
  dsimp only at held
  rw [finalOwn] at held
  have tooFew (few : (heldJobs ((start.after (before ++ .chunk first :: between)).take (.chunk final)
      (keyOf instanceName snapshotId))).length ≤
        ((between ++ [Event.chunk final]).flatMap (Event.jobsFor (keyOf instanceName snapshotId))).length) : False := by
    rw [held, jobsLeft, List.length_append] at few
    have positive := List.length_pos_iff.mpr firstJobs
    omega
  have onward : start.after (before ++ .chunk first :: between) =
      (start.after (before ++ [.chunk first])).after between := by
    rw [← after_append, List.append_assoc, List.singleton_append]
  by_cases known : ((start.after before).instanceIds instanceName).isSome = true
  · refine ⟨known, fun now swept => ?_⟩
    by_contra late
    have gathering := pending_first others firstOwn firstMore known
    refine tooFew (onward ▸ length_lost_le (.chunk final) leave gathering swept ?_)
    change first.startedAt ≤ now - SNAPSHOT_ABANDON_MS
    omega
  · exfalso
    refine tooFew ?_
    have few := length_gathered_le (start.after (before ++ [.chunk first])) (.chunk final) leave
    have afterFirst : start.after (before ++ [.chunk first]) = ((start.after before).on (.chunk first)).1 := by
      rw [after_append]
      rfl
    have firstTaken : (start.after (before ++ [.chunk first])).pending (keyOf instanceName snapshotId) =
        (start.after before).take (.chunk first) (keyOf instanceName snapshotId) := by
      rw [afterFirst]
      exact on_pending fun _ => firstMore
    have ignored : (start.after before).take (.chunk first) = (start.after before).pending := by
      simp only [take]
      rw [if_neg (firstName.symm ▸ known)]
    rw [firstTaken, ignored, pending_none rfl others] at few
    rw [onward]
    simpa [heldJobs] using few

/-- When the last chunk of a prompt snapshot is taken, all its jobs are held. -/
private theorem heldJobs_prompt {earlier rest : List Event} {final : Arrival}
    (chunks : ChunksOf instanceName snapshotId blobs initial final.snapshot)
    (came : earlier.filterMap (Event.chunkOf instanceName snapshotId) = initial)
    (own : final.snapshot.key = keyOf instanceName snapshotId)
    (leave : ∀ event ∈ earlier, event.Leaves (keyOf instanceName snapshotId))
    (declared : ((start.after earlier).instanceIds instanceName).isSome = true)
    (prompt : Prompt (earlier ++ .chunk final :: rest) instanceName snapshotId) :
    heldJobs ((start.after earlier).take (.chunk final) (keyOf instanceName snapshotId)) = blobs := by
  obtain ⟨finalName, -⟩ := key_eq_iff.mp own
  cases initial with
  | nil =>
    -- The only chunk is the first.
    have absent : (start.after earlier).pending final.snapshot.key = none := by
      rw [own]
      exact pending_none rfl fun event there => List.filterMap_eq_nil_iff.mp came event there
    rw [← own, take_first absent (finalName.symm ▸ declared), heldJobs_some]
    simpa using chunks.whole
  | cons head tail =>
    obtain ⟨before, event, after, rfl, beforeNone, isFirst, afterChunks⟩ := List.filterMap_eq_cons_iff.mp came
    obtain ⟨first, rfl, rfl, firstOwn⟩ := chunkOf_eq_some.mp isFirst
    obtain ⟨known, young⟩ := prompt before first after final rest (by simp) beforeNone firstOwn own chunks.final declared
    have gathering := pending_first beforeNone firstOwn (chunks.more _ List.mem_cons_self).1 known
    have whole := take_gathered (.chunk final)
      (fun event there => leave event (List.mem_append_right _ (List.mem_cons_of_mem _ there))) gathering
      (fun now swept abandoned => by
        have early := young now swept
        unfold Abandoned at abandoned
        dsimp only at abandoned
        omega)
      (by
        obtain ⟨firstName, -⟩ := key_eq_iff.mp firstOwn
        rw [after_append]
        exact declared_on (firstName.symm ▸ known))
      (fun _ _ arrival _ mine => (key_eq_iff.mp mine).1.trans (key_eq_iff.mp firstOwn).1.symm)
    rw [← after_append, List.append_assoc, List.singleton_append] at whole
    rw [whole, heldJobs_some, flatMap_jobsFor]
    simp only [List.filterMap_append, afterChunks, List.filterMap_cons_some (chunkOf_own own), List.filterMap_nil]
    simpa using chunks.whole

/-- A snapshot that comes promptly is only committed whole. -/
theorem whole_of_prompt {runtime : Runtime} (chunks : ChunksOf instanceName snapshotId blobs initial last)
    (came : events.filterMap (Event.chunkOf instanceName snapshotId) <+: initial ++ [last])
    (prompt : Prompt events instanceName snapshotId) :
    ∀ commit ∈ start.commits events, commit.snapshot.key = keyOf instanceName snapshotId →
      commit.Whole runtime blobs := by
  intro commit member own
  rcases List.prefix_concat_iff.mp came with all | part
  · obtain ⟨front, back, rfl, frontChunks, backChunks⟩ := List.filterMap_eq_append_iff.mp all
    obtain ⟨middle, event, rest, rfl, middleNone, isLast, restNone⟩ := List.filterMap_eq_cons_iff.mp backChunks
    obtain ⟨final, rfl, rfl, finalOwn⟩ := chunkOf_eq_some.mp isLast
    obtain ⟨finalName, -⟩ := key_eq_iff.mp finalOwn
    have sofar : (front ++ middle).filterMap (Event.chunkOf instanceName snapshotId) = initial := by
      rw [List.filterMap_append, frontChunks, List.filterMap_eq_nil_iff.mpr middleNone, List.append_nil]
    have leave : ∀ event ∈ front ++ middle, event.Leaves (keyOf instanceName snapshotId) :=
      leave_of_more fun chunk found => (chunks.more chunk (sofar ▸ found)).1
    have restLeave : ∀ event ∈ rest, event.Leaves (keyOf instanceName snapshotId) := fun event there =>
      leaves_of_none (List.filterMap_eq_nil_iff.mp restNone event there)
    rw [← List.append_assoc] at member prompt
    rw [commits_append, commits] at member
    rcases List.mem_append.mp member with early | member
    · exact absurd own (not_committed leave commit early)
    rcases List.mem_append.mp member with here | late
    · cases found : (start.after (front ++ middle)).instanceIds final.snapshot.instanceName with
      | none =>
        rw [on_chunk_undeclared found] at here
        cases here
      | some instanceId =>
        rw [on_final found chunks.final, Option.mem_toList, Option.some.injEq] at here
        subst here
        have all := heldJobs_prompt chunks sofar finalOwn leave (by rw [← finalName, found]; rfl) prompt
        rw [← finalOwn] at all
        exact ⟨all, fun blob inside => within_commitSnapshot runtime instanceId (all.symm ▸ inside)⟩
    · exact absurd own (not_committed restLeave commit late)
  · -- The last chunk never came.
    refine absurd own (not_committed (leave_of_more fun chunk there => ?_) commit member)
    exact (chunks.more chunk (part.subset there)).1

end

/-- **A snapshot is only committed whole exactly if it comes promptly**, whatever
else comes on the session. -/
theorem snapshot_whole_iff (runtime : Runtime) (events : List Event) (instanceName : JsString)
    (snapshotId : SnapshotId) (blobs : List JobDefinitionBlob)
    (came : events.filterMap (Event.chunkOf instanceName snapshotId) <+:
      snapshotChunks instanceName snapshotId blobs) :
    (∀ commit ∈ start.commits events, commit.snapshot.key = keyOf instanceName snapshotId →
        commit.Whole runtime blobs) ↔
      Prompt events instanceName snapshotId := by
  obtain ⟨initial, last, split, chunks⟩ := snapshotChunks_eq instanceName snapshotId blobs
  rw [split] at came
  exact ⟨prompt_of_whole chunks came, whole_of_prompt chunks came⟩

/-! A snapshot of one job more than a chunk holds, whose second chunk is late. -/

def sampleId : SnapshotId where
  text := js "0b9d2f6e-5a41-4c7e-9a10-3f2f0c6f7d11"
  noColon := by decide

def sampleBlob (number : Nat) : JobDefinitionBlob where
  jobUuid :=
    js "5d0c7a10-1f0e-4f6b-8a3e-0000000000" ++ [Fin.ofNat _ (0x30 + number / 10), Fin.ofNat _ (0x30 + number % 10)]
  canonicalJson := observedText true
  definitionHash := []
  dateModified := { seconds := 1700000000, nanos := 0 }

def sampleBlobs : List JobDefinitionBlob := (List.range (SNAPSHOT_CHUNK_SIZE + 1)).map sampleBlob

def firstChunk : Snapshot where
  snapshotId := sampleId
  instanceName := js "SQL01"
  moreChunks := true
  jobs := (List.range SNAPSHOT_CHUNK_SIZE).map sampleBlob

def secondChunk : Snapshot where
  snapshotId := sampleId
  instanceName := js "SQL01"
  moreChunks := false
  jobs := [sampleBlob SNAPSHOT_CHUNK_SIZE]

/-- The second chunk comes so much later than the first. -/
def twoChunks (later : Int) : List Event :=
  [.declared [(js "SQL01", js "i1")], .chunk ⟨firstChunk, 0, 0⟩, .chunk ⟨secondChunk, later, later⟩]

private theorem twoChunks_came (later : Int) :
    (twoChunks later).filterMap (Event.chunkOf (js "SQL01") sampleId) <+:
      snapshotChunks (js "SQL01") sampleId sampleBlobs := by
  have own : (twoChunks later).filterMap (Event.chunkOf (js "SQL01") sampleId) = [firstChunk, secondChunk] := rfl
  have chunks : snapshotChunks (js "SQL01") sampleId sampleBlobs = [firstChunk, secondChunk] := rfl
  exact ⟨[], by rw [List.append_nil, own, chunks]⟩

/-- A second chunk within the window completes the snapshot. -/
theorem snapshot_whole_in_time : (start.commits (twoChunks 1000)).length = 1 ∧
    ∀ commit ∈ start.commits (twoChunks 1000), commit.snapshot.key = keyOf (js "SQL01") sampleId →
      commit.Whole observingRuntime sampleBlobs := by
  refine ⟨rfl, (snapshot_whole_iff observingRuntime (twoChunks 1000) (js "SQL01") sampleId sampleBlobs
    (twoChunks_came 1000)).mpr ?_⟩
  rintro before first between last rest split others - - - -
  rw [twoChunks, eq_comm, List.append_eq_cons_iff] at split
  obtain ⟨-, impossible⟩ | ⟨before, rfl, split⟩ := split
  · cases impossible
  rw [eq_comm, List.append_eq_cons_iff] at split
  obtain ⟨rfl, same⟩ | ⟨before, rfl, -⟩ := split
  · obtain ⟨same, onward⟩ := List.cons.inj same
    cases same
    rw [List.append_eq_singleton_iff] at onward
    obtain ⟨rfl, same⟩ | ⟨-, impossible⟩ := onward
    · cases same
      refine ⟨rfl, fun now swept => ?_⟩
      have readings : (start.after ([.declared [(js "SQL01", js "i1")]] ++ [.chunk ⟨firstChunk, 0, 0⟩])).sweeps
          ([] ++ [.chunk ⟨secondChunk, 1000, 1000⟩]) = [1000] := rfl
      rw [readings, List.mem_singleton] at swept
      rw [swept]
      decide
    · cases impossible
  · exact absurd (others (.chunk ⟨firstChunk, 0, 0⟩) (by simp)) (by simp [Event.chunkOf, firstChunk])

/-- **A snapshot can be committed without its first chunk**, if the second comes
when a sweep has dropped the first. -/
theorem snapshot_committed_in_part :
    ¬ ∀ (runtime : Runtime) (events : List Event) (instanceName : JsString) (snapshotId : SnapshotId)
        (blobs : List JobDefinitionBlob),
      events.filterMap (Event.chunkOf instanceName snapshotId) <+: snapshotChunks instanceName snapshotId blobs →
      ∀ commit ∈ start.commits events, commit.snapshot.key = keyOf instanceName snapshotId →
        commit.Whole runtime blobs := by
  intro claim
  have late := claim observingRuntime (twoChunks 600000) (js "SQL01") sampleId sampleBlobs (twoChunks_came 600000)
    ⟨js "i1", secondChunk, [sampleBlob SNAPSHOT_CHUNK_SIZE]⟩ (List.mem_singleton.mpr rfl) rfl
  have short := congrArg List.length late.jobs
  revert short
  decide

end SnapshotSession

end RemoteSqlAgent
