import RemoteSqlAgent.InstanceConfigRoutes

/-! What a request that saves or removes a configuration leaves behind. It is clean if the database
refuses nothing once there was a write, and what it removes is of the worker that its path spells. -/
namespace RemoteSqlAgent
open Js CallProgram EstateProgram
open ConfigStore (UpsertInstanceConfigInput InstanceConfigView toView checkUpsert newConfig updatedConfig upsertRow
  key_newConfig upsertRow_saves workers_upsertRow detachedAt_upsertRow upsertInstanceConfig_succeeds
  upsertInstanceConfig_after)

section
variable {world : EstateWorld} {store : EstateStore}

/-! ## Statements -/

theorem statement_refused {α : Type} {call : EstateCall} {done : Option α × EstateStore}
    (refused : world.refuses call = true) : world.statement store call done = (none, store) := if_pos refused

theorem statement_done {α : Type} {call : EstateCall} {done : Option α × EstateStore}
    (taken : world.refuses call = false) : world.statement store call done = done :=
  if_neg (Bool.eq_false_iff.mp taken)

/-- A worker that is connected can be sent what is configured for it. -/
def Pushes (world : EstateWorld) (workerId : JsString) : Prop :=
  world.live workerId = true → world.refuses (.selectConfigSet workerId) = false

/-- Sending a worker its configurations changes nothing. -/
theorem perform_push (world : EstateWorld) (store : EstateStore) (workerId : JsString) :
    (Pushes world workerId ∧
      ∃ delivered, perform world.respond store (pushInstanceConfigs workerId) = (.ok delivered, store)) ∨
    (¬ Pushes world workerId ∧
      perform world.respond store (pushInstanceConfigs workerId) = (.error .database, store)) := by
  cases live : world.live workerId with
  | false =>
    have offline : world.respond store (.findSession workerId) = (false, store) := by
      rw [← live]
      rfl
    refine .inl ⟨fun online => ?_, false, perform_call_of offline⟩
    rw [live] at online
    cases online
  | true =>
    have online : world.respond store (.findSession workerId) = (true, store) := by
      rw [← live]
      rfl
    cases refused : world.refuses (.selectConfigSet workerId) with
    | false =>
      have selected : world.respond store (.selectConfigSet workerId) = (some _, store) := statement_done refused
      exact .inl ⟨fun _ => refused, true, (perform_call_of online).trans (perform_call_of selected)⟩
    | true =>
      have selected : world.respond store (.selectConfigSet workerId) = (none, store) := statement_refused refused
      refine .inr ⟨fun pushes => ?_, (perform_call_of online).trans (perform_call_of selected)⟩
      rw [pushes live] at refused
      cases refused

/-- What a route does once the tables are as it wants them. -/
def IsRecorded (world : EstateWorld) (entry : AuditExport.AuditEntry) (workerId : JsString) : Prop :=
  world.refuses (.writeAudit entry) = false ∧ Pushes world workerId

theorem perform_record (world : EstateWorld) (store : EstateStore) (entry : AuditExport.AuditEntry)
    (workerId : JsString) :
    (IsRecorded world entry workerId ∧
      ∃ delivered, perform world.respond store (recordAndPush entry workerId) = (.ok delivered, store)) ∨
    (¬ IsRecorded world entry workerId ∧
      perform world.respond store (recordAndPush entry workerId) = (.error .database, store)) := by
  cases refused : world.refuses (.writeAudit entry) with
  | true =>
    have unwritten : world.respond store (.writeAudit entry) = (none, store) := statement_refused refused
    refine .inr ⟨fun records => ?_, perform_bind_error (perform_call_of unwritten)⟩
    rw [records.1] at refused
    cases refused
  | false =>
    have written : world.respond store (.writeAudit entry) = (some (), store) := statement_done refused
    have goesOn : perform world.respond store (recordAndPush entry workerId) =
        perform world.respond store (pushInstanceConfigs workerId) := perform_bind (perform_call_of written)
    rcases perform_push world store workerId with ⟨pushes, delivered, sent⟩ | ⟨stuck, failed⟩
    · exact .inl ⟨⟨refused, pushes⟩, delivered, goesOn.trans sent⟩
    · exact .inr ⟨fun records => stuck records.2, goesOn.trans failed⟩

/-! ## Saving -/

/-- A save gets as far as its row. -/
structure Writes (world : EstateWorld) (store : EstateStore) (input : UpsertInstanceConfigInput) : Prop where
  read : world.refuses (.selectCredentialKey input.workerId) = false
  checked : checkUpsert input (store.getCredentialKey (storedUuid input.workerId)) = .ok ()
  taken : world.refuses (.upsertConfig input world.clock) = false
  owned : store.workers (storedUuid input.workerId) ≠ none
  fits : store.Fits input world.newId

/-- The instance is attached and the row is read back. -/
structure IsReadBack (world : EstateWorld) (input : UpsertInstanceConfigInput) : Prop where
  attached : world.refuses (.attachInstance input.workerId input.instanceName) = false
  listed : world.refuses (.selectConfigs input.workerId) = false

/-- The tables after the row, and after the instance if that is attached. -/
def leftBySave (world : EstateWorld) (store : EstateStore) (input : UpsertInstanceConfigInput)
    (fits : store.Fits input world.newId) : EstateStore :=
  let written := store.upsert world.table input world.clock world.newId fits
  if world.refuses (.attachInstance input.workerId input.instanceName) then written
  else written.marked input.key none

/-- A row of the worker is read back by its id. -/
theorem perform_attachAndRead {input : UpsertInstanceConfigInput} {row : InstanceConfigRow} {written : EstateStore}
    (held : row ∈ written.configs) (own : row.workerId = storedUuid input.workerId) :
    let after := if world.refuses (.attachInstance input.workerId input.instanceName) then written
      else written.marked input.key none
    (IsReadBack world input ∧
      ∃ saved, perform world.respond written (attachAndRead input row.id) = (.ok saved, after)) ∨
    (¬ IsReadBack world input ∧
      perform world.respond written (attachAndRead input row.id) = (.error .database, after)) := by
  intro after
  cases attached : world.refuses (.attachInstance input.workerId input.instanceName) with
  | true =>
    have here : after = written := if_pos attached
    have stuck : world.respond written (.attachInstance input.workerId input.instanceName) = (none, written) :=
      statement_refused attached
    refine .inr ⟨fun back => ?_, ?_⟩
    · rw [back.attached] at attached
      cases attached
    · rw [here]
      exact perform_bind_error (perform_call_of stuck)
  | false =>
    have here : after = written.marked input.key none := if_neg (Bool.eq_false_iff.mp attached)
    have marks : world.respond written (.attachInstance input.workerId input.instanceName) = (some (), after) :=
      here ▸ statement_done attached
    have attaches : perform world.respond written
        (CallProgram.call (.attachInstance input.workerId input.instanceName) orRefused : EstateProgram Unit) =
          (.ok (), after) := perform_call_of marks
    cases listed : world.refuses (.selectConfigs input.workerId) with
    | true =>
      have unread : world.respond after (.selectConfigs input.workerId) = (none, after) := statement_refused listed
      refine .inr ⟨fun back => ?_, ?_⟩
      · rw [back.listed] at listed
        cases listed
      · exact (perform_bind attaches).trans (perform_bind_error (perform_call_of unread))
    | false =>
      have selected : world.respond after (.selectConfigs input.workerId) =
          (some ((EstateWorld.configsOf after input.workerId).map toView), after) := statement_done listed
      have read : perform world.respond after
          (CallProgram.call (.selectConfigs input.workerId) orRefused : EstateProgram (List InstanceConfigView)) =
            (.ok ((EstateWorld.configsOf after input.workerId).map toView), after) := perform_call_of selected
      have there : toView row ∈ (EstateWorld.configsOf after input.workerId).map toView := by
        refine List.mem_map_of_mem (List.mem_filter.mpr ⟨?_, decide_eq_true own⟩)
        rw [here]
        exact held
      have isThere : (((EstateWorld.configsOf after input.workerId).map toView).find? fun config : InstanceConfigView =>
          config.id = row.id).isSome := List.find?_isSome.mpr ⟨toView row, there, decide_eq_true rfl⟩
      obtain ⟨saved, found⟩ := Option.isSome_iff_exists.mp isThere
      refine .inl ⟨⟨attached, listed⟩, saved, ?_⟩
      refine ((perform_bind attaches).trans (perform_bind read)).trans ?_
      simp only [found, perform_pure]

/-- A checked save goes on to write. -/
theorem perform_checked {input : UpsertInstanceConfigInput}
    (refused : world.refuses (.selectCredentialKey input.workerId) = false)
    (checked : checkUpsert input (store.getCredentialKey (storedUuid input.workerId)) = .ok ()) :
    perform world.respond store (upsertInstanceConfig input) = perform world.respond store (writeConfig input) := by
  have read : world.respond store (.selectCredentialKey input.workerId) =
      (some (store.getCredentialKey (storedUuid input.workerId)), store) := statement_done refused
  refine (perform_call_of read).trans ?_
  simp only [orRefused, done_bind, checked]

theorem perform_unwritten {input : UpsertInstanceConfigInput} (not_ : ¬ Writes world store input) :
    ∃ fault, perform world.respond store (upsertInstanceConfig input) = (.error fault, store) := by
  cases refused : world.refuses (.selectCredentialKey input.workerId) with
  | true =>
    have unread : world.respond store (.selectCredentialKey input.workerId) = (none, store) := statement_refused refused
    exact ⟨.database, perform_call_of unread⟩
  | false =>
    have read : world.respond store (.selectCredentialKey input.workerId) =
        (some (store.getCredentialKey (storedUuid input.workerId)), store) := statement_done refused
    cases checked : checkUpsert input (store.getCredentialKey (storedUuid input.workerId)) with
    | error error =>
      refine ⟨.config error, (perform_call_of read).trans ?_⟩
      simp only [orRefused, done_bind, checked, perform_throw]
    | ok checks =>
      have upserted : world.respond store (.upsertConfig input world.clock) = (none, store) := by
        cases taken : world.refuses (.upsertConfig input world.clock) with
        | true => exact statement_refused taken
        | false =>
          refine (statement_done taken).trans ?_
          unfold EstateWorld.upserted
          split
          · rfl
          next owned =>
            exact dif_neg fun fits => not_ ⟨refused, checked, taken, owned, fits⟩
      refine ⟨.database, (perform_checked refused checked).trans ?_⟩
      exact (perform_call_of (show world.respond store .readClock = (world.clock, store) from rfl)).trans
        (perform_call_of upserted)

theorem perform_written {input : UpsertInstanceConfigInput} (writes : Writes world store input) :
    (IsReadBack world input ∧ ∃ saved, perform world.respond store (upsertInstanceConfig input) =
      (.ok saved, leftBySave world store input writes.fits)) ∨
    (¬ IsReadBack world input ∧ perform world.respond store (upsertInstanceConfig input) =
      (.error .database, leftBySave world store input writes.fits)) := by
  obtain ⟨saved, isKey, rows⟩ := upsertRow_saves world.table store.toConfigStore input.cast world.clock world.newId
  let written := store.upsert world.table input world.clock world.newId writes.fits
  have there : saved ∈ written.configs := (rows saved).mpr (.inr rfl)
  obtain ⟨row, found⟩ := Option.isSome_iff_exists.mp
    (List.find?_isSome.mpr ⟨saved, there, decide_eq_true isKey⟩ :
      (written.configs.rows.find? fun row => row.key = input.key).isSome)
  have named : row.key = input.key := by simpa using List.find?_some found
  have upserted : world.respond store (.upsertConfig input world.clock) = (some (some row.id), written) := by
    refine (statement_done writes.taken).trans ?_
    unfold EstateWorld.upserted
    rw [if_neg writes.owned, dif_pos writes.fits]
    exact congrArg (fun id => (some id, written)) (congrArg (Option.map (·.id)) found)
  have goesOn : perform world.respond store (upsertInstanceConfig input) =
      perform world.respond written (attachAndRead input row.id) :=
    (perform_checked writes.read writes.checked).trans
      ((perform_call_of (show world.respond store .readClock = (world.clock, store) from rfl)).trans
        (perform_call_of upserted))
  rw [goesOn]
  exact perform_attachAndRead (List.mem_of_find?_eq_some found) (congrArg Prod.fst named)

/-! ## What a save changes -/

/-- The row is there with the very columns that an upsert gives it. -/
theorem upsertRow_unchanged_iff (table : CaseTable) (store : EstateStore) (input : UpsertInstanceConfigInput)
    (now : Int) (newId : JsString) : (store.upsertRow table input now newId).configs = store.configs ↔
      ∃ row ∈ store.configs, row.key = (input.workerId, input.instanceName) ∧
        updatedConfig table input now row = row := by
  unfold upsertRow
  split
  next free =>
    rw [key_newConfig] at free
    constructor
    · intro same
      have longer := congrArg (fun configs : KeyedTable InstanceConfigRow.key => configs.rows.length) same
      simp at longer
    · rintro ⟨row, held, isKey, -⟩
      exact absurd (KeyedTable.holds_iff.mpr ⟨row, held, isKey⟩) free
  next taken =>
    rw [key_newConfig, not_not] at taken
    obtain ⟨row, held, isKey⟩ := KeyedTable.holds_iff.mp taken
    have rowwise : (store.configs.rows.map fun other =>
        if other.key = (input.workerId, input.instanceName) then updatedConfig table input now other else other) =
          store.configs.rows.map (fun other => other) ↔ ∀ other ∈ store.configs.rows,
            (if other.key = (input.workerId, input.instanceName) then updatedConfig table input now other else other) =
              other := List.map_inj_left
    rw [List.map_id'] at rowwise
    constructor
    · intro same
      have unchanged := rowwise.mp (congrArg KeyedTable.rows same) row held
      rw [if_pos isKey] at unchanged
      exact ⟨row, held, isKey, unchanged⟩
    · rintro ⟨other, there, named, unchanged⟩
      refine KeyedTable.eq_of_rows (rowwise.mpr fun third inside => ?_)
      split
      next same =>
        rw [store.configs.eq_of_key inside there (same.trans named.symm)]
        exact unchanged
      next => rfl

/-- What the save would write is stored already. -/
structure StoredAlready (world : EstateWorld) (store : EstateStore) (input : UpsertInstanceConfigInput) : Prop where
  row : ∃ row ∈ store.configs, row.key = input.key ∧ updatedConfig world.table input.cast world.clock row = row
  mark : world.refuses (.attachInstance input.workerId input.instanceName) = true ∨ store.detachedAt input.key = none

theorem leftBySave_eq_iff {input : UpsertInstanceConfigInput} (fits : store.Fits input world.newId) :
    leftBySave world store input fits = store ↔ StoredAlready world store input := by
  have rows := upsertRow_unchanged_iff world.table store input.cast world.clock world.newId
  have marks := detachedAt_upsertRow world.table store.toConfigStore input.cast world.clock world.newId
  have workers := workers_upsertRow world.table store.toConfigStore input.cast world.clock world.newId
  let written := store.upsert world.table input world.clock world.newId fits
  unfold leftBySave
  cases attached : world.refuses (.attachInstance input.workerId input.instanceName) with
  | true =>
    rw [if_pos rfl]
    constructor
    · intro same
      exact ⟨rows.mp (congrArg (fun store : EstateStore => store.configs) same), .inl attached⟩
    · intro already
      exact EstateStore.ext workers (rows.mpr already.row) marks rfl
  | false =>
    rw [if_neg Bool.false_ne_true]
    constructor
    · intro same
      have mark := congrArg (fun store : EstateStore => store.detachedAt) same
      refine ⟨rows.mp (congrArg (fun store : EstateStore => store.configs) same), .inr ?_⟩
      rw [← marks]
      exact (EstateStore.withMark_none written input.key).mp (mark.trans marks.symm)
    · intro already
      have unmarked := already.mark.resolve_left (Bool.eq_false_iff.mp attached)
      refine EstateStore.ext workers (rows.mpr already.row) ?_ rfl
      rw [← marks] at unmarked
      exact ((EstateStore.withMark_none written input.key).mpr unmarked).trans marks

/-- Where the instance is attached, the statements do what the operation on the store does. -/
theorem upsertInstanceConfig_leftBySave {input : UpsertInstanceConfigInput} (writes : Writes world store input)
    (attached : world.refuses (.attachInstance input.workerId input.instanceName) = false) :
    ∃ view, store.toConfigStore.upsertInstanceConfig world.table input.cast world.clock world.newId =
      .ok (view, (leftBySave world store input writes.fits).toConfigStore) := by
  let written := store.upsert world.table input world.clock world.newId writes.fits
  have left : (leftBySave world store input writes.fits).toConfigStore = { written.toConfigStore with
      detachedAt := Function.update written.detachedAt input.key none } := by
    have marked : leftBySave world store input writes.fits = written.marked input.key none :=
      if_neg (Bool.eq_false_iff.mp attached)
    rw [marked, ← EstateStore.withMark_none_eq]
    rfl
  obtain ⟨⟨view, after⟩, upserted⟩ :=
    upsertInstanceConfig_succeeds world.table world.clock world.newId
      (show checkUpsert input.cast _ = _ from writes.checked) writes.owned
  have same : after = _ := (upsertInstanceConfig_after upserted).2.2
  refine ⟨view, upserted.trans ?_⟩
  rw [same, left]
  rfl

/-- The configurations and the instances of the other workers are as they were. -/
structure OthersKept (workerId : JsString) (before after : EstateStore) : Prop where
  configs : ∀ row : InstanceConfigRow, row.workerId ≠ workerId → (row ∈ after.configs ↔ row ∈ before.configs)
  instances : ∀ key : JsString × JsString, key.1 ≠ workerId →
    after.hasInstance key = before.hasInstance key ∧ after.detachedAt key = before.detachedAt key

theorem OthersKept.refl (workerId : JsString) (store : EstateStore) : OthersKept workerId store store :=
  ⟨fun _ _ => Iff.rfl, fun _ _ => ⟨rfl, rfl⟩⟩

theorem OthersKept.marked {workerId : JsString} {before after : EstateStore} (kept : OthersKept workerId before after)
    {key : JsString × JsString} (own : key.1 = workerId) (mark : Option Int) :
    OthersKept workerId before (after.marked key mark) := by
  refine ⟨kept.configs, fun other apart => ⟨(kept.instances other apart).1, ?_⟩⟩
  have different : other ≠ key := by
    rintro rfl
    exact apart own
  exact (after.withMark_of_ne key mark different).trans (kept.instances other apart).2

theorem othersKept_save {input : UpsertInstanceConfigInput} (fits : store.Fits input world.newId) :
    OthersKept (storedUuid input.workerId) store (leftBySave world store input fits) := by
  have written : OthersKept (storedUuid input.workerId) store
      (store.upsert world.table input world.clock world.newId fits) := by
    refine ⟨fun row other => ?_, fun key _ => ⟨rfl, ?_⟩⟩
    · obtain ⟨saved, isKey, rows⟩ := upsertRow_saves world.table store.toConfigStore input.cast world.clock world.newId
      refine (rows row).trans ⟨?_, fun held => .inl ⟨held, fun same => other (congrArg Prod.fst same)⟩⟩
      rintro (⟨held, -⟩ | rfl)
      · exact held
      · exact absurd (congrArg Prod.fst isKey) other
    · exact congrFun (detachedAt_upsertRow world.table store.toConfigStore input.cast world.clock world.newId) key
  unfold leftBySave
  dsimp only
  split
  · exact written
  · exact written.marked rfl none

/-! ## Removing -/

/-- A removal gets as far as deleting the row. -/
structure Removes (world : EstateWorld) (store : EstateStore) (configId : JsString) (row : InstanceConfigRow) :
    Prop where
  taken : world.refuses (.deleteConfig configId) = false
  held : row ∈ store.configs
  named : row.id = storedUuid configId

/-- The tables without the row, and after its instance if that is detached. -/
def leftByRemoval (world : EstateWorld) (store : EstateStore) (row : InstanceConfigRow) : EstateStore :=
  if world.refuses (.detachInstance row.workerId row.instanceName world.clock) then store.remove row.id
  else (store.remove row.id).marked row.key (some world.clock)

theorem EstateStore.eq_of_id {row other : InstanceConfigRow} (held : row ∈ store.configs)
    (there : other ∈ store.configs) (same : row.id = other.id) : row = other :=
  List.inj_on_of_nodup_map store.primary held there same

/-- Nothing is removed where no row has the id. -/
theorem EstateStore.remove_absent {id : JsString} (absent : ∀ row ∈ store.configs, row.id ≠ id) :
    store.remove id = store := by
  refine EstateStore.ext rfl (KeyedTable.eq_of_rows ?_) rfl rfl
  exact List.filter_eq_self.mpr fun row held => by simpa using absent row held

theorem perform_kept {configId : JsString} (kept : ∀ row, ¬ Removes world store configId row) :
    (∃ fault, perform world.respond store (deleteInstanceConfig configId) = (.error fault, store)) ∨
      perform world.respond store (deleteInstanceConfig configId) = (.ok none, store) := by
  cases taken : world.refuses (.deleteConfig configId) with
  | true =>
    have stuck : world.respond store (.deleteConfig configId) = (none, store) := statement_refused taken
    exact .inl ⟨.database, perform_call_of stuck⟩
  | false =>
    have absent : ∀ row ∈ store.configs, row.id ≠ storedUuid configId := fun row held named =>
      kept row ⟨taken, held, named⟩
    have found : (store.configs.rows.find? fun row => row.id = storedUuid configId) = none :=
      List.find?_eq_none.mpr fun row held => by simpa using absent row held
    have deleted : world.respond store (.deleteConfig configId) = (some none, store) := by
      refine (statement_done taken).trans ?_
      rw [found, store.remove_absent absent]
      rfl
    exact .inr (perform_call_of deleted)

theorem perform_removed {configId : JsString} {row : InstanceConfigRow} (removes : Removes world store configId row) :
    (world.refuses (.detachInstance row.workerId row.instanceName world.clock) = false ∧
      perform world.respond store (deleteInstanceConfig configId) =
        (.ok (some row.workerId), leftByRemoval world store row)) ∨
    (world.refuses (.detachInstance row.workerId row.instanceName world.clock) = true ∧
      perform world.respond store (deleteInstanceConfig configId) =
        (.error .database, leftByRemoval world store row)) := by
  obtain ⟨taken, held, named⟩ := removes
  obtain ⟨first, found⟩ := Option.isSome_iff_exists.mp
    (show (store.configs.rows.find? fun row => row.id = storedUuid configId).isSome from
      List.find?_isSome.mpr ⟨row, held, decide_eq_true named⟩)
  have isRow : first = row := by
    refine store.eq_of_id (List.mem_of_find?_eq_some found) held ?_
    rw [named]
    simpa using List.find?_some found
  have deleted : world.respond store (.deleteConfig configId) = (some (some row.key), store.remove row.id) := by
    refine (statement_done taken).trans ?_
    rw [found, isRow, named]
    rfl
  have clock : world.respond (store.remove row.id) .readClock = (world.clock, store.remove row.id) := rfl
  unfold leftByRemoval
  cases detached : world.refuses (.detachInstance row.workerId row.instanceName world.clock) with
  | true =>
    have stuck : world.respond (store.remove row.id) (.detachInstance row.workerId row.instanceName world.clock) =
        (none, store.remove row.id) := statement_refused detached
    exact .inr ⟨rfl, ((perform_call_of deleted).trans (perform_call_of clock)).trans
      (perform_bind_error (perform_call_of stuck))⟩
  | false =>
    have marks : world.respond (store.remove row.id) (.detachInstance row.workerId row.instanceName world.clock) =
        (some (), (store.remove row.id).marked row.key (some world.clock)) := by
      refine (statement_done detached).trans ?_
      rw [store.stored row held]
      rfl
    exact .inl ⟨rfl, ((perform_call_of deleted).trans (perform_call_of clock)).trans
      (perform_bind (perform_call_of marks))⟩

/-! ## Requests -/

/-- Only the named worker is touched, and an error leaves everything as it was. -/
structure Clean (workerId : JsString) (before after : EstateStore) (reply : InstanceConfigReply) : Prop where
  others : OthersKept workerId before after
  onError : reply.IsError → after = before

theorem Clean.refl (workerId : JsString) (store : EstateStore) (reply : InstanceConfigReply) :
    Clean workerId store store reply := ⟨.refl workerId store, fun _ => rfl⟩

def replyOf : Except RouteFault InstanceConfigReply → InstanceConfigReply
  | .ok reply => reply
  | .error fault => errorReply fault

theorem database_isError : (replyOf (.error .database)).IsError := show 400 ≤ 500 by decide

theorem notFound_isError : (InstanceConfigReply.failed 404 (js "NotFound") none).IsError := show 400 ≤ 404 by decide

theorem not_isError_of_status {reply : InstanceConfigReply} (fine : reply.status = 200) : ¬ reply.IsError := by
  unfold InstanceConfigReply.IsError
  rw [fine]
  decide

/-- Once a save has written, either nothing more is refused or the row was there already. -/
def SaveCareful (isUuid : JsString → Bool) (world : EstateWorld) (store : EstateStore) (request : InstanceConfigRequest)
    (user : SignedInUser) (body : JsonValue) : Prop :=
  isUuid request.workerId = true → ∀ parsed, parseBody body = some parsed →
    Writes world store (parsed.input request.workerId user) →
      IsReadBack world (parsed.input request.workerId user) ∧
          IsRecorded world (savedEntry request user parsed) request.workerId ∨
        StoredAlready world store (parsed.input request.workerId user)

/-- What is removed is of the worker that the path spells, and nothing more is refused. -/
def RemoveCareful (isUuid : JsString → Bool) (world : EstateWorld) (store : EstateStore)
    (request : InstanceConfigRequest) (user : SignedInUser) (configId : JsString) : Prop :=
  isUuid request.workerId = true → isUuid configId = true → ∀ row, Removes world store configId row →
    row.workerId = request.workerId ∧
      world.refuses (.detachInstance row.workerId row.instanceName world.clock) = false ∧
      IsRecorded world (removedEntry request user configId) request.workerId

theorem clean_save (isUuid : JsString → Bool) (world : EstateWorld) (store : EstateStore)
    (request : InstanceConfigRequest) (user : SignedInUser) (body : JsonValue) : ∃ result after,
    perform world.respond store (putConfig isUuid request user body) = (result, after) ∧
      (Clean (storedUuid request.workerId) store after (replyOf result) ↔
        SaveCareful isUuid world store request user body) := by
  unfold putConfig
  by_cases valid : isUuid request.workerId = true
  case neg =>
    rw [if_neg valid]
    exact ⟨_, store, rfl, iff_of_true (.refl _ _ _) fun isValid => absurd isValid valid⟩
  rw [if_pos valid]
  cases read : parseBody body with
  | none =>
    refine ⟨_, store, rfl, iff_of_true (.refl _ _ _) fun _ parsed same => ?_⟩
    rw [read] at same
    cases same
  | some parsed =>
    by_cases writes : Writes world store (parsed.input request.workerId user)
    case neg =>
      obtain ⟨fault, failed⟩ := perform_unwritten writes
      refine ⟨_, store, perform_bind_error failed, iff_of_true (.refl _ _ _) fun _ other same written => ?_⟩
      rw [read] at same
      cases same
      exact absurd written writes
    let left := leftBySave world store (parsed.input request.workerId user) writes.fits
    have others : OthersKept (storedUuid request.workerId) store left := othersKept_save writes.fits
    -- what the route throws after the write is an error, and the write stands
    have thrown (unfinished : ¬ (IsReadBack world (parsed.input request.workerId user) ∧
        IsRecorded world (savedEntry request user parsed) request.workerId)) :
        Clean (storedUuid request.workerId) store left (replyOf (.error .database)) ↔
          SaveCareful isUuid world store request user body := by
      constructor
      · intro clean _ other same _
        rw [read] at same
        cases same
        exact .inr ((leftBySave_eq_iff writes.fits).mp (clean.onError database_isError))
      · intro careful
        exact ⟨others, fun _ => (leftBySave_eq_iff writes.fits).mpr
          ((careful valid parsed read writes).resolve_left unfinished)⟩
    rcases perform_written writes with ⟨back, saved, done⟩ | ⟨stuck, failed⟩
    · rcases perform_record world left (savedEntry request user parsed) request.workerId with
        ⟨records, delivered, sent⟩ | ⟨stuck, failed⟩
      · refine ⟨_, left, (perform_bind done).trans (perform_bind sent), ?_⟩
        refine iff_of_true ⟨others, fun error => absurd error (not_isError_of_status rfl)⟩ fun _ other same _ => ?_
        rw [read] at same
        cases same
        exact .inl ⟨back, records⟩
      · exact ⟨_, left, (perform_bind done).trans (perform_bind_error failed), thrown fun both => stuck both.2⟩
    · exact ⟨_, left, perform_bind_error failed, thrown fun both => stuck both.1⟩

/-- Removing a row of a worker touches no other worker. -/
theorem othersKept_removal {row : InstanceConfigRow} (held : row ∈ store.configs) :
    OthersKept row.workerId store (leftByRemoval world store row) := by
  have removed : OthersKept row.workerId store (store.remove row.id) := by
    refine ⟨fun other apart => ?_, fun key _ => ⟨rfl, rfl⟩⟩
    refine KeyedTable.mem_remove.trans ⟨And.left, fun there => ⟨there, ?_⟩⟩
    refine decide_eq_false fun same => apart ?_
    rw [store.eq_of_id there held same]
  unfold leftByRemoval
  split
  · exact removed
  · exact removed.marked rfl _

theorem leftByRemoval_ne {row : InstanceConfigRow} (held : row ∈ store.configs) :
    leftByRemoval world store row ≠ store := by
  intro same
  have kept : row ∈ (store.remove row.id).configs := by
    have configs : (leftByRemoval world store row).configs = (store.remove row.id).configs := by
      unfold leftByRemoval
      split <;> rfl
    rw [← configs, same]
    exact held
  simpa using (KeyedTable.mem_remove.mp kept).2

/-- The owner of the row is compared with the path, and the tables stay as they are either way. -/
theorem perform_answerRemoval (world : EstateWorld) (store : EstateStore) (request : InstanceConfigRequest)
    (user : SignedInUser) (configId owner : JsString) :
    (owner ≠ request.workerId ∧ perform world.respond store (answerRemoval request user configId (some owner)) =
      (.ok (.failed 404 (js "NotFound") none), store)) ∨
    (owner = request.workerId ∧ IsRecorded world (removedEntry request user configId) request.workerId ∧
      perform world.respond store (answerRemoval request user configId (some owner)) = (.ok .removed, store)) ∨
    (¬ IsRecorded world (removedEntry request user configId) request.workerId ∧
      perform world.respond store (answerRemoval request user configId (some owner)) = (.error .database, store)) := by
  unfold answerRemoval
  by_cases own : owner = request.workerId
  case neg =>
    rw [if_pos (by simpa using own)]
    exact .inl ⟨own, rfl⟩
  rw [if_neg (by simpa using own)]
  rcases perform_record world store (removedEntry request user configId) request.workerId with
    ⟨records, delivered, sent⟩ | ⟨stuck, failed⟩
  · exact .inr (.inl ⟨own, records, perform_bind sent⟩)
  · exact .inr (.inr ⟨stuck, perform_bind_error failed⟩)

theorem clean_remove (isUuid : JsString → Bool) (world : EstateWorld) (store : EstateStore)
    (request : InstanceConfigRequest) (user : SignedInUser) (configId : JsString) : ∃ result after,
    perform world.respond store (deleteConfig isUuid request user configId) = (result, after) ∧
      (Clean (storedUuid request.workerId) store after (replyOf result) ↔
        RemoveCareful isUuid world store request user configId) := by
  unfold deleteConfig
  by_cases valid : (isUuid request.workerId && isUuid configId) = true
  case neg =>
    rw [if_neg valid]
    refine ⟨_, store, rfl, iff_of_true (.refl _ _ _) fun worker config => ?_⟩
    rw [worker, config] at valid
    exact absurd rfl valid
  rw [if_pos valid]
  rw [Bool.and_eq_true] at valid
  by_cases removal : ∃ row, Removes world store configId row
  case neg =>
    have kept : ∀ row, ¬ Removes world store configId row := not_exists.mp removal
    have careful : RemoveCareful isUuid world store request user configId := fun _ _ row removes =>
      absurd removes (kept row)
    rcases perform_kept kept with ⟨fault, failed⟩ | absent
    · exact ⟨_, store, perform_bind_error failed, iff_of_true (.refl _ _ _) careful⟩
    · refine ⟨_, store, perform_bind absent, iff_of_true (.refl _ _ _) careful⟩
  obtain ⟨row, removes⟩ := removal
  let left := leftByRemoval world store row
  -- an error comes too late: the row is gone
  have late {reply : InstanceConfigReply} (error : reply.IsError)
      (careless : ¬ (row.workerId = request.workerId ∧
        world.refuses (.detachInstance row.workerId row.instanceName world.clock) = false ∧
        IsRecorded world (removedEntry request user configId) request.workerId)) :
      Clean (storedUuid request.workerId) store left reply ↔
        RemoveCareful isUuid world store request user configId :=
    iff_of_false (fun clean => leftByRemoval_ne removes.held (clean.onError error)) fun careful =>
      careless (careful valid.1 valid.2 row removes)
  rcases perform_removed removes with ⟨detached, done⟩ | ⟨stuck, failed⟩
  case inr =>
    refine ⟨_, left, perform_bind_error failed, late database_isError fun careful => ?_⟩
    rw [careful.2.1] at stuck
    cases stuck
  rcases perform_answerRemoval world left request user configId row.workerId with
    ⟨apart, refused⟩ | ⟨own, records, answered⟩ | ⟨stuck, failed⟩
  · exact ⟨_, left, (perform_bind done).trans refused, late notFound_isError fun careful => apart careful.1⟩
  · refine ⟨.ok .removed, left, (perform_bind done).trans answered, ?_⟩
    have others : OthersKept (storedUuid request.workerId) store left := by
      rw [← own, store.stored row removes.held]
      exact othersKept_removal removes.held
    refine iff_of_true ⟨others, fun error => absurd error (not_isError_of_status rfl)⟩ fun _ _ other there => ?_
    rw [store.eq_of_id there.held removes.held (there.named.trans removes.named.symm)]
    exact ⟨own, detached, records⟩
  · exact ⟨_, left, (perform_bind done).trans failed, late database_isError fun careful => stuck careful.2.2⟩

def ActionCareful (isUuid : JsString → Bool) (world : EstateWorld) (store : EstateStore)
    (request : InstanceConfigRequest) (user : SignedInUser) : InstanceConfigAction → Prop
  | .save body => SaveCareful isUuid world store request user body
  | .remove configId => RemoveCareful isUuid world store request user configId

/-- What the guard lets through is careful. -/
def Careful (isUuid : JsString → Bool) (world : EstateWorld) (store : EstateStore) (request : InstanceConfigRequest) :
    Prop :=
  ∀ user, request.guarded = .ok user → ActionCareful isUuid world store request user request.action

theorem clean_route (isUuid : JsString → Bool) (world : EstateWorld) (store : EstateStore)
    (request : InstanceConfigRequest) (user : SignedInUser) : ∃ result after,
    perform world.respond store (route isUuid request user) = (result, after) ∧
      (Clean (storedUuid request.workerId) store after (replyOf result) ↔
        ActionCareful isUuid world store request user request.action) := by
  unfold route
  cases request.action with
  | save body => exact clean_save isUuid world store request user body
  | remove configId => exact clean_remove isUuid world store request user configId

/-- Whatever a route ends with becomes the reply. -/
theorem perform_answer {isUuid : JsString → Bool} {request : InstanceConfigRequest} {user : SignedInUser}
    {result : Except RouteFault InstanceConfigReply} {after : EstateStore} (guarded : request.guarded = .ok user)
    (ran : perform world.respond store (route isUuid request user) = (result, after)) :
    perform world.respond store (answer isUuid request) = (.ok (replyOf result), after) := by
  unfold answer
  rw [guarded]
  cases result with
  | ok reply => exact perform_tryCatch ran
  | error fault => exact perform_tryCatch_error ran

end

/-- **Every request is answered, and it is clean exactly if it is careful.** -/
theorem clean_iff_careful (isUuid : JsString → Bool) (world : EstateWorld) (store : EstateStore)
    (request : InstanceConfigRequest) : ∃ reply after,
    perform world.respond store (answer isUuid request) = (.ok reply, after) ∧
      (Clean (storedUuid request.workerId) store after reply ↔ Careful isUuid world store request) := by
  cases guarded : request.guarded with
  | error status =>
    refine ⟨.stopped status, store, ?_, iff_of_true (.refl _ _ _) fun user passed => ?_⟩
    · unfold answer
      rw [guarded]
      rfl
    · rw [guarded] at passed
      cases passed
  | ok user =>
    obtain ⟨result, after, ran, exact_⟩ := clean_route isUuid world store request user
    refine ⟨replyOf result, after, perform_answer guarded ran, exact_.trans ⟨fun careful other passed => ?_, ?_⟩⟩
    · rw [guarded] at passed
      cases passed
      exact careful
    · exact fun careful => careful user guarded

/-! ## Another worker's configuration -/

section Samples

def ours : JsString := js "11111111-1111-4111-8111-111111111111"

def theirs : JsString := js "22222222-2222-4222-8222-222222222222"

def theirConfig : InstanceConfigRow where
  id := js "33333333-3333-4333-8333-333333333333"
  workerId := theirs
  instanceName := js "SQL01"
  serverAddress := js "localhost"
  authMode := .integrated
  loginName := none
  credentialCiphertext := none
  credentialKeyFingerprint := none
  credentialUpdatedAt := none
  credentialUpdatedBy := none
  encryptTls := true
  trustServerCertificate := false
  environmentTag := none
  status := .connected
  statusDetail := none
  statusAt := some 0
  createdBy := none

def sampleWorkers (workerId : JsString) : Option WorkersRow :=
  if workerId = ours ∨ workerId = theirs then some {
    hostName := workerId, capabilities := [], version := none, maxCapabilityReported := none
    credentialPublicKeyPem := none, credentialKeyFingerprint := none, certSerial := none, certExpiresAt := none
    connectedAt := none, lastSeenAt := none, lastRemoteAddress := none }
  else none

theorem theirConfig_stored (row : InstanceConfigRow)
    (held : row ∈ (⟨[theirConfig], by decide⟩ : KeyedTable InstanceConfigRow.key)) :
    storedUuid row.workerId = row.workerId := by
  rw [List.mem_singleton.mp held]
  decide

def sampleEstate : EstateStore where
  workers := sampleWorkers
  configs := ⟨[theirConfig], by decide⟩
  detachedAt _ := none
  hasInstance key := key = theirConfig.key
  unmarked _ _ := rfl
  primary := by decide
  stored := theirConfig_stored

/-- Nothing is refused. -/
def sampleWorld : EstateWorld where
  table := basicTable
  clock := 1000
  newId := js "44444444-4444-4444-8444-444444444444"
  live _ := false
  refuses _ := false

def removeTheirs : InstanceConfigRequest where
  guarded := .ok ⟨js "u1", js "admin"⟩
  ip := js "10.0.0.1"
  workerId := ours
  action := .remove theirConfig.id

/-- It is answered that there is no such configuration. It was removed, and its instance detached. -/
theorem theirs_removed : ∃ after,
    perform sampleWorld.respond sampleEstate (answer (fun text => text.length = 36) removeTheirs) =
        (.ok (.failed 404 (js "NotFound") none), after) ∧
      after.configs.rows = [] ∧ after.detachedAt theirConfig.key = some 1000 ∧
      ¬ Clean (storedUuid removeTheirs.workerId) sampleEstate after (.failed 404 (js "NotFound") none) := by
  refine ⟨_, rfl, by decide, by decide, fun clean => ?_⟩
  have same := congrArg (fun store : EstateStore => store.configs.rows.length) (clean.onError notFound_isError)
  exact absurd same (by decide)

end Samples

end RemoteSqlAgent
