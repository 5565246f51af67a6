import RemoteSqlAgent.FourEyes
import RemoteSqlAgent.TracedRuns

/-! Where the commands come from that the control plane sends. What a command is to do is what
was asked for when it was created: no statement changes it, and what is sent is built from it. -/
namespace RemoteSqlAgent
open Js CallProgram

/-- The row is of the command that was created with these values. -/
structure CommandRow.Of (row : CommandRow) (values : CommandValues) : Prop where
  type : row.type = values.type
  payload : row.payload = values.payload
  instanceId : row.instanceId = values.instanceId
  workerId : row.workerId = values.workerId
  issuedBy : row.issuedBy = some values.issuedBy

theorem CommandUpdate.apply_of {row : CommandRow} {values : CommandValues} (isOf : row.Of values)
    (update : CommandUpdate) : (update.apply row).Of values := by
  cases update <;> exact ⟨isOf.type, isOf.payload, isOf.instanceId, isOf.workerId, isOf.issuedBy⟩

/-- Every row is of the one command that was created under its id. -/
structure AsCreated (store : CommandStore) : Prop where
  created : ∀ id row, store.commands id = some row → ∃ values, (id, values) ∈ store.issued ∧ row.Of values
  there : ∀ id ∈ store.issued.map Prod.fst, (store.commands id).isSome = true
  once : (store.issued.map Prod.fst).Nodup

theorem asCreated_empty : AsCreated .empty where
  created id row found := by cases found
  there id member := by cases member
  once := List.nodup_nil

theorem AsCreated.unique {store : CommandStore} (asCreated : AsCreated store) {id : JsString}
    {values others : CommandValues} (member : (id, values) ∈ store.issued) (there : (id, others) ∈ store.issued) :
    values = others :=
  (Prod.mk.inj (List.inj_on_of_nodup_map asCreated.once member there rfl)).2

theorem AsCreated.after {store after : CommandStore} {request : CommandCall} {answer : CommandAnswer request}
    (asCreated : AsCreated store) (does : request.Does store answer after) : AsCreated after := by
  have here {id : JsString} {row : CommandRow} (found : store.commands id = some row) :
      ∃ later, after.commands id = some later ∧ ∀ values, row.Of values → later.Of values := by
    obtain ⟨later, stands, ⟨update, -, rfl⟩ | ⟨-, rfl | ⟨-, at_, rfl⟩⟩⟩ := does_row does found
    · exact ⟨_, stands, fun values isOf => update.apply_of isOf⟩
    · exact ⟨_, stands, fun values isOf => isOf⟩
    · exact ⟨_, stands, fun values isOf =>
        ⟨isOf.type, isOf.payload, isOf.instanceId, isOf.workerId, isOf.issuedBy⟩⟩
  rcases does_rows does with ⟨fresh, values, issuedAt, absent, rfl⟩ | ⟨same, absent⟩
  · have new : fresh ∉ store.issued.map Prod.fst := fun member => by
      have found := asCreated.there fresh member
      rw [absent] at found
      cases found
    refine ⟨fun id row found => ?_, fun id member => ?_, ?_⟩
    · by_cases isNew : id = fresh
      · subst isNew
        simp only [CommandStore.insert, Function.update_self, Option.some.injEq] at found
        subst found
        exact ⟨values, List.mem_append_right _ List.mem_cons_self, rfl, rfl, rfl, rfl, rfl⟩
      · simp only [CommandStore.insert, Function.update_of_ne isNew] at found
        obtain ⟨others, member, isOf⟩ := asCreated.created id row found
        exact ⟨others, List.mem_append_left _ member, isOf⟩
    · by_cases isNew : id = fresh
      · simp [CommandStore.insert, isNew]
      · simp only [CommandStore.insert, List.map_append, List.mem_append, List.map_cons, List.map_nil,
          List.mem_singleton, isNew, or_false, Function.update_of_ne isNew] at member ⊢
        exact asCreated.there id member
    · simp only [CommandStore.insert, List.map_append, List.map_cons, List.map_nil]
      exact List.Nodup.append asCreated.once (List.nodup_singleton _) (List.disjoint_singleton.mpr new)
  · refine ⟨fun id row found => ?_, fun id member => ?_, same ▸ asCreated.once⟩
    · cases stood : store.commands id with
      | none =>
        rw [absent id stood] at found
        cases found
      | some before =>
        obtain ⟨later, stands, keeps⟩ := here stood
        cases found.symm.trans stands
        obtain ⟨values, member, isOf⟩ := asCreated.created id before stood
        exact ⟨values, same ▸ member, keeps values isOf⟩
    · obtain ⟨row, stood⟩ := Option.isSome_iff_exists.mp (asCreated.there id (same ▸ member))
      obtain ⟨later, stands, -⟩ := here stood
      rw [stands]
      rfl

/-- No command that was created is forgotten. -/
theorem does_issued {store after : CommandStore} {request : CommandCall} {answer : CommandAnswer request}
    (does : request.Does store answer after) {entry : JsString × CommandValues} (member : entry ∈ store.issued) :
    entry ∈ after.issued := by
  rcases does_rows does with ⟨id, values, issuedAt, -, rfl⟩ | ⟨same, -⟩
  · exact List.mem_append_left _ member
  · exact same ▸ member

/-! ## What is sent -/

/-- A message is what a row says, signed now. -/
structure BuiltFrom (config : ServiceConfig) (row : CommandRow) (instanceName : JsString) (command : Command) :
    Prop where
  instanceName : command.instanceName = instanceName
  payload : command.payload = some (buildProtoPayload row.type row.payload)
  issuedAt : ∃ now, command.issuedAt = some (toTimestamp now)
  signature : ∃ bytes, commandSigningBytes config.crypto command.toObject = .ok bytes ∧
    command.signature = config.sign bytes

/-- What is sent was found approved, and is built from what was found. -/
def SendRule (config : ServiceConfig) (said : List (Exchange CommandAnswer)) : CommandCall → Prop
  | .send workerId command => ∃ row instanceName,
      ⟨.selectDispatch command.id, .ok (some (row, instanceName))⟩ ∈ said ∧ row.state = .approved ∧
        row.workerId = workerId ∧ BuiltFrom config row instanceName command
  | _ => True

section Operations
variable {config : ServiceConfig} {said : List (Exchange CommandAnswer)}

private theorem sendRule_markExpired (commandId : JsString) : Obeys (SendRule config) said (markExpired commandId) :=
  .call trivial fun _ => .call trivial fun answer => obeys_orFail answer

private theorem sendRule_hasExpired (expiresAt : Option Int) :
    Obeys (SendRule config) said (hasExpired expiresAt) := by
  cases expiresAt with
  | none => exact .done false
  | some time => exact .call trivial fun now => .done _

theorem sendRule_sendLive {commandId : JsString} {row : CommandRow} {instanceName : JsString}
    (read : ⟨.selectDispatch commandId, .ok (some (row, instanceName))⟩ ∈ said) (approved : row.state = .approved) :
    Obeys (SendRule config) said (sendLive config commandId row instanceName) := by
  refine .call trivial fun live : Bool => .ite (fun _ => .call trivial fun now : Int => ?_) fun _ => .done false
  dsimp only
  cases signed : signCommand config (buildProtoCommand commandId row.type instanceName row.payload now) with
  | error error => exact .throw _
  | ok signature =>
    refine .call ?_ fun _ => .call trivial fun at_ => .ask trivial fun answer =>
      (obeys_orFail answer).bind fun _ _ => .done true
    refine ⟨row, instanceName, ?_, approved, rfl, rfl, rfl, ⟨now, rfl⟩, ?_⟩
    · simp only [List.append_assoc]
      exact List.mem_append_left _ read
    · -- The signed bytes leave the signature out.
      unfold signCommand at signed
      cases isBytes : commandSigningBytes config.crypto
          (buildProtoCommand commandId row.type instanceName row.payload now).toObject with
      | error error =>
        rw [isBytes] at signed
        cases signed
      | ok bytes =>
        rw [isBytes] at signed
        exact ⟨bytes, isBytes, (Except.ok.inj signed).symm⟩

theorem sendRule_dispatch (commandId : JsString) : Obeys (SendRule config) said (dispatch config commandId) := by
  refine .ask trivial fun answer => ?_
  cases answer with
  | error message => exact .throw _
  | ok found =>
    cases found with
    | none => exact .done false
    | some found =>
      obtain ⟨row, instanceName⟩ := found
      refine .ite (fun _ => .done false) fun approved => (sendRule_hasExpired _).bind fun expired later =>
        .ite (fun _ => (sendRule_markExpired _).bind fun _ _ => .done false) fun _ =>
          sendRule_sendLive ?_ (not_ne_iff.mp approved)
      exact List.mem_append_left _ (List.mem_append_right _ List.mem_cons_self)

theorem sendRule_dispatchEach (ids : List JsString) : Obeys (SendRule config) said (dispatchEach config ids) := by
  induction ids generalizing said with
  | nil => exact .done _
  | cons id rest ih => exact (sendRule_dispatch id).bind fun _ _ => ih.bind fun _ _ => .done _

/-- Every operation sends what it found. -/
theorem sendRule_body (operation : CommandOperation) : Obeys (SendRule config) [] (operation.body config) := by
  cases operation with
  | create input =>
    refine Obeys.bind ((obeys_effectiveCapabilitiesFor trivial).bind fun effective later => ?_) fun _ _ => .done ()
    refine .ite (fun _ => .throw _) fun _ => .call trivial fun approvedAt => .call trivial fun expiryBase => ?_
    refine .ask trivial fun answer => (obeys_orFail answer).bind fun inserted later => ?_
    refine (obeys_writeAudit trivial).bind fun _ _ => .ite (fun _ => .done _) fun _ => ?_
    exact (sendRule_dispatch _).bind fun _ _ => .done _
  | approve commandId approverId approverUsername remoteAddress =>
    refine .ask trivial fun answer => (obeys_orFail answer).bind fun found later => ?_
    cases found with
    | none => exact .throw _
    | some row =>
      refine .ite (fun _ => .throw _) fun _ => .ite (fun _ => .throw _) fun _ => ?_
      refine (sendRule_hasExpired _).bind fun expired _ => .ite
        (fun _ => (sendRule_markExpired _).bind fun _ _ => .throw _) fun _ => .call trivial fun at_ => ?_
      refine .ask trivial fun answer => (obeys_orFail answer).bind fun _ _ =>
        (obeys_writeAudit trivial).bind fun _ _ => ?_
      exact (sendRule_dispatch _).bind fun _ _ => .done _
  | reject commandId rejectorUsername reason remoteAddress =>
    refine .ask trivial fun answer => (obeys_orFail answer).bind fun found later => ?_
    cases found with
    | none => exact .throw _
    | some row =>
      refine .ite (fun _ => .throw _) fun _ => .call trivial fun at_ => .ask trivial fun answer => ?_
      exact (obeys_orFail answer).bind fun _ _ => obeys_writeAudit trivial
  | dispatch commandId => exact (sendRule_dispatch _).bind fun _ _ => .done ()
  | dispatchPendingFor workerId =>
    refine Obeys.bind (.ask trivial fun answer => (obeys_orFail answer).bind fun ids _ => ?_) fun _ _ => .done ()
    exact sendRule_dispatchEach ids
  | recordResult params =>
    refine Obeys.bind (.ask trivial fun answer => (obeys_orFail answer).bind fun found later => ?_) fun _ _ => .done ()
    cases found with
    | none => exact .done _
    | some row =>
      refine .call trivial fun at_ => .ask trivial fun answer => (obeys_orFail answer).bind fun _ _ => ?_
      refine (obeys_writeAudit trivial).bind fun _ _ => ?_
      cases row.issuedBy with
      | none => exact .done _
      | some issuedBy => exact .ask trivial fun answer => (obeys_orFail answer).bind fun _ _ => .done _
  | expireStale =>
    refine Obeys.bind (.call trivial fun _ => .call trivial fun _ => .ask trivial fun answer => ?_) fun _ _ => .done ()
    exact (obeys_orFail answer).bind fun _ _ => .done _
  | markExpired commandId => exact sendRule_markExpired _

end Operations

/-! ## Runs -/

/-- The command of a row that was found was created with these values. -/
def FoundCreated (exchange : Exchange CommandAnswer) (store : CommandStore) : Prop :=
  ∀ id row, foundRow id exchange = some row → ∃ values, (id, values) ∈ store.issued ∧ row.Of values

section Runs
variable {config : ServiceConfig} {run : List CommandStep}
  {pool : Pool CommandAnswer ServiceError Unit CommandStore CommandOperation}

theorem as_created (reaches : Reaches CommandCall.Does (CommandOperation.body config) .empty pool run) :
    AsCreated pool.state ∧ ∀ step ∈ run, AsCreated step.before :=
  reaches.invariant AsCreated asCreated_empty fun step member asCreated => asCreated.after (reaches.does step member)

/-- A command that was created is known ever after. -/
theorem issued_in_the_end (reaches : Reaches CommandCall.Does (CommandOperation.body config) .empty pool run)
    {step : CommandStep} (member : step ∈ run) {entry : JsString × CommandValues}
    (known : entry ∈ step.before.issued) : entry ∈ pool.state.issued := by
  let holds : CommandStore → Prop := fun store => entry ∈ store.issued
  have first : holds step.after := does_issued (reaches.does step member) known
  exact reaches.lasts member first fun other there held => does_issued (reaches.does other there) held

/-- A gated command that was found approved has an approver who did not issue it. -/
theorem approved_when_found (reaches : Reaches CommandCall.Does (CommandOperation.body config) .empty pool run)
    {step : CommandStep} (member : step ∈ run) {exchange : Exchange CommandAnswer} (heard : exchange ∈ step.said)
    {id : JsString} {row : CommandRow} (found : foundRow id exchange = some row) (approved : row.state = .approved)
    (gated : Gated step.before id) :
    ∃ standing approver, step.before.commands id = some standing ∧ standing.approvedBy = some approver ∧
      standing.issuedBy ≠ some approver := by
  have kept : ∀ taken ∈ run, Approvals taken.before → Approvals taken.after := fun taken there approvals =>
    approvals.after (reaches.does taken there) fun id row approver at_ found updated =>
      approved_by_another reaches there found updated
  have approvals := (reaches.invariant Approvals approvals_empty kept).2
  have known := (reaches.told Approved
    (fun taken there id row read isApproved => by
      have standing := does_found (reaches.does taken there) read
      refine ⟨row, standing, fun gate => ?_⟩
      obtain ⟨other, stands, seen⟩ := (kept taken there (approvals taken there)).gated id gate
      cases standing.symm.trans stands
      exact seen isApproved)
    (fun taken there exchange known id row read isApproved => by
      obtain ⟨standing, stands, seen⟩ := known id row read isApproved
      have does := reaches.does taken there
      by_cases gate : Gated taken.before id
      · obtain ⟨later, stood, still⟩ := approver_stays does stands (seen gate)
        exact ⟨later, stood, fun _ => still⟩
      · obtain ⟨later, stood, -⟩ := issuer_stays does stands
        exact ⟨later, stood, fun after => absurd (after.before does stands) gate⟩)).2 step member exchange heard
  obtain ⟨standing, stands, seen⟩ := known id row found approved
  obtain ⟨approver, who⟩ := Option.isSome_iff_exists.mp (seen gated)
  exact ⟨standing, approver, stands, who, (approvals step member).another id standing approver stands who⟩

/-- What the control plane sent is what somebody asked for and, where that is needed, somebody else
had approved. -/
structure SentAsCreated (config : ServiceConfig) (store : CommandStore) (step : CommandStep) (workerId : JsString)
    (command : Command) (values : CommandValues) : Prop where
  created : (command.id, values) ∈ store.issued
  worker : workerId = values.workerId
  payload : command.payload = some (buildProtoPayload values.type values.payload)
  signature : ∃ bytes, commandSigningBytes config.crypto command.toObject = .ok bytes ∧
    command.signature = config.sign bytes
  approved : values.state = .pending_approval → ∃ row approver, step.before.commands command.id = some row ∧
    row.approvedBy = some approver ∧ approver ≠ values.issuedBy

theorem sent_as_created (reaches : Reaches CommandCall.Does (CommandOperation.body config) .empty pool run)
    {step : CommandStep} (member : step ∈ run) {workerId : JsString} {command : Command}
    (sends : step.request = .send workerId command) :
    ∃ values, SentAsCreated config pool.state step workerId command values := by
  have rule := (reaches.allowed (fun _ => SendRule config) fun operation => sendRule_body operation).2 step member
  rw [sends] at rule
  obtain ⟨row, instanceName, heard, approved, isWorker, built⟩ := rule
  have found : foundRow command.id ⟨.selectDispatch command.id, .ok (some (row, instanceName))⟩ = some row :=
    if_pos rfl
  have known := (reaches.told FoundCreated
    (fun taken there id row read => ((as_created reaches).2 taken there |>.after (reaches.does taken there)).created id row
      (does_found (reaches.does taken there) read))
    (fun taken there exchange known id row read => by
      obtain ⟨values, issued, isOf⟩ := known id row read
      exact ⟨values, does_issued (reaches.does taken there) issued, isOf⟩)).2 step member _ heard
  obtain ⟨values, issued, isOf⟩ := known command.id row found
  refine ⟨values, issued_in_the_end reaches member issued, isWorker.symm.trans isOf.workerId, ?_, built.signature, ?_⟩
  · rw [built.payload, isOf.type, isOf.payload]
  · intro pending
    obtain ⟨standing, approver, stands, who, another⟩ :=
      approved_when_found reaches member heard found approved ⟨values, issued, pending⟩
    refine ⟨standing, approver, stands, who, ?_⟩
    have asCreated := (as_created reaches).2 step member
    obtain ⟨others, there, isStanding⟩ := asCreated.created command.id standing stands
    rw [isStanding.issuedBy, asCreated.unique there issued] at another
    exact fun same => another (congrArg some same.symm)

end Runs

end RemoteSqlAgent
