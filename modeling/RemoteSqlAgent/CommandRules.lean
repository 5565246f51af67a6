import RemoteSqlAgent.CommandService

/-! What the operations on commands go by. Each reads a command and then acts on
the row it found, whatever the row is by then. What an operation was told is a
list of calls with their answers; the row it last found is looked up there. -/
namespace RemoteSqlAgent
open Js CallProgram

/-- The row in which a call found a command. -/
def foundRow (id : JsString) : Exchange CommandAnswer → Option CommandRow
  | ⟨.selectCommand other, .ok (some row)⟩ => if other = id then some row else none
  | ⟨.selectDispatch other, .ok (some (row, _))⟩ => if other = id then some row else none
  | ⟨.selectForWorker other _, .ok (some row)⟩ => if other = id then some row else none
  | _ => none

/-- The row in which an operation last found a command. -/
def lastFound (said : List (Exchange CommandAnswer)) (id : JsString) : Option CommandRow :=
  (said.filterMap (foundRow id)).getLast?

/-- The update that a call makes of a command by its id. -/
def updateOf (id : JsString) (row : CommandRow) : Exchange CommandAnswer → Option CommandUpdate
  | ⟨.updateCommand other update, .ok _⟩ => if id = other then some update else none
  | ⟨.updateForWorker other workerId update, .ok _⟩ =>
    if id = other ∧ row.workerId = workerId then some update else none
  | _ => none

/-! ## What a step does to a command -/

@[simp] theorem CommandUpdate.apply_state (update : CommandUpdate) (row : CommandRow) :
    (update.apply row).state = update.state := by
  cases update <;> rfl

@[simp] theorem CommandUpdate.apply_issuedBy (update : CommandUpdate) (row : CommandRow) :
    (update.apply row).issuedBy = row.issuedBy := by
  cases update <;> rfl

/-- A row after a step: updated by its id, expired, or as it was. -/
theorem does_row {store after : CommandStore} {request : CommandCall} {answer : CommandAnswer request}
    (does : request.Does store answer after) {id : JsString} {row : CommandRow}
    (found : store.commands id = some row) :
    ∃ later, after.commands id = some later ∧
      ((∃ update, updateOf id row ⟨request, answer⟩ = some update ∧ later = update.apply row) ∨
        (updateOf id row ⟨request, answer⟩ = none ∧
          (later = row ∨ (row.state ∈ STALE_COMMAND_STATES ∧ ∃ at_, later = row.expire at_)))) := by
  have same (unchanged : after = store) (none : updateOf id row ⟨request, answer⟩ = none) :
      ∃ later, after.commands id = some later ∧
        ((∃ update, updateOf id row ⟨request, answer⟩ = some update ∧ later = update.apply row) ∨
          (updateOf id row ⟨request, answer⟩ = Option.none ∧
            (later = row ∨ (row.state ∈ STALE_COMMAND_STATES ∧ ∃ at_, later = row.expire at_)))) :=
    ⟨row, unchanged ▸ found, .inr ⟨none, .inl rfl⟩⟩
  cases request with
  | insertCommand values =>
    cases answer with
    | error message => exact same does rfl
    | ok inserted =>
      obtain ⟨issuedAt, fresh, -, rfl⟩ := does
      have other : id ≠ inserted.1 := by
        rintro rfl
        rw [fresh] at found
        cases found
      exact ⟨row, by simp [CommandStore.insert, other, found], .inr ⟨rfl, .inl rfl⟩⟩
  | selectCommand commandId | selectDispatch commandId | selectForWorker commandId workerId
  | selectApproved workerId =>
    cases answer with
    | error message => exact same does rfl
    | ok answered => exact same does.1 rfl
  | selectGrant instanceId | writeAudit entry | selectUsername userId =>
    cases answer <;> exact same does rfl
  | updateCommand commandId update =>
    cases answer with
    | error message => exact same does rfl
    | ok _ =>
      subst does
      rw [CommandStore.updateRows_commands, found, Option.map_some]
      by_cases mine : id = commandId
      · exact ⟨_, rfl, .inl ⟨update, if_pos mine, if_pos mine⟩⟩
      · exact ⟨_, rfl, .inr ⟨if_neg mine, .inl (if_neg mine)⟩⟩
  | updateForWorker commandId workerId update =>
    cases answer with
    | error message => exact same does rfl
    | ok _ =>
      subst does
      rw [CommandStore.updateRows_commands, found, Option.map_some]
      by_cases mine : id = commandId ∧ row.workerId = workerId
      · exact ⟨_, rfl, .inl ⟨update, if_pos mine, if_pos mine⟩⟩
      · exact ⟨_, rfl, .inr ⟨if_neg mine, .inl (if_neg mine)⟩⟩
  | expireStale completedAt now =>
    cases answer with
    | error message => exact same does rfl
    | ok ids =>
      obtain ⟨rfl, -⟩ := does
      rw [CommandStore.updateRows_commands, found, Option.map_some]
      by_cases stale : row.isStale now
      · exact ⟨_, rfl, .inr ⟨rfl, .inr ⟨stale.1, completedAt, if_pos stale⟩⟩⟩
      · exact ⟨_, rfl, .inr ⟨rfl, .inl (if_neg stale)⟩⟩
  | readClock | isLive workerId => exact same does rfl
  | send workerId command =>
    subst does
    exact ⟨row, found, .inr ⟨rfl, .inl rfl⟩⟩

/-- What a call reads is there. -/
theorem does_found {store after : CommandStore} {request : CommandCall} {answer : CommandAnswer request}
    (does : request.Does store answer after) {id : JsString} {row : CommandRow}
    (read : foundRow id ⟨request, answer⟩ = some row) : after.commands id = some row := by
  have here {commandId : JsString} {other : CommandRow} (same : after = store)
      (found : store.commands commandId = some other)
      (mine : (if commandId = id then some other else none) = some row) : after.commands id = some row := by
    split at mine
    · rename_i equal
      rw [same, ← equal, found, mine]
    · cases mine
  cases request with
  | selectCommand commandId =>
    cases answer with
    | error message => cases read
    | ok found =>
      cases found with
      | none => cases read
      | some row => exact here does.1 does.2.symm read
  | selectDispatch commandId =>
    cases answer with
    | error message => cases read
    | ok found =>
      cases found with
      | none => cases read
      | some found => exact here does.1 does.2.symm read
  | selectForWorker commandId workerId =>
    cases answer with
    | error message => cases read
    | ok found =>
      cases found with
      | none => cases read
      | some row => exact here does.1 (Option.filter_eq_some_iff.mp does.2.symm).1 read
  | _ => cases read

theorem lastFound_mem {said : List (Exchange CommandAnswer)} {id : JsString} {row : CommandRow}
    (last : lastFound said id = some row) : ∃ exchange ∈ said, foundRow id exchange = some row :=
  List.mem_filterMap.mp (List.mem_of_getLast? last)

theorem lastFound_concat (said : List (Exchange CommandAnswer)) (exchange : Exchange CommandAnswer) (id : JsString) :
    lastFound (said ++ [exchange]) id = (foundRow id exchange).or (lastFound said id) := by
  unfold lastFound
  rw [List.filterMap_append]
  cases read : foundRow id exchange with
  | none => simp [List.filterMap_cons_none read]
  | some state => simp [List.filterMap_cons_some read]

/-! ## The calls of each operation -/

/-- What an operation goes by in each call: only `create` inserts, and what it
inserts is as its input says; an update or a sending by id goes by the row that
was found last. -/
def Follows (config : ServiceConfig) (operation : CommandOperation) (said : List (Exchange CommandAnswer)) :
    CommandCall → Prop
  | .insertCommand values => ∃ input workerId approvedAt expiryBase,
    operation = .create input ∧ values = newCommand config input workerId approvedAt expiryBase
  | .updateCommand id (.approved approver _) => ∃ row, lastFound said id = some row ∧
    row.state = .pending_approval ∧ row.issuedBy ≠ some approver
  | .updateCommand id (.rejected _ _) => ∃ row, lastFound said id = some row ∧ row.state = .pending_approval
  | .updateCommand id (.dispatched _ _) => ∃ row, lastFound said id = some row ∧ row.state = .approved
  | .updateCommand id (.expired _) => ∀ row, lastFound said id = some row →
    row.state = .pending_approval ∨ row.state = .approved
  | .updateCommand _ (.result ..) => False
  | .updateForWorker _ _ update => update.state = .succeeded ∨ update.state = .failed
  | .send _ command => ∃ row, lastFound said command.id = some row ∧ row.state = .approved
  | _ => True

section
variable {config : ServiceConfig} {operation : CommandOperation} {said : List (Exchange CommandAnswer)}
  {rule : List (Exchange CommandAnswer) → CommandCall → Prop}

/-- An answer that is handed on, or thrown, asks nothing more. -/
theorem obeys_orFail {α : Type} (answer : Except JsString α) : Obeys rule said (orFail answer) := by
  cases answer with
  | error message => exact .throw _
  | ok value => exact .done value

theorem obeys_writeAudit {entry : AuditEntry} (allowed : rule said (.writeAudit entry)) :
    Obeys rule said (CallProgram.call (.writeAudit entry) orFail : Service Unit) :=
  .call allowed fun answer => obeys_orFail answer

theorem obeys_effectiveCapabilitiesFor {instanceId : JsString} (allowed : rule said (.selectGrant instanceId)) :
    Obeys rule said (effectiveCapabilitiesFor instanceId) := by
  refine .ask allowed fun answer => (obeys_orFail answer).bind fun found _ => ?_
  cases found with
  | none => exact .throw _
  | some row =>
    dsimp only
    cases capabilitiesUnder row.granted (row.ceiling.getD []) with
    | error message => exact .throw _
    | ok capabilities => exact .done _

theorem obeys_markExpired {id : JsString}
    (found : ∀ row, lastFound said id = some row → row.state = .pending_approval ∨ row.state = .approved) :
    Obeys (Follows config operation) said (markExpired id) := by
  refine .call trivial fun now => .call ?_ fun answer => obeys_orFail _
  intro row last
  rw [lastFound_concat] at last
  exact found row last

/-- Looking at the clock finds no row. -/
theorem obeys_hasExpired {α : Type} {expiresAt : Option Int} {after : Bool → Service α}
    (next : ∀ expired later, (∀ id, lastFound (said ++ later) id = lastFound said id) →
      Obeys (Follows config operation) (said ++ later) (after expired)) :
    Obeys (Follows config operation) said (hasExpired expiresAt >>= after) := by
  cases expiresAt with
  | none =>
    have there := next false [] fun id => by rw [List.append_nil]
    rw [List.append_nil] at there
    exact there
  | some time =>
    exact .ask trivial fun now => next _ [⟨.readClock, now⟩] fun id => lastFound_concat _ _ _

theorem obeys_dispatch (id : JsString) : Obeys (Follows config operation) said (dispatch config id) := by
  refine .ask trivial fun answer => ?_
  cases answer with
  | error message => exact .throw _
  | ok found =>
    cases found with
    | none => exact .done false
    | some found =>
      obtain ⟨row, instanceName⟩ := found
      refine .ite (fun _ => .done false) fun approved => ?_
      have state := not_ne_iff.mp approved
      have read : lastFound (said ++ [⟨.selectDispatch id, .ok (some (row, instanceName))⟩]) id = some row := by
        rw [lastFound_concat]
        simp [foundRow]
      refine obeys_hasExpired fun expired later kept => .ite (fun _ => ?_) fun _ => ?_
      · refine (obeys_markExpired fun other last => ?_).bind fun _ _ => .done false
        cases ((kept id).trans read).symm.trans last
        exact .inr state
      · refine .call trivial fun live : Bool => ?_
        cases live with
        | false => exact .done false
        | true =>
          refine .call trivial fun now : Int => ?_
          dsimp only
          split
          · exact .throw _
          · refine .call ⟨row, ?_, state⟩ fun _ => .call trivial fun at_ => .ask ⟨row, ?_, state⟩ fun answer => ?_
            · simpa only [lastFound_concat, foundRow, Option.none_or, buildProtoCommand] using (kept id).trans read
            · simpa only [lastFound_concat, foundRow, Option.none_or] using (kept id).trans read
            · exact (obeys_orFail answer).bind fun _ _ => .done true

theorem obeys_approve (id approverId approverUsername : JsString) (remoteAddress : Option JsString) :
    Obeys (Follows config operation) said (approve config id approverId approverUsername remoteAddress) := by
  refine .ask trivial fun answer => ?_
  cases answer with
  | error message => exact .throw _
  | ok found =>
    cases found with
    | none => exact .throw _
    | some row =>
      refine .ite (fun _ => .throw _) fun pending => .ite (fun _ => .throw _) fun other => ?_
      have state := not_ne_iff.mp pending
      have read : lastFound (said ++ [⟨.selectCommand id, .ok (some row)⟩]) id = some row := by
        rw [lastFound_concat]
        simp [foundRow]
      refine obeys_hasExpired fun expired later kept => .ite (fun _ => ?_) fun _ => ?_
      · refine (obeys_markExpired fun found last => ?_).bind fun _ _ => .throw _
        cases ((kept id).trans read).symm.trans last
        exact .inl state
      · refine .call trivial fun at_ => .ask ⟨row, ?_, state, other⟩ fun answer => ?_
        · simpa only [lastFound_concat, foundRow, Option.none_or] using (kept id).trans read
        · refine (obeys_orFail answer).bind fun _ _ => (obeys_writeAudit trivial).bind fun _ _ => ?_
          exact (obeys_dispatch id).bind fun _ _ => .done ()

theorem obeys_reject (id rejectorUsername reason : JsString) (remoteAddress : Option JsString) :
    Obeys (Follows config operation) said (reject id rejectorUsername reason remoteAddress) := by
  refine .ask trivial fun answer => ?_
  cases answer with
  | error message => exact .throw _
  | ok found =>
    cases found with
    | none => exact .throw _
    | some row =>
      refine .ite (fun _ => .throw _) fun pending => ?_
      refine .call trivial fun at_ => .ask ⟨row, ?_, not_ne_iff.mp pending⟩ fun answer => ?_
      · rw [lastFound_concat, lastFound_concat]
        simp [foundRow]
      · exact (obeys_orFail answer).bind fun _ _ => obeys_writeAudit trivial

theorem obeys_create (input : CreateCommandInput) :
    Obeys (Follows config (.create input)) said (create config input) := by
  refine (obeys_effectiveCapabilitiesFor trivial).bind fun effective later => ?_
  refine .ite (fun _ => .throw _) fun _ => .call trivial fun approvedAt => .call trivial fun expiryBase => ?_
  refine .ask ⟨input, _, _, _, rfl, rfl⟩ fun answer => (obeys_orFail answer).bind fun inserted later => ?_
  refine (obeys_writeAudit trivial).bind fun _ _ => .ite (fun _ => .done _) fun _ => ?_
  exact (obeys_dispatch _).bind fun _ _ => .done _

theorem obeys_dispatchEach (ids : List JsString) :
    Obeys (Follows config operation) said (dispatchEach config ids) := by
  induction ids generalizing said with
  | nil => exact .done _
  | cons id rest ih => exact (obeys_dispatch id).bind fun _ _ => ih.bind fun _ _ => .done _

theorem obeys_recordResult (params : ResultParams) :
    Obeys (Follows config operation) said (recordResult params) := by
  refine .ask trivial fun answer => ?_
  cases answer with
  | error message => exact .throw _
  | ok found =>
    cases found with
    | none => exact .done _
    | some row =>
      refine .call trivial fun at_ => .ask ?_ fun answer => (obeys_orFail answer).bind fun _ _ => ?_
      · cases success : params.success
        · exact .inr (by simp [CommandUpdate.state])
        · exact .inl (by simp [CommandUpdate.state])
      refine (obeys_writeAudit trivial).bind fun _ _ => ?_
      cases row.issuedBy with
      | none => exact .done _
      | some issuedBy => exact .ask trivial fun answer => (obeys_orFail answer).bind fun _ _ => .done _

end

/-- Every operation goes by what it found. -/
theorem obeys_body (config : ServiceConfig) (operation : CommandOperation) :
    Obeys (Follows config operation) [] (operation.body config) := by
  cases operation with
  | create input => exact (obeys_create input).bind fun _ _ => .done ()
  | approve commandId approverId approverUsername remoteAddress => exact obeys_approve _ _ _ _
  | reject commandId rejectorUsername reason remoteAddress => exact obeys_reject _ _ _ _
  | dispatch commandId => exact (obeys_dispatch commandId).bind fun _ _ => .done ()
  | dispatchPendingFor workerId =>
    refine Obeys.bind (.ask trivial fun answer => (obeys_orFail answer).bind fun ids _ => ?_) fun _ _ => .done ()
    exact obeys_dispatchEach ids
  | recordResult params => exact (obeys_recordResult params).bind fun _ _ => .done ()
  | expireStale =>
    refine Obeys.bind (.call trivial fun _ => .call trivial fun _ => .ask trivial fun answer => ?_) fun _ _ => .done ()
    exact (obeys_orFail answer).bind fun _ _ => .done _
  | markExpired commandId =>
    apply obeys_markExpired
    intro row last
    cases last

end RemoteSqlAgent
