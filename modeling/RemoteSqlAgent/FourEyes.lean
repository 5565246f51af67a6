import RemoteSqlAgent.CommandStates

/-! No command that two people must see is sent before they have. A command that
needs approval is inserted as pending; only an approval makes it approved, and
the approver is not the issuer that the approval read, who never changes. -/
namespace RemoteSqlAgent
open Js CallProgram

theorem CommandUpdate.apply_approvedBy (update : CommandUpdate) (row : CommandRow) :
    (∃ approver at_, update = .approved approver at_ ∧ (update.apply row).approvedBy = some approver) ∨
      (update.state ≠ .approved ∧ (update.apply row).approvedBy = row.approvedBy) := by
  cases update with
  | approved approver at_ => exact .inl ⟨approver, at_, rfl, rfl⟩
  | result success => exact .inr ⟨by cases success <;> simp [CommandUpdate.state], rfl⟩
  | _ => exact .inr ⟨by simp [CommandUpdate.state], rfl⟩

/-- The command was inserted as one that waits for its approval. -/
def Gated (store : CommandStore) (id : JsString) : Prop :=
  ∃ values, (id, values) ∈ store.issued ∧ values.state = .pending_approval

/-- What a step does to the rows as a whole: it inserts one that was not there,
or there are the same as before. -/
theorem does_rows {store after : CommandStore} {request : CommandCall} {answer : CommandAnswer request}
    (does : request.Does store answer after) :
    (∃ id values issuedAt, store.commands id = none ∧ after = store.insert id values issuedAt) ∨
      (after.issued = store.issued ∧ ∀ id, store.commands id = none → after.commands id = none) := by
  have same (unchanged : after = store) :
      (∃ id values issuedAt, store.commands id = none ∧ after = store.insert id values issuedAt) ∨
        (after.issued = store.issued ∧ ∀ id, store.commands id = none → after.commands id = none) :=
    .inr ⟨by rw [unchanged], fun id absent => by rw [unchanged, absent]⟩
  cases request with
  | insertCommand values =>
    cases answer with
    | error message => exact same does
    | ok inserted =>
      obtain ⟨issuedAt, fresh, -, rfl⟩ := does
      exact .inl ⟨_, _, _, fresh, rfl⟩
  | selectCommand commandId | selectDispatch commandId | selectForWorker commandId workerId
  | selectApproved workerId =>
    cases answer with
    | error message => exact same does
    | ok answered => exact same does.1
  | selectGrant instanceId | writeAudit entry | selectUsername userId =>
    cases answer <;> exact same does
  | updateCommand commandId update | updateForWorker commandId workerId update =>
    cases answer with
    | error message => exact same does
    | ok _ =>
      subst does
      exact .inr ⟨rfl, fun id absent => by rw [CommandStore.updateRows_commands, absent, Option.map_none]⟩
  | expireStale completedAt now =>
    cases answer with
    | error message => exact same does
    | ok ids =>
      obtain ⟨rfl, -⟩ := does
      exact .inr ⟨rfl, fun id absent => by rw [CommandStore.updateRows_commands, absent, Option.map_none]⟩
  | readClock | isLive workerId => exact same does
  | send workerId command =>
    subst does
    exact .inr ⟨rfl, fun id absent => absent⟩

theorem Gated.after {store after : CommandStore} {request : CommandCall} {answer : CommandAnswer request}
    (does : request.Does store answer after) {id : JsString} (gated : Gated store id) : Gated after id := by
  obtain ⟨values, member, pending⟩ := gated
  rcases does_rows does with ⟨other, inserted, issuedAt, -, rfl⟩ | ⟨same, -⟩
  · exact ⟨values, List.mem_append_left _ member, pending⟩
  · exact ⟨values, same ▸ member, pending⟩

theorem gated_of_insert {store after : CommandStore} {values : CommandValues} {id : JsString} {state : CommandState}
    (does : (CommandCall.insertCommand values).Does store (.ok (id, state)) after)
    (pending : values.state = .pending_approval) : Gated after id := by
  obtain ⟨issuedAt, -, -, rfl⟩ := does
  exact ⟨values, List.mem_append_right _ List.mem_cons_self, pending⟩

/-- A gate is not put up in front of a command that is there. -/
theorem Gated.before {store after : CommandStore} {request : CommandCall} {answer : CommandAnswer request}
    (does : request.Does store answer after) {id : JsString} {row : CommandRow} (found : store.commands id = some row)
    (gated : Gated after id) : Gated store id := by
  obtain ⟨values, member, pending⟩ := gated
  rcases does_rows does with ⟨other, inserted, issuedAt, fresh, rfl⟩ | ⟨same, -⟩
  · rcases List.mem_append.mp member with old | new
    · exact ⟨values, old, pending⟩
    · cases List.mem_singleton.mp new
      rw [fresh] at found
      cases found
  · exact ⟨values, same ▸ member, pending⟩

/-! ## The issuer stays -/

/-- Who issued a command that a call found is who issued it now. -/
def SameIssuer (exchange : Exchange CommandAnswer) (store : CommandStore) : Prop :=
  ∀ id row, foundRow id exchange = some row → ∃ later, store.commands id = some later ∧ later.issuedBy = row.issuedBy

theorem issuer_stays {store after : CommandStore} {request : CommandCall} {answer : CommandAnswer request}
    (does : request.Does store answer after) {id : JsString} {row : CommandRow} (found : store.commands id = some row) :
    ∃ later, after.commands id = some later ∧ later.issuedBy = row.issuedBy := by
  obtain ⟨later, there, ⟨update, -, rfl⟩ | ⟨-, rfl | ⟨-, at_, rfl⟩⟩⟩ := does_row does found
  · exact ⟨_, there, update.apply_issuedBy row⟩
  · exact ⟨_, there, rfl⟩
  · exact ⟨_, there, rfl⟩

section
variable {config : ServiceConfig} {run : List CommandStep}
  {pool : Pool CommandAnswer ServiceError Unit CommandStore CommandOperation}

/-- The approver is not the issuer of the command at the moment of the approval. -/
theorem approved_by_another (reaches : Reaches CommandCall.Does (CommandOperation.body config) .empty pool run)
    {step : CommandStep} (member : step ∈ run) {id approver : JsString} {row : CommandRow} {at_ : Int}
    (found : step.before.commands id = some row)
    (updated : updateOf id row step.exchange = some (.approved approver at_)) : row.issuedBy ≠ some approver := by
  have heard := (reaches.told SameIssuer
    (fun taken member id row read => ⟨row, does_found (reaches.does taken member) read, rfl⟩)
    (fun taken member exchange known id row read => by
      obtain ⟨standing, there, same⟩ := known id row read
      obtain ⟨later, stands, kept⟩ := issuer_stays (reaches.does taken member) there
      exact ⟨later, stands, kept.trans same⟩)).2 step member
  have follows := (reaches.allowed (Follows config) (obeys_body config)).2 step member
  rcases step with ⟨operation, said, request, answer, before, after⟩
  cases request with
  | updateCommand commandId update =>
    cases answer with
    | error message => cases updated
    | ok _ =>
      obtain ⟨rfl, rfl⟩ : id = commandId ∧ update = .approved approver at_ := by
        simpa [Taken.exchange, updateOf] using updated
      obtain ⟨read, last, -, other⟩ := follows
      obtain ⟨exchange, inside, reads⟩ := lastFound_mem last
      obtain ⟨standing, there, same⟩ := heard exchange inside id read reads
      cases found.symm.trans there
      rwa [same]
  | updateForWorker commandId workerId update =>
    cases answer with
    | error message => cases updated
    | ok _ =>
      obtain ⟨-, rfl⟩ : (id = commandId ∧ row.workerId = workerId) ∧ update = .approved approver at_ := by
        simpa [Taken.exchange, updateOf] using updated
      rcases follows with state | state <;> cases state
  | _ => cases updated

/-! ## The gate -/

/-- Nobody approved a command that they issued, and a gated command is only
approved if somebody did. -/
structure Approvals (store : CommandStore) : Prop where
  another : ∀ id row approver, store.commands id = some row → row.approvedBy = some approver →
    row.issuedBy ≠ some approver
  gated : ∀ id, Gated store id → ∃ row, store.commands id = some row ∧
    (row.state = .approved → row.approvedBy.isSome = true)

theorem approvals_empty : Approvals .empty where
  another id row approver found := by cases found
  gated id gated := by
    obtain ⟨values, member, -⟩ := gated
    cases member

/-- An approver stays. -/
theorem approver_stays {store after : CommandStore} {request : CommandCall} {answer : CommandAnswer request}
    (does : request.Does store answer after) {id : JsString} {row : CommandRow} (found : store.commands id = some row)
    (approved : row.approvedBy.isSome = true) :
    ∃ later, after.commands id = some later ∧ later.approvedBy.isSome = true := by
  obtain ⟨later, there, ⟨update, -, rfl⟩ | ⟨-, rfl | ⟨-, at_, rfl⟩⟩⟩ := does_row does found
  · refine ⟨_, there, ?_⟩
    rcases update.apply_approvedBy row with ⟨approver, at_, -, same⟩ | ⟨-, same⟩
    · rw [same]
      rfl
    · rw [same, approved]
  · exact ⟨_, there, approved⟩
  · exact ⟨_, there, approved⟩

theorem Approvals.after {step : CommandStep} (approvals : Approvals step.before)
    (does : step.request.Does step.before step.answer step.after)
    (byAnother : ∀ id row approver at_, step.before.commands id = some row →
      updateOf id row step.exchange = some (.approved approver at_) → row.issuedBy ≠ some approver) :
    Approvals step.after where
  another id row approver found approved := by
    cases stood : step.before.commands id with
    | none =>
      rcases does_rows does with ⟨other, values, issuedAt, -, inserted⟩ | ⟨-, absent⟩
      · rw [inserted] at found
        by_cases same : id = other
        · simp only [CommandStore.insert, same, Function.update_self, Option.some.injEq] at found
          rw [← found] at approved
          cases approved
        · simp only [CommandStore.insert, Function.update_of_ne same, stood] at found
          cases found
      · rw [absent id stood] at found
        cases found
    | some before =>
      obtain ⟨later, there, ⟨update, updated, rfl⟩ | ⟨-, rfl | ⟨-, at_, rfl⟩⟩⟩ := does_row does stood
      · cases found.symm.trans there
        rw [update.apply_issuedBy]
        rcases update.apply_approvedBy before with ⟨who, at_, rfl, same⟩ | ⟨-, same⟩
        · rw [same, Option.some.injEq] at approved
          exact approved ▸ byAnother id before who at_ stood updated
        · exact approvals.another id before approver stood (same ▸ approved)
      · cases found.symm.trans there
        exact approvals.another id _ approver stood approved
      · cases found.symm.trans there
        exact approvals.another id before approver stood approved
  gated id gated := by
    cases stood : step.before.commands id with
    | none =>
      obtain ⟨values, member, pending⟩ := gated
      rcases does_rows does with ⟨other, inserted, issuedAt, -, same⟩ | ⟨same, -⟩
      · rw [same] at member ⊢
        rcases List.mem_append.mp member with old | new
        · obtain ⟨row, found, -⟩ := approvals.gated id ⟨values, old, pending⟩
          cases stood.symm.trans found
        · cases List.mem_singleton.mp new
          refine ⟨values.row issuedAt, by simp [CommandStore.insert], fun approved => ?_⟩
          cases pending.symm.trans approved
      · obtain ⟨row, found, -⟩ := approvals.gated id ⟨values, same ▸ member, pending⟩
        cases stood.symm.trans found
    | some row =>
      obtain ⟨standing, found, seen⟩ := approvals.gated id (gated.before does stood)
      cases stood.symm.trans found
      obtain ⟨later, there, ⟨update, updated, rfl⟩ | ⟨-, rfl | ⟨-, at_, rfl⟩⟩⟩ := does_row does stood
      · refine ⟨_, there, fun approved => ?_⟩
        rcases update.apply_approvedBy row with ⟨who, at_, -, same⟩ | ⟨other, -⟩
        · rw [same]
          rfl
        · rw [update.apply_state] at approved
          exact absurd approved other
      · exact ⟨_, there, seen⟩
      · exact ⟨_, there, fun approved => by cases approved⟩

/-- A gated command that a call found approved has an approver. -/
def Approved (exchange : Exchange CommandAnswer) (store : CommandStore) : Prop :=
  ∀ id row, foundRow id exchange = some row → row.state = .approved →
    ∃ later, store.commands id = some later ∧ (Gated store id → later.approvedBy.isSome = true)

/-- **Four eyes see every command that needs them**: when it is sent, it has an
approver, who is not its issuer. -/
theorem four_eyes (reaches : Reaches CommandCall.Does (CommandOperation.body config) .empty pool run)
    {earlier later : List CommandStep} {sending made : CommandStep} (split : run = earlier ++ sending :: later)
    (before : made ∈ earlier) {input : CreateCommandInput} {values : CommandValues} {id : JsString}
    {state : CommandState} (creation : made.operation = .create input)
    (inserted : made.exchange = ⟨.insertCommand values, .ok (id, state)⟩)
    (required : requiresApproval config input.kind input.issuedByRole = true) (sends : sending.request.Sends id) :
    ∃ row approver, sending.before.commands id = some row ∧ row.approvedBy = some approver ∧
      row.issuedBy ≠ some approver := by
  have madeIn : made ∈ run := by
    rw [split]
    exact List.mem_append_left _ before
  have sendingIn : sending ∈ run := by
    rw [split]
    simp
  have follows := (reaches.allowed (Follows config) (obeys_body config)).2
  have kept : ∀ step ∈ run, Approvals step.before → Approvals step.after := fun step member approvals =>
    approvals.after (reaches.does step member) fun id row approver at_ found updated =>
      approved_by_another reaches member found updated
  have approvals := (reaches.invariant Approvals approvals_empty kept).2
  -- It was inserted as one that waits, and so it stays gated.
  have gated : Gated sending.before id := by
    refine reaches.since (Gated · id) split before ?_ fun step member gated => gated.after (reaches.does step member)
    have does := reaches.does made madeIn
    have allowed := follows made madeIn
    rcases made with ⟨operation, said, request, answer, store, after⟩
    cases inserted
    subst creation
    obtain ⟨same, workerId, approvedAt, expiryBase, mine, rfl⟩ := allowed
    cases mine
    exact gated_of_insert does (by simp [newCommand, required])
  -- It was found approved before it is sent.
  have heard := (reaches.told Approved
    (fun taken member id row read approved => by
      have there := does_found (reaches.does taken member) read
      refine ⟨row, there, fun gated => ?_⟩
      obtain ⟨standing, found, seen⟩ := (kept taken member (approvals taken member)).gated id gated
      cases there.symm.trans found
      exact seen approved)
    (fun taken member exchange known id row read approved => by
      obtain ⟨standing, there, seen⟩ := known id row read approved
      have does := reaches.does taken member
      by_cases gated : Gated taken.before id
      · obtain ⟨later, stands, still⟩ := approver_stays does there (seen gated)
        exact ⟨later, stands, fun _ => still⟩
      · obtain ⟨later, stands, -⟩ := issuer_stays does there
        exact ⟨later, stands, fun gate => absurd (gate.before does there) gated⟩)).2 sending sendingIn
  have goesBy := follows sending sendingIn
  have another := (approvals sending sendingIn).another
  rcases sending with ⟨operation, said, request, answer, store, after⟩
  cases request with
  | send workerId command =>
    obtain rfl : command.id = id := sends
    obtain ⟨row, last, approved⟩ := goesBy
    obtain ⟨exchange, inside, reads⟩ := lastFound_mem last
    obtain ⟨standing, there, seen⟩ := heard exchange inside command.id row reads approved
    obtain ⟨approver, who⟩ := Option.isSome_iff_exists.mp (seen gated)
    exact ⟨standing, approver, there, who, another command.id standing approver there who⟩
  | _ => exact sends.elim

end

/-! An editor creates a command, and somebody else approves it. -/

def approvedWork : List Work := [
  .begin (.create (sampleCreate .upsertJob)), .steps 0 5 1000,
  .begin (.approve (js "c1") (js "u2") (js "maria") none), .steps 1 12 2000]

def approvedRun : List CommandStep := (afterWork (sampleConfig true) approvedWork).2

/-- The step inserts a command that needs approval. -/
def insertsGated (config : ServiceConfig) (step : CommandStep) (id : JsString) : Bool :=
  (match step.operation with
    | .create input => requiresApproval config input.kind input.issuedByRole
    | _ => false) &&
  match step.exchange with
  | ⟨.insertCommand _, .ok (other, _)⟩ => other = id
  | _ => false

def sendsTo (step : CommandStep) (id : JsString) : Bool :=
  match step.request with
  | .send _ command => command.id = id
  | _ => false

private theorem sends_of_sendsTo {step : CommandStep} {id : JsString} (sends : sendsTo step id = true) :
    step.request.Sends id := by
  rcases step with ⟨operation, said, request, answer, before, after⟩
  cases request with
  | send workerId command => simpa [sendsTo, CommandCall.Sends] using sends
  | _ => cases sends

private theorem inserted_of_insertsGated {config : ServiceConfig} {step : CommandStep} {id : JsString}
    (inserts : insertsGated config step id = true) :
    ∃ input values state, step.operation = .create input ∧
      step.exchange = ⟨.insertCommand values, .ok (id, state)⟩ ∧
      requiresApproval config input.kind input.issuedByRole = true := by
  rcases step with ⟨operation, said, request, answer, before, after⟩
  cases operation with
  | create input =>
    cases request with
    | insertCommand values =>
      cases answer with
      | error message => simp [insertsGated, Taken.exchange] at inserts
      | ok inserted =>
        obtain ⟨other, state⟩ := inserted
        obtain ⟨required, same⟩ : requiresApproval config input.kind input.issuedByRole = true ∧ other = id := by
          simpa [insertsGated, Taken.exchange] using inserts
        exact ⟨input, values, state, rfl, by rw [← same]; rfl, required⟩
    | _ => simp [insertsGated, Taken.exchange] at inserts
  | _ => simp [insertsGated] at inserts

/-- The command is sent with Maria's approval. -/
theorem four_eyes_sample : ∃ step ∈ approvedRun, step.request.Sends (js "c1") ∧
    ∃ row approver, step.before.commands (js "c1") = some row ∧ row.approvedBy = some approver ∧
      row.issuedBy ≠ some approver := by
  have checked : (approvedRun[3]?).any (insertsGated (sampleConfig true) · (js "c1")) = true ∧
      (approvedRun[14]?).any (sendsTo · (js "c1")) = true := by
    decide +kernel
  obtain ⟨made, isMade, inserts⟩ := (Option.any_eq_true _ _).mp checked.1
  obtain ⟨sending, isSent, sends⟩ := (Option.any_eq_true _ _).mp checked.2
  obtain ⟨input, values, state, creation, inserted, required⟩ := inserted_of_insertsGated inserts
  have before : made ∈ approvedRun.take 14 := by
    apply List.mem_of_getElem? (i := 3)
    rw [List.getElem?_take_of_lt (by decide)]
    exact isMade
  exact ⟨sending, List.mem_of_getElem? isSent, sends_of_sendsTo sends,
    four_eyes (reaches_afterWork _ _) (split_at_getElem? isSent) before creation inserted required
      (sends_of_sendsTo sends)⟩

end RemoteSqlAgent
