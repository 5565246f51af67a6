import RemoteSqlAgent.EnrolmentRules

/-! Whether a redemption is all or nothing. The row of a token is locked from the moment it
is found until the transaction ends, so of the redemptions of a token one alone spends it.
What comes after the commit can still fail, and takes nothing back. -/
namespace RemoteSqlAgent
open Js CallProgram

/-! ## Steps of the database -/

/-- What a call does: it moves the locks and may store the authority, or is one of those
that change a token, a worker or a credential. -/
inductive EnrolmentDb.Step (db : EnrolmentDb) : Exchange EnrolmentAnswer → EnrolmentDb → Prop where
  | quiet {exchange : Exchange EnrolmentAnswer} (quiet : changesNothing exchange = true)
    {locks : RowLocks EnrolmentWrite.target}
      (moves : db.locks.Moves locks) (key : Option ServerKey) :
      Step db exchange { tables := { db.tables with serverKey := key }, locks := locks }
  | commit (tx : Nat) (transaction : Transaction EnrolmentLock EnrolmentWrite)
      (running : db.locks.running tx = some transaction) :
      Step db ⟨.commit tx, .ok ()⟩
        { tables := transaction.writes.foldl .write db.tables, locks := db.locks.finish tx }
  | insert (values : CredentialValues) (id : JsString) : Step db ⟨.insertCredential values, .ok ()⟩
      { db with tables :=
        { db.tables with workerCredentials := db.tables.workerCredentials ++ [{ values with id := id }] } }
  | note (workerId certSerial : JsString) (certExpiresAt : Int) :
      Step db ⟨.updateCertificate workerId certSerial certExpiresAt, .ok ()⟩
        { db with tables := db.tables.updateCertificate workerId certSerial certExpiresAt }

section Effects
variable {db after : EnrolmentDb} {call : EnrolmentCall} {answer : EnrolmentAnswer call}

theorem EnrolmentCall.Does.step (does : EnrolmentCall.Does db call answer after) : db.Step ⟨call, answer⟩ after := by
  have idle : ∀ {exchange : Exchange EnrolmentAnswer}, changesNothing exchange = true → db.Step exchange db :=
    fun quiet => .quiet quiet .stay db.tables.serverKey
  cases call with
  | readClock | generateWorkerKey | generateCa =>
    cases does
    exact idle rfl
  | begin =>
    cases answer with
    | error message =>
      cases does
      exact idle rfl
    | ok tx =>
      obtain ⟨-, rfl⟩ := does
      exact .quiet rfl .start _
  | selectToken tx tokenHash =>
    rcases answer with message | _ | token
    · cases does
      exact idle rfl
    · obtain ⟨-, -, rfl⟩ := does
      exact idle rfl
    · obtain ⟨-, -, free, own, rfl⟩ := does
      exact .quiet rfl (.hold tx _ _ free own) _
  | upsertWorker tx hostName version capabilities =>
    cases answer with
    | error message =>
      cases does
      exact idle rfl
    | ok registered =>
      obtain ⟨-, id, -, -, free, own, rfl⟩ := does
      exact .quiet rfl (.hold tx _ _ free own) _
  | useToken tx id usedAt usedByWorkerId =>
    cases answer with
    | error message =>
      cases does
      exact idle rfl
    | ok _ =>
      obtain ⟨-, free, own, rfl⟩ := does
      exact .quiet rfl (.hold tx _ _ free own) _
  | commit tx =>
    cases answer with
    | error message =>
      cases does
      exact .quiet rfl (.finish tx) _
    | ok _ =>
      obtain ⟨transaction, running, rfl⟩ := does
      exact .commit tx transaction running
  | rollback tx =>
    cases does
    exact .quiet rfl (.finish tx) _
  | selectServerKey | selectWorker workerId =>
    cases answer with
    | error message =>
      cases does
      exact idle rfl
    | ok row =>
      obtain ⟨-, rfl⟩ := does
      exact idle rfl
  | hashWorkerKey key | issueClientCertificate ca csrPem workerId hostName validityDays | writeAudit =>
    cases answer with
    | error message | ok value =>
      cases does
      exact idle rfl
  | insertServerKey row =>
    cases answer with
    | error message =>
      cases does
      exact idle rfl
    | ok _ =>
      cases does
      exact .quiet rfl .stay _
  | insertCredential values =>
    cases answer with
    | error message =>
      cases does
      exact idle rfl
    | ok _ =>
      obtain ⟨-, id, rfl⟩ := does
      exact .insert values id
  | updateCertificate workerId certSerial certExpiresAt =>
    cases answer with
    | error message =>
      cases does
      exact idle rfl
    | ok _ =>
      obtain ⟨-, rfl⟩ := does
      exact .note workerId certSerial certExpiresAt

/-- No token, worker or credential has changed. -/
structure SameTables (db after : EnrolmentDb) : Prop where
  enrolmentTokens : after.tables.enrolmentTokens = db.tables.enrolmentTokens
  workers : after.tables.workers = db.tables.workers
  workerCredentials : after.tables.workerCredentials = db.tables.workerCredentials

theorem EnrolmentDb.Step.same {exchange : Exchange EnrolmentAnswer} (step : db.Step exchange after)
    (quiet : changesNothing exchange = true) : SameTables db after := by
  cases step with
  | quiet => exact ⟨rfl, rfl, rfl⟩
  | commit | insert | note => cases quiet

/-- The credentials that a step stored. -/
def created (db after : EnrolmentDb) : List StoredCredential :=
  after.tables.workerCredentials.drop db.tables.workerCredentials.length

theorem workerCredentials_write (tables : EnrolmentTables) (write : EnrolmentWrite) :
    (tables.write write).workerCredentials = tables.workerCredentials := by
  cases write with
  | upsertWorker =>
    simp only [EnrolmentTables.write, EnrolmentTables.upsertWorker]
    split <;> rfl
  | useToken => rfl

theorem workerCredentials_writes (tables : EnrolmentTables) (writes : List EnrolmentWrite) :
    (writes.foldl .write tables).workerCredentials = tables.workerCredentials := by
  induction writes generalizing tables with
  | nil => rfl
  | cons write rest ih => rw [List.foldl_cons, ih, workerCredentials_write]

theorem EnrolmentDb.Step.created_length {exchange : Exchange EnrolmentAnswer} (step : db.Step exchange after) :
    (created db after).length = if isInsert exchange then 1 else 0 := by
  cases step with
  | quiet quiet =>
    have other : isInsert exchange = false := by
      rw [changesNothing, Bool.and_eq_true, Bool.and_eq_true] at quiet
      simpa using quiet.1.2
    rw [created, List.drop_length, other]
    rfl
  | commit =>
    rw [created, workerCredentials_writes, List.drop_length]
    rfl
  | insert =>
    rw [created, List.drop_left]
    rfl
  | note =>
    rw [created, EnrolmentTables.updateCertificate, List.drop_length]
    rfl

/-! ## Tokens -/

/-- There is such a row. -/
def HasToken (tables : EnrolmentTables) (holds : EnrolmentToken → Prop) : Prop :=
  ∃ row ∈ tables.enrolmentTokens.rows, holds row

/-- The token was used. -/
def IsUsed (tokenHash : JsString) (db : EnrolmentDb) : Prop :=
  HasToken db.tables fun row => row.tokenHash = tokenHash ∧ row.usedAt ≠ none

theorem not_isUsed {tokenHash : JsString}
    (unused : HasToken db.tables fun row => row.tokenHash = tokenHash ∧ row.usedAt = none) :
    ¬ IsUsed tokenHash db := by
  rintro ⟨used, there, same, some⟩
  obtain ⟨row, member, hash, none⟩ := unused
  rw [db.tables.enrolmentTokens.eq_of_key there member (same.trans hash.symm)] at some
  exact some none

/-- What is so of a token whenever it is used, and stays so if it is, is so after writes. -/
theorem HasToken.write {tables : EnrolmentTables} {holds : EnrolmentToken → Prop} (has : HasToken tables holds)
    (write : EnrolmentWrite)
    (kept : ∀ row id usedAt usedByWorkerId, write = .useToken id usedAt usedByWorkerId → row.id = id →
      holds row → holds { row with usedAt := some usedAt, usedByWorkerId := some usedByWorkerId }) :
    HasToken (tables.write write) holds := by
  obtain ⟨row, member, held⟩ := has
  cases write with
  | upsertWorker =>
    refine ⟨row, ?_, held⟩
    simp only [EnrolmentTables.write, EnrolmentTables.upsertWorker]
    split <;> exact member
  | useToken id usedAt usedByWorkerId =>
    refine ⟨_, List.mem_map_of_mem member, ?_⟩
    split
    · exact kept row id usedAt usedByWorkerId rfl ‹_› held
    · exact held

theorem HasToken.writes {tables : EnrolmentTables} {holds : EnrolmentToken → Prop} (has : HasToken tables holds)
    (writes : List EnrolmentWrite)
    (kept : ∀ row id usedAt usedByWorkerId, .useToken id usedAt usedByWorkerId ∈ writes → row.id = id →
      holds row → holds { row with usedAt := some usedAt, usedByWorkerId := some usedByWorkerId }) :
    HasToken (writes.foldl .write tables) holds := by
  induction writes generalizing tables with
  | nil => exact has
  | cons write rest ih =>
    refine ih (has.write write fun row id usedAt usedByWorkerId same => ?_) fun row id usedAt usedByWorkerId member =>
      kept row id usedAt usedByWorkerId (List.mem_cons_of_mem _ member)
    exact kept row id usedAt usedByWorkerId (same ▸ List.mem_cons_self)

/-- A used token stays used. -/
theorem EnrolmentDb.Step.isUsed {exchange : Exchange EnrolmentAnswer} (step : db.Step exchange after)
    {tokenHash : JsString}
    (used : IsUsed tokenHash db) : IsUsed tokenHash after := by
  cases step with
  | quiet | insert | note => exact used
  | commit tx transaction =>
    exact HasToken.writes used _ fun row id usedAt usedByWorkerId _ _ held => ⟨held.1, Option.some_ne_none _⟩

/-- A token that is written to is used after that. -/
theorem isUsed_of_written {tables : EnrolmentTables} {tokenHash id usedByWorkerId : JsString} {usedAt : Int}
    {writes : List EnrolmentWrite} (has : HasToken tables fun row => row.tokenHash = tokenHash ∧ row.id = id)
    (member : .useToken id usedAt usedByWorkerId ∈ writes) :
    HasToken (writes.foldl .write tables) fun row => row.tokenHash = tokenHash ∧ row.usedAt ≠ none := by
  obtain ⟨first, rest, rfl⟩ := List.append_of_mem member
  rw [List.foldl_append, List.foldl_cons]
  refine HasToken.writes ?_ rest fun row id usedAt usedByWorkerId _ _ held => ⟨held.1, Option.some_ne_none _⟩
  obtain ⟨row, there, hash, same⟩ := has.writes first fun row id usedAt usedByWorkerId _ _ held => held
  refine ⟨_, List.mem_map_of_mem there, ?_⟩
  rw [if_pos same]
  exact ⟨hash, Option.some_ne_none _⟩

/-! ## What a redemption was told -/

/-- As long as the transaction runs it holds the token, which is not used. -/
def Guards (tx : Nat) (tokenHash id : JsString) (db : EnrolmentDb) : Prop :=
  db.locks.While tx fun transaction => .token id ∈ transaction.locked ∧
    HasToken db.tables fun row => row.tokenHash = tokenHash ∧ row.id = id ∧ row.usedAt = none

/-- As long as the transaction runs it is going to write this. -/
def Pends (tx : Nat) (write : EnrolmentWrite) (db : EnrolmentDb) : Prop :=
  db.locks.While tx fun transaction => write ∈ transaction.writes

/-- What an answer says of the database from then on. -/
def Reported : Exchange EnrolmentAnswer → EnrolmentDb → Prop
  | ⟨.selectToken tx tokenHash, .ok (some token)⟩, db => Guards tx tokenHash token.id db
  | ⟨.useToken tx id usedAt usedByWorkerId, .ok _⟩, db => Pends tx (.useToken id usedAt usedByWorkerId) db
  | _, _ => True

variable {exchange : Exchange EnrolmentAnswer} {tx : Nat} {tokenHash id : JsString} {write : EnrolmentWrite}

theorem Guards.step (guards : Guards tx tokenHash id db) (step : db.Step exchange after) :
    Guards tx tokenHash id after := by
  cases step with
  | quiet _ moves key =>
    exact RowLocks.While.moves guards moves fun transaction row writes held => ⟨List.mem_cons_of_mem _ held.1, held.2⟩
  | insert | note => exact guards
  | commit other transaction running =>
    refine ⟨guards.1, fun mine ran => ?_⟩
    rcases eq_or_ne tx other with rfl | different
    · rw [RowLocks.running_finish, Function.update_self] at ran
      cases ran
    · rw [RowLocks.running_finish, Function.update_of_ne different] at ran
      obtain ⟨held, has⟩ := guards.2 mine ran
      refine ⟨held, has.writes _ fun row written usedAt usedByWorkerId member same holds => ?_⟩
      have apart := RowLocks.not_written held ran running different.symm _ member
      exact absurd (congrArg EnrolmentLock.token (same.symm.trans holds.2.1)) apart

theorem Pends.step (pends : Pends tx write db) (step : db.Step exchange after) : Pends tx write after := by
  cases step with
  | quiet _ moves key =>
    exact RowLocks.While.moves pends moves fun transaction row writes held => List.mem_append_left _ held
  | insert | note => exact pends
  | commit other transaction running => exact RowLocks.While.finish pends other

theorem EnrolmentCall.Does.known (does : EnrolmentCall.Does db call answer after) : Reported ⟨call, answer⟩ after := by
  cases call with
  | selectToken tx tokenHash =>
    rcases answer with message | _ | token
    · trivial
    · trivial
    · obtain ⟨runs, found, free, own, rfl⟩ := does
      obtain ⟨transaction, ran⟩ := Option.isSome_iff_exists.mp runs
      have whilst := @RowLocks.while_hold _ _ _ _ tx _ _ _ ran free own
      rw [EnrolmentTables.unusedToken] at found
      have unused := List.find?_some found
      rw [decide_eq_true_eq] at unused
      exact ⟨whilst.1, fun grown still =>
        ⟨(whilst.2 grown still).1, token, List.mem_of_find?_eq_some found, unused.1, rfl, unused.2⟩⟩
  | useToken tx id usedAt usedByWorkerId =>
    cases answer with
    | error message => trivial
    | ok _ =>
      obtain ⟨runs, free, own, rfl⟩ := does
      obtain ⟨transaction, ran⟩ := Option.isSome_iff_exists.mp runs
      have whilst := @RowLocks.while_hold _ _ _ _ tx _ _ _ ran free own
      exact ⟨whilst.1, fun grown still => (whilst.2 grown still).2 _ List.mem_cons_self⟩
  | _ => trivial

theorem Reported.step {told : Exchange EnrolmentAnswer} (known : Reported told db) (step : db.Step exchange after) :
    Reported told after := by
  obtain ⟨request, reply⟩ := told
  cases request with
  | selectToken tx tokenHash =>
    rcases reply with message | _ | token
    · trivial
    · trivial
    · exact Guards.step known step
  | useToken tx id usedAt usedByWorkerId =>
    cases reply with
    | error message => trivial
    | ok _ => exact Pends.step known step
  | _ => trivial

end Effects

/-! ## Redemptions that go on together -/

/-- A redemption, and what is left of it. -/
abbrev Redemption := Flight EnrolmentAnswer EnrolmentFailure EnrolResult EnrolRequestParams

abbrev RedemptionStep := Taken EnrolmentAnswer EnrolmentDb EnrolRequestParams

section Together
variable {config : EnrolmentConfig} {initial : EnrolmentDb} {tokenHash : JsString}
  {pool : Pool EnrolmentAnswer EnrolmentFailure EnrolResult EnrolmentDb EnrolRequestParams}
  {run : List (Nat × RedemptionStep)}

/-- Any redemptions, in any order of their calls. -/
abbrev Redeems (config : EnrolmentConfig) (initial : EnrolmentDb) :=
  Traces EnrolmentCall.Does (redeemEnrolmentToken config) initial

theorem Redeems.does (redeems : Redeems config initial pool run) {step : Nat × RedemptionStep}
    (member : step ∈ run) : EnrolmentCall.Does step.2.before step.2.request step.2.answer step.2.after :=
  redeems.reaches.does step.2 (List.mem_map_of_mem member)

/-- The token of a redemption that spends it was not used before one of its steps, and is
used after that. -/
theorem Redeems.spends (redeems : Redeems config initial pool run) {place : Nat}
    {flight : Redemption}
    (found : pool.flights[place]? = some flight) {holds : List (Exchange EnrolmentAnswer) → Prop}
    (spends : Spends tokenHash holds flight.said) :
    ∃ taken ∈ stepsOf place run, ¬ IsUsed tokenHash taken.before ∧ IsUsed tokenHash taken.after := by
  obtain ⟨_, later, redeemed, said, ⟨tx, before, spent, rfl⟩, -⟩ := spends
  rw [List.append_assoc, List.singleton_append] at said
  obtain ⟨taken, member, same, told, -⟩ := redeems.step_of_said found said
  have inRun := mem_stepsOf.mp member
  have does : EnrolmentCall.Does taken.before taken.request taken.answer taken.after := redeems.does inRun
  have knew := (redeems.reaches.told Reported
    (fun taken there => (redeems.reaches.does taken there).known)
    fun taken there exchange known =>
      known.step (redeems.reaches.does taken there).step).2 taken (List.mem_map_of_mem inRun)
  obtain ⟨token, usedAt, -, -, selected, used⟩ := spent.found
  rw [told] at knew
  have guards : Guards tx tokenHash token.id taken.before := knew ⟨.selectToken tx tokenHash, .ok (some token)⟩ selected
  have pends : Pends tx (.useToken token.id usedAt redeemed.workerId) taken.before :=
    knew ⟨.useToken tx token.id usedAt redeemed.workerId, .ok ()⟩ used
  obtain ⟨operation, heard, request, answer, db, after⟩ := taken
  cases same
  obtain ⟨transaction, running, ends⟩ := does
  obtain ⟨-, row, there, hash, same, none⟩ := guards.2 transaction running
  refine ⟨_, member, not_isUsed ⟨row, there, hash, none⟩, ?_⟩
  rw [IsUsed, ends]
  exact isUsed_of_written ⟨row, there, hash, same⟩ (pends.2 transaction running)

variable {flight : Redemption} {place : Nat}

theorem Redeems.goes (redeems : Redeems config initial pool run) (found : pool.flights[place]? = some flight) :
    Goes (fun said _ => ¬ Stranded flight.operation said)
      (fun said _ => ¬ Stranded flight.operation said ∧
        Spends (config.hashToken flight.operation.token) (·.countP isInsert = 1) said)
      (fun said _ => said.all changesNothing = true ∨ Stranded flight.operation said ∧
        Spends (config.hashToken flight.operation.token) (fun _ => True) said) flight.said flight.program :=
  redeems.reaches.goes (goes_redeemEnrolmentToken config) flight (List.mem_of_getElem? found)

theorem Redeems.isUsed (redeems : Redeems config initial pool run) {step : Nat × RedemptionStep}
    (member : step ∈ run) (used : IsUsed tokenHash step.2.before) : IsUsed tokenHash step.2.after :=
  (redeems.does member).step.isUsed used

/-- A redemption stored as many credentials as it was told. -/
theorem Redeems.created_length (redeems : Redeems config initial pool run)
    (found : pool.flights[place]? = some flight) :
    ((stepsOf place run).flatMap fun taken => created taken.before taken.after).length =
      flight.said.countP isInsert := by
  rw [← (redeems.steps.2 place flight found).1]
  have each : ∀ taken ∈ stepsOf place run,
      (created taken.before taken.after).length = if isInsert taken.exchange then 1 else 0 :=
    fun taken member => (redeems.does (mem_stepsOf.mp member)).step.created_length
  generalize stepsOf place run = steps at each
  induction steps with
  | nil => rfl
  | cons taken rest ih =>
    rw [List.flatMap_cons, List.length_append, each taken List.mem_cons_self,
      ih fun other member => each other (List.mem_cons_of_mem _ member), List.map_cons, List.countP_cons, Nat.add_comm]

theorem Granted.inserts {said : List (Exchange EnrolmentAnswer)} {redeemed : Redeemed}
    (granted : Granted tokenHash said redeemed) :
    said.countP isInsert = 0 := by
  obtain ⟨tx, before, spent, rfl⟩ := granted.spent
  refine List.countP_eq_zero.mpr fun exchange member inserted => ?_
  rcases List.mem_append.mp member with early | last
  · have quiet := List.all_eq_true.mp spent.quiet exchange early
    simp [changesNothing, inserted] at quiet
  · cases List.mem_singleton.mp last
    cases inserted

/-- **Of the redemptions of a token only one spends it.** -/
theorem Redeems.spends_once (redeems : Redeems config initial pool run) {other : Nat}
    {also : Redemption} (found : pool.flights[place]? = some flight)
    (there : pool.flights[other]? = some also) {holds wants : List (Exchange EnrolmentAnswer) → Prop}
    (spends : Spends tokenHash holds flight.said) (spent : Spends tokenHash wants also.said) : place = other := by
  obtain ⟨first, one, makes⟩ := redeems.spends found spends
  obtain ⟨second, two, made⟩ := redeems.spends there spent
  exact congrArg Prod.fst
    (redeems.once (fun step member => redeems.isUsed member) (mem_stepsOf.mp one) (mem_stepsOf.mp two)
    makes made)

/-- A redemption is all or nothing: if it fails, none of its steps changed a token, a worker
or a credential; if it succeeds, the token is used, and one credential was stored. -/
structure Atomic (config : EnrolmentConfig) (flight : Redemption)
    (steps : List (RedemptionStep)) (db : EnrolmentDb) : Prop where
  failed : ∀ err, flight.program = .throw err → ∀ taken ∈ steps, SameTables taken.before taken.after
  succeeded : ∀ result, flight.program = .done result → IsUsed (config.hashToken flight.operation.token) db ∧
    ∃ credential, (steps.flatMap fun taken => created taken.before taken.after) = [credential]

/-- **A redemption is all or nothing exactly if it is not stranded**, in whatever order it
and others make their calls; and two that succeed are not of one token. -/
theorem atomic_iff_not_stranded (redeems : Redeems config initial pool run) :
    (∀ (place other : Nat) (flight also : Redemption) (result outcome : EnrolResult),
      pool.flights[place]? = some flight →
      pool.flights[other]? = some also →
        config.hashToken flight.operation.token = config.hashToken also.operation.token →
      flight.program = .done result → also.program = .done outcome → place = other) ∧
      ∀ place flight, pool.flights[place]? = some flight →
        (Atomic config flight (stepsOf place run) pool.state ↔ ¬ Stranded flight.operation flight.said) := by
  constructor
  · intro place other flight also result outcome found there same ended done
    have first := redeems.goes found
    have second := redeems.goes there
    rw [ended] at first
    rw [done, ← same] at second
    cases first with
    | done one =>
      cases second with
      | done two => exact redeems.spends_once found there one.2 two.2
  · intro place flight found
    have goes := redeems.goes found
    constructor
    · intro atomic stranded
      cases program : flight.program with
      | done result =>
        rw [program] at goes
        cases goes with
        | done holds => exact holds.1 stranded
      | call request next =>
        rw [program] at goes
        cases goes with
        | call allowed _ => exact allowed stranded
      | throw err =>
        rw [program] at goes
        cases goes with
        | throw holds =>
          rcases holds with quiet | ⟨-, spends⟩
          · exact not_stranded_of_quiet quiet stranded
          · obtain ⟨taken, member, unused, used⟩ := redeems.spends found spends
            refine unused ?_
            rw [IsUsed, HasToken, ← (atomic.failed err program taken member).enrolmentTokens]
            exact used
    · intro fine
      constructor
      · intro err program taken member
        rw [program] at goes
        cases goes with
        | throw holds =>
          rcases holds with quiet | ⟨stranded, -⟩
          · refine (redeems.does (mem_stepsOf.mp member)).step.same (List.all_eq_true.mp quiet _ ?_)
            rw [← (redeems.steps.2 place flight found).1]
            exact List.mem_map_of_mem member
          · exact absurd stranded fine
      · intro result program
        rw [program] at goes
        cases goes with
        | done holds =>
          obtain ⟨taken, member, -, used⟩ := redeems.spends found holds.2
          refine ⟨redeems.reaches.lasts (List.mem_map_of_mem (mem_stepsOf.mp member)) used fun step there => ?_, ?_⟩
          · obtain ⟨numbered, inRun, rfl⟩ := List.mem_map.mp there
            exact redeems.isUsed inRun
          · obtain ⟨before, later, redeemed, said, granted, stored⟩ := holds.2
            refine List.length_eq_one_iff.mp ?_
            rw [redeems.created_length found, said, List.countP_append, granted.inserts, stored]

end Together

/-! ## Samples -/

section Samples

/-- A database that answers at once where it can. It does not note certificates. -/
def EnrolmentDb.answer (db : EnrolmentDb) : (call : EnrolmentCall) → Option (EnrolmentAnswer call × EnrolmentDb)
  | .readClock => some ((1000 : Int), db)
  | .begin => some (.ok db.locks.next, { db with locks := db.locks.start })
  | .selectToken tx tokenHash =>
    if (db.locks.running tx).isSome then
      match db.tables.unusedToken tokenHash with
      | none => some (.ok none, db)
      | some token =>
        if free : db.locks.Free tx (.token token.id) then
          some (.ok (some token), { db with locks := db.locks.hold tx (.token token.id) [] free nofun })
        else none
    else none
  | .upsertWorker tx hostName version capabilities =>
    let id := ((db.tables.workers.rows.find? fun row => row.hostName = hostName).map (·.id)).getD (js "w1")
    if (db.locks.running tx).isSome ∧ db.tables.Registers hostName id then
      if free : db.locks.Free tx (.worker hostName) then
        some (.ok (some id), { db with
          locks := db.locks.hold tx (.worker hostName) [.upsertWorker id hostName version capabilities] free
            fun write member => by cases List.mem_singleton.mp member; rfl })
      else none
    else none
  | .useToken tx id usedAt usedByWorkerId =>
    if (db.locks.running tx).isSome then
      if free : db.locks.Free tx (.token id) then
        some (.ok (), { db with
          locks := db.locks.hold tx (.token id) [.useToken id usedAt usedByWorkerId] free
            fun write member => by cases List.mem_singleton.mp member; rfl })
      else none
    else none
  | .commit tx => (db.locks.running tx).map fun transaction =>
    (.ok (), { tables := transaction.writes.foldl .write db.tables, locks := db.locks.finish tx })
  | .rollback tx => some (.ok (), { db with locks := db.locks.finish tx })
  | .generateWorkerKey => some (⟨js "rsak_k", js "k"⟩, db)
  | .hashWorkerKey key => some (.ok (js "hash of " ++ key), db)
  | .selectServerKey => some (.ok db.tables.serverKey, db)
  | .generateCa => some (⟨js "key", js "public", some (js "ca")⟩, db)
  | .insertServerKey row =>
    some (.ok (), { db with tables := { db.tables with serverKey := some (db.tables.serverKey.getD row) } })
  | .selectWorker workerId => some (.ok (db.tables.workers.rows.find? fun row => row.id = workerId), db)
  | .issueClientCertificate _ _ _ _ _ => some (.error (js "Invalid PEM formatted message."), db)
  | .insertCredential values =>
    if db.tables.Accepts values then
      some (.ok (), { db with
        tables :=
          { db.tables with workerCredentials := db.tables.workerCredentials ++ [{ values with id := js "c1" }] } })
    else none
  | .updateCertificate _ _ _ => some (.error (js "Connection closed."), db)
  | .writeAudit _ _ _ _ => some (.ok (), db)

theorem EnrolmentDb.answer_does {db after : EnrolmentDb} {call : EnrolmentCall} {answer : EnrolmentAnswer call}
    (answered : db.answer call = some (answer, after)) : EnrolmentCall.Does db call answer after := by
  cases call with
  | selectToken tx tokenHash =>
    simp only [EnrolmentDb.answer] at answered
    split at answered
    · split at answered
      · cases answered
        exact ⟨‹_›, ‹_›, rfl⟩
      · split at answered
        · cases answered
          exact ⟨‹_›, ‹_›, _, _, rfl⟩
        · cases answered
    · cases answered
  | upsertWorker tx hostName version capabilities =>
    simp only [EnrolmentDb.answer] at answered
    split at answered
    · rename_i holds
      split at answered
      · cases answered
        exact ⟨holds.1, _, rfl, holds.2, _, _, rfl⟩
      · cases answered
    · cases answered
  | useToken tx id usedAt usedByWorkerId =>
    simp only [EnrolmentDb.answer] at answered
    split at answered
    · split at answered
      · cases answered
        exact ⟨‹_›, _, _, rfl⟩
      · cases answered
    · cases answered
  | commit tx =>
    obtain ⟨transaction, running, same⟩ := Option.map_eq_some_iff.mp answered
    cases same
    exact ⟨transaction, running, rfl⟩
  | insertCredential values =>
    simp only [EnrolmentDb.answer] at answered
    split at answered
    · cases answered
      exact ⟨‹_›, _, rfl⟩
    · cases answered
  | begin | selectServerKey | selectWorker workerId =>
    cases answered
    exact ⟨rfl, rfl⟩
  | _ =>
    cases answered
    rfl

/-- A token for a host that is to get a client certificate or a key. -/
def sampleToken (credentialMode : WorkerAuthMode) : EnrolmentToken where
  id := js "t1"
  tokenHash := js "hash of rsen_t"
  hostName := js "DB01"
  credentialMode := credentialMode
  intendedCapabilities := [js "read"]
  expiresAt := 3600000
  usedAt := none
  usedByWorkerId := none

def sampleDb (credentialMode : WorkerAuthMode) : EnrolmentDb where
  tables := {
    enrolmentTokens := ⟨[sampleToken credentialMode], List.nodup_singleton _⟩
    workers := .empty
    workerCredentials := []
    serverKey := none }
  locks := .idle

def sampleEnrolment : EnrolmentConfig where
  caseTable := basicTable
  hashToken := (js "hash of " ++ ·)
  enabledModes := [.token, .mtls]
  tokenTtlDays := none
  certValidityDays := 90

/-- It brings no signing request. -/
def sampleParams : EnrolRequestParams where
  token := js "rsen_t"
  hostName := js "db01"
  workerVersion := js "1.0.0"
  csrPem := none
  entraObjectId := none
  entraTenantId := none

/-- Redemptions of the token, which take steps by turns. -/
def redeemed (credentialMode : WorkerAuthMode) (redemptions : Nat) (turns : List Nat) :=
  (List.replicate redemptions (Move.begin sampleParams) ++ turns.map fun turn =>
    Move.step turn EnrolmentDb.answer).foldl
    (Pool.play (redeemEnrolmentToken sampleEnrolment)) (⟨sampleDb credentialMode, []⟩, [])

theorem redeems_redeemed (credentialMode : WorkerAuthMode) (redemptions : Nat) (turns : List Nat) :
    ∃ run, run.map Prod.snd = (redeemed credentialMode redemptions turns).2 ∧
      Redeems sampleEnrolment (sampleDb credentialMode) (redeemed credentialMode redemptions turns).1 run := by
  refine Reaches.traced (reaches_play _ fun index world member db call answer after answered => ?_)
  rcases List.mem_append.mp member with begun | step
  · cases (List.mem_replicate.mp begun).2
  · obtain ⟨turn, -, same⟩ := List.mem_map.mp step
    cases same
    exact EnrolmentDb.answer_does answered

/-- How a redemption has ended: with a value, or with this code. -/
def outcomeOf (flight : Redemption) : Option (Except JsString Unit) :=
  match flight.program with
  | .done _ => some (.ok ())
  | .throw err => some (.error err.code)
  | .call _ _ => none

/-- Two redemptions go on together. The second waits for the token, and then finds it used. -/
theorem atomic_iff_not_stranded_race : ∃ pool run, Redeems sampleEnrolment (sampleDb .token) pool run ∧
    pool.flights.map outcomeOf = [some (.ok ()), some (.error (js "InvalidToken"))] ∧
      ∀ place flight, pool.flights[place]? = some flight →
        Atomic sampleEnrolment flight (stepsOf place run) pool.state := by
  obtain ⟨run, -, redeems⟩ := redeems_redeemed .token 2 [0, 0, 1, 1, 0, 0, 0, 1, 0, 0, 0, 0, 0, 1, 1]
  refine ⟨_, run, redeems, by decide +kernel, fun place flight found => ?_⟩
  refine ((atomic_iff_not_stranded redeems).2 place flight found).mpr ?_
  have fine : ∀ flight ∈ (redeemed .token 2 [0, 0, 1, 1, 0, 0, 0, 1, 0, 0, 0, 0, 0, 1, 1]).1.flights,
      ¬ Stranded flight.operation flight.said := by decide +kernel
  exact fine flight (List.mem_of_getElem? found)

/-- A token for a client certificate is redeemed without a signing request. That fails, and
the token is used. -/
theorem redemption_strands : ∃ pool run, Redeems sampleEnrolment (sampleDb .mtls) pool run ∧
    pool.flights.map outcomeOf = [some (.error (js "CsrRequired"))] ∧ IsUsed (js "hash of rsen_t") pool.state ∧
      ¬ ∀ place flight, pool.flights[place]? = some flight →
        Atomic sampleEnrolment flight (stepsOf place run) pool.state := by
  obtain ⟨run, -, redeems⟩ := redeems_redeemed .mtls 1 [0, 0, 0, 0, 0, 0, 0]
  have ended :
      (redeemed .mtls 1 [0, 0, 0, 0, 0, 0, 0]).1.flights.map outcomeOf = [some (.error (js "CsrRequired"))] := by
    decide +kernel
  have used : ((redeemed .mtls 1 [0, 0, 0, 0, 0, 0, 0]).1.state.tables.enrolmentTokens.rows.any fun row =>
      row.tokenHash = js "hash of rsen_t" ∧ row.usedAt ≠ none) = true := by decide +kernel
  obtain ⟨row, member, spent⟩ := List.any_eq_true.mp used
  have isUsed : IsUsed (js "hash of rsen_t") (redeemed .mtls 1 [0, 0, 0, 0, 0, 0, 0]).1.state :=
    ⟨row, member, of_decide_eq_true spent⟩
  refine ⟨_, run, redeems, ended, isUsed, fun atomic => ?_⟩
  obtain ⟨flight, only, failed⟩ := List.map_eq_singleton_iff.mp ended
  have all : ∀ step ∈ run, SameTables step.2.before step.2.after := by
    intro step there
    have first := redeems.steps.1 step there
    rw [only, List.length_singleton, Nat.lt_one_iff] at first
    cases program : flight.program with
    | done | call =>
      rw [outcomeOf, program] at failed
      cases failed
    | throw err =>
      refine (atomic 0 flight (by rw [only]; rfl)).failed err program step.2 (mem_stepsOf.mpr ?_)
      rw [← first]
      exact there
  have same :
      (redeemed .mtls 1 [0, 0, 0, 0, 0, 0, 0]).1.state.tables.enrolmentTokens =
        (sampleDb .mtls).tables.enrolmentTokens :=
    (redeems.reaches.invariant (fun db => db.tables.enrolmentTokens = (sampleDb .mtls).tables.enrolmentTokens) rfl
      fun taken there before => by
        obtain ⟨step, inRun, rfl⟩ := List.mem_map.mp there
        exact (all step inRun).enrolmentTokens.trans before).1
  obtain ⟨row, member, -, some⟩ := isUsed
  rw [same] at member
  cases List.mem_singleton.mp member
  exact some rfl

end Samples

end RemoteSqlAgent
