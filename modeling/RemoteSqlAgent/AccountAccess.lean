import RemoteSqlAgent.AccountRules

/-! Who is let in, over every run. However sign-ins, sign-outs, role changes and requests of the
dashboard come in between each other, a request is only served on the strength of a sign-in that
was made for its token and not undone since, as the user is at the moment it is checked. -/
namespace RemoteSqlAgent
open Js CallProgram

abbrev AccountStep := Taken AccountAnswer AccountDb AccountOperation

/-- The steps after one are not of a kind. -/
def NoneSince (kind : AccountStep → Prop) (later : List AccountStep) : Prop := ∀ step ∈ later, ¬ kind step

theorem NoneSince.concat {kind : AccountStep → Prop} {later : List AccountStep} {last : AccountStep}
    (none : NoneSince kind later) (other : ¬ kind last) : NoneSince kind (later ++ [last]) := by
  intro step member
  rcases List.mem_append.mp member with old | new
  · exact none step old
  · cases List.mem_singleton.mp new
    exact other

/-- Somebody signs out of a session. -/
def AccountStep.SignsOut (session : SessionRow) (step : AccountStep) : Prop :=
  step.exchange = ⟨.deleteSession session.tokenHash, .ok ()⟩

/-- A sign-in of a user made the session, and nobody has signed out of it since. -/
def SignedIn (config : AuthConfig) (run : List AccountStep) (session : SessionRow) : Prop :=
  ∃ before made later user, run = before ++ made :: later ∧ made.exchange = ⟨.insertSession session, .ok ()⟩ ∧
    made.operation.Proved config made.said user ∧ Minted config made.said user session ∧
      NoneSince (AccountStep.SignsOut session) later

/-- At a step of the run, the token of a request was found to be of a session in force, and the
user was not disabled. -/
def CheckedIn (config : AuthConfig) (run : List AccountStep) (operation : AccountOperation) (request : HttpRequest)
    (session : SessionRow) (user : UserRow) : Prop :=
  ∃ earlier checked later token now, run = earlier ++ checked :: later ∧ checked.operation = operation ∧
    checked.exchange = ⟨.selectSession (hashToken config token) now, .ok (some (session, user))⟩ ∧
    request.sessionCookie = some token ∧ session.tokenHash = hashToken config token ∧ now < session.expiresAt ∧
    checked.before.user session.userId = some user ∧ user.disabledAt = none ∧ SignedIn config earlier session

/-- What a route asks beyond a session, in the light of the rows that an operation read. -/
def Guard.Allows (config : AuthConfig) (run : List AccountStep) (operation : AccountOperation) (request : HttpRequest)
    (session : SessionRow) (user : UserRow) : Guard → Prop
  | .session => True
  | .estate permission => CsrfHeld config request session ∧ roleHasPermission user.role permission = true
  | .ofInstance permission => CsrfHeld config request session ∧
      (roleHasPermission user.role permission = true ∨ ∃ id tag grants, request.instanceId = some id ∧
        (∃ step ∈ run, step.operation = operation ∧ step.before.environments id = some tag) ∧
        (∃ step ∈ run, step.operation = operation ∧ step.before.grants = grants) ∧
          canInEnvironment config.table user.principal grants permission tag = true)

/-! ## Sessions -/

section Statements
variable {db after : AccountDb} {request : AccountCall} {answer : AccountAnswer request}

/-- A session that there is after a statement was there before it, or the statement inserted it. -/
theorem does_session (does : request.Does db answer after) {session : SessionRow}
    (there : session ∈ after.sessions.rows) :
    session ∈ db.sessions.rows ∨ (⟨request, answer⟩ : Exchange AccountAnswer) = ⟨.insertSession session, .ok ()⟩ := by
  have kept (same : after = db) : session ∈ db.sessions.rows := same ▸ there
  cases request with
  | insertSession values =>
    cases answer with
    | error message => exact .inl (kept does)
    | ok _ =>
      obtain ⟨-, free, rfl⟩ := does
      rcases List.mem_append.mp there with old | new
      · exact .inl old
      · cases List.mem_singleton.mp new
        exact .inr rfl
  | deleteSession tokenHash | deleteExpired now =>
    cases answer with
    | error message => exact .inl (kept does)
    | ok _ =>
      subst does
      exact .inl (KeyedTable.mem_remove.mp (KeyedTable.mem_iff.mpr there)).1
  | insertUser username passwordHash role displayName =>
    cases answer with
    | error message => exact .inl (kept does)
    | ok id =>
      obtain ⟨-, free, rfl⟩ := does
      exact .inl there
  | updateRole userId role | updateDisabled userId disabledAt =>
    cases answer with
    | error message => exact .inl (kept does)
    | ok _ =>
      subst does
      exact .inl there
  | upsertEntraUser profile role =>
    cases answer with
    | error message => exact .inl (kept does)
    | ok row =>
      rcases does with ⟨held, -, -, -, -, rfl⟩ | ⟨-, -, -, free, rfl⟩
      · exact .inl there
      · exact .inl there
  | selectSession tokenHash now | selectLocalUser username | selectUser userId | environmentOfInstance instanceId
  | anyUser | loadGrants =>
    cases answer with
    | error message => exact .inl (kept does)
    | ok found => exact .inl (kept does.2)
  | prunePending cutoff =>
    subst does
    exact .inl there
  | addPending pending =>
    obtain ⟨free, rfl⟩ := does
    exact .inl there
  | takePending state =>
    obtain ⟨-, rfl⟩ := does
    exact .inl there
  | elsewhere =>
    obtain ⟨environments, grants, rfl⟩ := does
    exact .inl there
  | readClock | generateSecret bytes | stampLogin userId | hashPassword password
  | redeemCode code redirectUri codeVerifier | writeAudit actor action => exact .inl (kept does)

/-- Signing out of a session removes it. -/
theorem does_signOut {tokenHash : JsString} {answer : Unit}
    (does : (AccountCall.deleteSession tokenHash).Does db (.ok answer) after) {session : SessionRow}
    (there : session ∈ after.sessions.rows) : session.tokenHash ≠ tokenHash := by
  subst does
  exact of_decide_eq_false (KeyedTable.mem_remove.mp (KeyedTable.mem_iff.mpr there)).2

/-- A session that a token was found to be of is there, with its user. -/
theorem does_sessionWith {tokenHash : JsString} {now : Int} {session : SessionRow} {user : UserRow}
    (does : (AccountCall.selectSession tokenHash now).Does db (.ok (some (session, user))) after) :
    session ∈ db.sessions.rows ∧ session.tokenHash = tokenHash ∧ now < session.expiresAt ∧
      db.user session.userId = some user := by
  obtain ⟨found, -⟩ := does
  obtain ⟨row, isRow, isUser⟩ := Option.bind_eq_some_iff.mp found.symm
  obtain ⟨there, held, same⟩ := Option.map_eq_some_iff.mp isUser
  cases same
  have fits := List.find?_some isRow
  simp only [decide_eq_true_eq] at fits
  exact ⟨List.mem_of_find?_eq_some isRow, fits.1, fits.2, held⟩

end Statements

section Runs
variable {config : AuthConfig} {initial : AccountDb} {run : List AccountStep}
  {pool : Pool AccountAnswer JsString AccountReply AccountDb AccountOperation}

/-- Every call is allowed by what was said to its operation. -/
theorem account_follows (reaches : Reaches AccountCall.Does (AccountOperation.body config) initial pool run) :
    ∀ step ∈ run, AccountFollows config step.operation step.said step.request :=
  (reaches.allowed (AccountFollows config) fun operation => (body_goes config operation).obeys).2

/-- Every session there is was made by a sign-in, and not signed out of. -/
theorem signed_in (reaches : Reaches AccountCall.Does (AccountOperation.body config) initial pool run)
    (fresh : initial.sessions.rows = []) : ∀ session ∈ pool.state.sessions.rows, SignedIn config run session := by
  induction reaches with
  | start => simp [fresh]
  | begin _ _ ih => exact ih
  | @call state after earlier later operation said request next run reaches answer does ih =>
    intro session there
    have follows := account_follows (reaches.call answer does) _ (List.mem_append_right _ List.mem_cons_self)
    rcases does_session does there with held | made
    · obtain ⟨before, maker, rest, user, rfl, inserted, proved, minted, since⟩ := ih session held
      refine ⟨before, maker, rest ++ [⟨operation, said, request, answer, state, after⟩], user, by simp, inserted, proved,
        minted, since.concat ?_⟩
      intro out
      cases out
      exact does_signOut does there rfl
    · cases made
      obtain ⟨user, proved, minted⟩ := follows
      exact ⟨run, _, [], user, rfl, rfl, proved, minted, by simp [NoneSince]⟩

/-- What a request resolved, it was checked for at one of its steps. -/
theorem checked_in (reaches : Reaches AccountCall.Does (AccountOperation.body config) initial pool run)
    (fresh : initial.sessions.rows = [])
    {flight : Flight AccountAnswer JsString AccountReply AccountOperation} (member : flight ∈ pool.flights)
    {request : HttpRequest} {session : SessionRow} {user : UserRow}
    (resolved : Resolved config request.sessionCookie flight.said session user) :
    CheckedIn config run flight.operation request session user := by
  obtain ⟨token, now, isToken, told⟩ := resolved.found
  obtain ⟨first, rest, isSaid⟩ := List.append_of_mem told
  obtain ⟨checked, there, same, -, mine⟩ := reaches.heard member isSaid
  have does := reaches.does checked there
  obtain ⟨earlier, later, split⟩ := List.append_of_mem there
  obtain ⟨before, upTo, isState, -⟩ := reaches.cut split
  rcases checked with ⟨operation, said, asked, answer, state, after⟩
  cases same
  obtain ⟨held, isHash, young, isUser⟩ := does_sessionWith does
  refine ⟨earlier, _, later, token, now, split, mine, rfl, isToken, isHash, young, isUser, resolved.enabled, ?_⟩
  exact signed_in upTo fresh session (isState ▸ held)

/-- What a route was told before it let a user do something, was so when it was told it. -/
theorem allows_of_permits (reaches : Reaches AccountCall.Does (AccountOperation.body config) initial pool run)
    {flight : Flight AccountAnswer JsString AccountReply AccountOperation} (member : flight ∈ pool.flights)
    {guard : Guard} {request : HttpRequest} {session : SessionRow} {user : UserRow}
    (permits : guard.Permits config request flight.said session user) :
    guard.Allows config run flight.operation request session user := by
  cases guard with
  | session => trivial
  | estate permission => exact permits
  | ofInstance permission =>
    obtain ⟨csrf, may⟩ := permits
    refine ⟨csrf, may.imp_right ?_⟩
    rintro ⟨id, tag, grants, named, found, loaded, can⟩
    refine ⟨id, tag, grants, named, ?_, ?_, can⟩
    · obtain ⟨first, rest, isSaid⟩ := List.append_of_mem found
      obtain ⟨step, there, same, -, mine⟩ := reaches.heard member isSaid
      have does := reaches.does step there
      refine ⟨step, there, mine, ?_⟩
      rcases step with ⟨operation, said, asked, answer, state, after⟩
      cases same
      exact does.1.symm
    · obtain ⟨first, rest, isSaid⟩ := List.append_of_mem loaded
      obtain ⟨step, there, same, -, mine⟩ := reaches.heard member isSaid
      have does := reaches.does step there
      refine ⟨step, there, mine, ?_⟩
      rcases step with ⟨operation, said, asked, answer, state, after⟩
      cases same
      exact does.1.symm

end Runs

/-! ## A sample deployment -/

def sampleAuth : AuthConfig where
  mode := .both
  sessionTtlHours := 8
  table := basicTable
  sha256 text := text.map fun unit => .ofNat unit.val
  verifyPassword passwordHash password := passwordHash = js "argon2:" ++ password
  appRoleMap role := if role = js "rsagent.operator" then some .operator else none
  defaultRole := none
  redirectUri := js "https://rsagent/callback"

def sampleClaims : Claims where
  nonce := some (js "s1-24")
  oid := some (js "oid-1")
  preferredUsername := some (js "olivia@example.com")
  upn := none
  name := some (js "Olivia")
  email := none
  roles := [js "rsagent.operator"]
  groups := [js "g1"]
  groupsElsewhere := false

def AccountDb.empty : AccountDb where
  users := .empty
  sessions := .empty
  pending := .empty
  environments _ := none
  grants := []

theorem UserRow.withRole_id (role : Role) (row : UserRow) : { row with role := role }.id = row.id := rfl

theorem UserRow.withDisabledAt_id (disabledAt : Option Int) (row : UserRow) :
    { row with disabledAt := disabledAt }.id = row.id := rfl

/-- Everything is answered. What is generated is told apart by its length, and users get their
names as ids. -/
def accountsAt (now : Int) (secret : JsString) (db : AccountDb) :
    (call : AccountCall) → AccountAnswer call × AccountDb
  | .readClock => (now, db)
  | .generateSecret bytes => (secret ++ js "-" ++ decimal bytes, db)
  | .selectLocalUser username => (.ok (db.users.rows.find? fun row =>
      row.username = username ∧ row.identityProvider = .local_), db)
  | .stampLogin _ => (.ok (), db)
  | .insertSession values =>
    if free : (db.user values.userId).isSome ∧ ¬ db.sessions.Holds values.tokenHash then
      (.ok (), { db with sessions := db.sessions.add values free.2 })
    else (.error (js "duplicate key"), db)
  | .selectSession tokenHash now => (.ok (db.sessionWith tokenHash now), db)
  | .deleteSession tokenHash =>
    (.ok (), { db with sessions := db.sessions.remove fun row => row.tokenHash = tokenHash })
  | .deleteExpired now => (.ok (), { db with sessions := db.sessions.remove fun row => row.expiresAt < now })
  | .anyUser => (.ok (!db.users.rows.isEmpty), db)
  | .hashPassword password => (.ok (js "argon2:" ++ password), db)
  | .insertUser username passwordHash role displayName =>
    if free : db.NameFree username username ∧ ¬ db.users.Holds username then
      (.ok username, db.addUser (localUser username username passwordHash role displayName) free.2)
    else (.error (js "duplicate key"), db)
  | .selectUser userId => (.ok (db.user userId), db)
  | .updateRole userId role =>
    (.ok (), db.changeUser userId (fun row => { row with role := role }) (UserRow.withRole_id role))
  | .updateDisabled userId disabledAt =>
    (.ok (), db.changeUser userId (fun row => { row with disabledAt := disabledAt })
      (UserRow.withDisabledAt_id disabledAt))
  | .upsertEntraUser profile role =>
    if free : (∀ held ∈ db.users.rows, held.externalId ≠ some profile.objectId) ∧
        db.NameFree profile.username profile.username ∧ ¬ db.users.Holds profile.username then
      (.ok (profile.inserted role profile.username), db.addUser (profile.inserted role profile.username) free.2.2)
    else (.error (js "duplicate key"), db)
  | .prunePending cutoff =>
    ((), { db with pending := db.pending.remove fun pending => pending.createdAt < cutoff })
  | .addPending pending =>
    if free : ¬ (db.pending.remove fun held => held.state = pending.state).Holds pending.state then
      ((), { db with pending := (db.pending.remove fun held => held.state = pending.state).add pending free })
    else ((), db)
  | .takePending state => (db.pending.rows.find? fun pending => pending.state = state,
      { db with pending := db.pending.remove fun pending => pending.state = state })
  | .redeemCode _ _ _ => (.ok sampleClaims, db)
  | .environmentOfInstance instanceId => (.ok (db.environments instanceId), db)
  | .loadGrants => (.ok db.grants, db)
  | .writeAudit _ _ => (.ok (), db)
  | .elsewhere => ((), db)

theorem accountsAt_does (now : Int) (secret : JsString) (db : AccountDb) (call : AccountCall) :
    call.Does db (accountsAt now secret db call).1 (accountsAt now secret db call).2 := by
  cases call with
  | insertSession values =>
    simp only [accountsAt]
    split
    · rename_i free
      exact ⟨free.1, free.2, rfl⟩
    · rfl
  | insertUser username passwordHash role displayName =>
    simp only [accountsAt]
    split
    · rename_i free
      exact ⟨free.1, free.2, rfl⟩
    · rfl
  | upsertEntraUser profile role =>
    simp only [accountsAt]
    split
    · rename_i free
      exact .inr ⟨free.1, free.2.1, rfl, free.2.2, rfl⟩
    · rfl
  | addPending pending =>
    have free : ¬ (db.pending.remove fun held => held.state = pending.state).Holds pending.state := by
      intro taken
      obtain ⟨held, member, same⟩ := KeyedTable.holds_iff.mp taken
      exact of_decide_eq_false (KeyedTable.mem_remove.mp member).2 same
    simp only [accountsAt, dif_pos free]
    exact ⟨free, rfl⟩
  | selectLocalUser username | selectSession tokenHash now | anyUser | selectUser userId | takePending state
  | environmentOfInstance instanceId | loadGrants => exact ⟨rfl, rfl⟩
  | elsewhere => exact ⟨db.environments, db.grants, rfl⟩
  | _ => rfl

/-- Start an operation, or let one take so many steps at a time. -/
inductive AccountWork where
  | begin (operation : AccountOperation)
  | steps (index count : Nat) (now : Int) (secret : JsString)

def AccountWork.moves : AccountWork → List (Move AccountAnswer AccountDb AccountOperation)
  | .begin operation => [.begin operation]
  | .steps index count now secret =>
    List.replicate count (.step index fun db call => some (accountsAt now secret db call))

def afterAccountWork (work : List AccountWork) :
    Pool AccountAnswer JsString AccountReply AccountDb AccountOperation × List AccountStep :=
  (work.flatMap AccountWork.moves).foldl (Pool.play (AccountOperation.body sampleAuth)) (⟨.empty, []⟩, [])

theorem reaches_afterAccountWork (work : List AccountWork) :
    Reaches AccountCall.Does (AccountOperation.body sampleAuth) .empty (afterAccountWork work).1
      (afterAccountWork work).2 := by
  refine reaches_play _ fun index world member db call answer after answered => ?_
  obtain ⟨part, -, inside⟩ := List.mem_flatMap.mp member
  cases part with
  | begin operation => simp [AccountWork.moves] at inside
  | steps other count now secret =>
    obtain ⟨-, same⟩ := List.mem_replicate.mp inside
    cases same
    have does := accountsAt_does now secret db call
    rw [Option.some.inj answered] at does
    exact does

/-! The administrator of the first boot signs in, and asks for what only an editor or an
administrator may do. -/

def signInRequest : HttpRequest where
  method := js "POST"
  sessionCookie := none
  csrfCookie := some (js "pre")
  csrfHeader := some (js "pre")
  instanceId := none

def adminRequest : HttpRequest where
  method := js "PUT"
  sessionCookie := some (js "s0-32")
  csrfCookie := none
  csrfHeader := some (js "s0-24")
  instanceId := none

def signedInWork : List AccountWork := [
  .begin (.bootstrap (js "root") (some (js "correct horse"))), .steps 0 3 1000 [],
  .begin (.login signInRequest (js "root") (js "correct horse") none), .steps 1 7 2000 (js "s0")]

def servedWork : List AccountWork :=
  signedInWork ++ [.begin (.visit (.estate .jobWrite) adminRequest), .steps 2 2 3000 []]

/-- An operation ended by serving a user of this name. -/
def servesUser (flight : Flight AccountAnswer JsString AccountReply AccountOperation) (operation : AccountOperation)
    (username : JsString) : Bool :=
  flight.operation = operation &&
    match flight.program with
    | .done (.served user) => user.username = username
    | _ => false

private theorem served_of_servesUser {flight : Flight AccountAnswer JsString AccountReply AccountOperation}
    {operation : AccountOperation} {username : JsString} (serves : servesUser flight operation username = true) :
    flight.operation = operation ∧
      ∃ user : AuthenticatedUser, flight.program = .done (.served user) ∧ user.username = username := by
  obtain ⟨same, ended⟩ := Bool.and_eq_true_iff.mp serves
  refine ⟨of_decide_eq_true same, ?_⟩
  cases isProgram : flight.program with
  | done reply =>
    cases reply with
    | served user =>
      rw [isProgram] at ended
      exact ⟨user, rfl, of_decide_eq_true ended⟩
    | _ => simp [isProgram] at ended
  | _ => simp [isProgram] at ended

end RemoteSqlAgent
