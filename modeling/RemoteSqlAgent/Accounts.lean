import RemoteSqlAgent.Environments
import RemoteSqlAgent.Interleaving
import RemoteSqlAgent.JsHex
import RemoteSqlAgent.KeyedTable

/-! Who may use the dashboard. Sign-in, sign-out, the guards of the routes and the routes that
administer users are programs on one database; any of them can be in progress at once, each
statement being atomic. -/
namespace RemoteSqlAgent
open Js CallProgram

/-! ## The tables -/

inductive IdentityProvider where
  | local_ | entra
  deriving DecidableEq

structure AuthenticatedUser where
  id : JsString
  username : JsString
  displayName : Option JsString
  role : Role
  identityProvider : IdentityProvider
  roleFromIdp : Bool
  identityGroups : List JsString
  identityGroupsTruncated : Bool
  deriving DecidableEq

/-- A row of `users`. -/
structure UserRow extends AuthenticatedUser where
  passwordHash : Option JsString
  email : Option JsString
  externalId : Option JsString
  disabledAt : Option Int
  deriving DecidableEq

/-- A row of `sessions`. -/
structure SessionRow where
  userId : JsString
  tokenHash : JsString
  csrfTokenHash : JsString
  expiresAt : Int
  remoteAddress : Option JsString
  deriving DecidableEq

/-- A sign-in at Entra that was begun here. -/
structure PendingAuth where
  state : JsString
  nonce : JsString
  codeVerifier : JsString
  redirectUri : JsString
  createdAt : Int

structure AccountDb where
  users : KeyedTable fun user : UserRow => user.id
  sessions : KeyedTable SessionRow.tokenHash
  /-- In the memory of the control plane. -/
  pending : KeyedTable PendingAuth.state
  environments : JsString → Option (Option JsString)
  grants : List EnvironmentGrant

/-! ## Entra's claims -/

/-- The payload of an `id_token` that `jwtVerify` accepted. -/
structure Claims where
  nonce : Option JsString
  oid : Option JsString
  preferredUsername : Option JsString
  upn : Option JsString
  name : Option JsString
  email : Option JsString
  roles : List JsString
  groups : List JsString
  /-- `_claim_names.groups` is there. -/
  groupsElsewhere : Bool

structure EntraProfile where
  objectId : JsString
  username : JsString
  displayName : Option JsString
  email : Option JsString
  role : Option Role
  appRoles : List JsString
  groupIds : List JsString
  groupsTruncated : Bool

inductive AuthMode where
  | local_ | entra | both
  deriving DecidableEq

structure AuthConfig where
  mode : AuthMode
  sessionTtlHours : Int
  table : CaseTable
  /-- `createHash('sha256').update(text, 'utf8').digest()`. -/
  sha256 : JsString → List UInt8
  /-- `argon2.verify`, with what it throws read as a wrong password. -/
  verifyPassword : JsString → JsString → Bool
  appRoleMap : JsString → Option Role
  defaultRole : Option Role
  redirectUri : JsString

def AUTH_FLOW_TTL_MS : Int := 10 * 60 * 1000

/-! ## Calls -/

/-- What the accounts ask of the database, the libraries and Entra. -/
inductive AccountCall where
  | readClock
  | generateSecret (bytes : Nat)
  /-- The user of a name whose provider is `local`. -/
  | selectLocalUser (username : JsString)
  | stampLogin (userId : JsString)
  | insertSession (values : SessionRow)
  /-- The session with its user, if it has not expired by then. -/
  | selectSession (tokenHash : JsString) (now : Int)
  | deleteSession (tokenHash : JsString)
  | deleteExpired (now : Int)
  | anyUser
  | hashPassword (password : JsString)
  | insertUser (username passwordHash : JsString) (role : Role) (displayName : Option JsString)
  | selectUser (userId : JsString)
  | updateRole (userId : JsString) (role : Role)
  | updateDisabled (userId : JsString) (disabledAt : Option Int)
  /-- `INSERT … ON CONFLICT (external_id) DO UPDATE … RETURNING *`. -/
  | upsertEntraUser (profile : EntraProfile) (role : Role)
  | prunePending (cutoff : Int)
  | addPending (pending : PendingAuth)
  | takePending (state : JsString)
  /-- The token endpoint, and `jwtVerify` on what it answers. -/
  | redeemCode (code redirectUri codeVerifier : JsString)
  | environmentOfInstance (instanceId : JsString)
  | loadGrants
  | writeAudit (actor action : JsString)
  /-- Work of the rest of the product on tags and grants. -/
  | elsewhere

def AccountAnswer : AccountCall → Type
  | .readClock => Int
  | .generateSecret _ => JsString
  | .selectLocalUser _ => Except JsString (Option UserRow)
  | .stampLogin _ => Except JsString Unit
  | .insertSession _ => Except JsString Unit
  | .selectSession _ _ => Except JsString (Option (SessionRow × UserRow))
  | .deleteSession _ => Except JsString Unit
  | .deleteExpired _ => Except JsString Unit
  | .anyUser => Except JsString Bool
  | .hashPassword _ => Except JsString JsString
  | .insertUser _ _ _ _ => Except JsString JsString
  | .selectUser _ => Except JsString (Option UserRow)
  | .updateRole _ _ => Except JsString Unit
  | .updateDisabled _ _ => Except JsString Unit
  | .upsertEntraUser _ _ => Except JsString UserRow
  | .prunePending _ => Unit
  | .addPending _ => Unit
  | .takePending _ => Option PendingAuth
  | .redeemCode _ _ _ => Except JsString Claims
  | .environmentOfInstance _ => Except JsString (Option (Option JsString))
  | .loadGrants => Except JsString (List EnvironmentGrant)
  | .writeAudit _ _ => Except JsString Unit
  | .elsewhere => Unit

/-- A program on the accounts. What it throws is a message. -/
abbrev Account (α : Type) := CallProgram AccountCall AccountAnswer JsString α

/-- Throw what a statement throws. -/
def orRaise {α : Type} : Except JsString α → Account α
  | .ok value => .done value
  | .error message => .throw message

/-- A request, as the guards and the sign-in read it. -/
structure HttpRequest where
  method : JsString
  sessionCookie : Option JsString
  csrfCookie : Option JsString
  csrfHeader : Option JsString
  /-- The instance that the resolver of the route finds it to name. -/
  instanceId : Option JsString
  deriving DecidableEq

/-- What a route asks of whoever calls it. -/
inductive Guard where
  /-- `requireSession`. -/
  | session
  /-- `requirePermission`. -/
  | estate (permission : Permission)
  /-- `requireInstancePermission`. -/
  | ofInstance (permission : Permission)
  deriving DecidableEq

/-- A reply that ends a request before its handler. -/
structure Refusal where
  status : Nat
  error : JsString
  detail : JsString

structure CreatedSession where
  token : JsString
  csrfToken : JsString
  expiresAt : Int

inductive AccountReply where
  | refused (refusal : Refusal)
  | served (user : AuthenticatedUser)
  | signedIn (user : AuthenticatedUser) (session : CreatedSession)
  | signedOut
  | redirected (location : JsString)
  | worked

def unauthenticated : Refusal := ⟨401, js "Unauthenticated", js "Sign in to continue."⟩

def csrfFailed : Refusal := ⟨403, js "CsrfFailed", js "Missing or invalid CSRF token. Reload and retry."⟩

def MUTATING_METHODS : List JsString := [js "POST", js "PUT", js "PATCH", js "DELETE"]

section Handlers
variable (config : AuthConfig)

def hashToken (token : JsString) : JsString := toHex (config.sha256 token)

def safeEqualHex (a b : JsString) : Bool :=
  let bufA := fromHex a
  let bufB := fromHex b
  if bufA.length ≠ bufB.length ∨ bufA.length = 0 then false else bufA = bufB

/-! ## Sessions -/

def createSession (userId : JsString) (remoteAddress : Option JsString) : Account CreatedSession :=
  CallProgram.call (.generateSecret 32) fun token : JsString =>
  CallProgram.call (.generateSecret 24) fun csrfToken : JsString =>
  CallProgram.call .readClock fun now : Int => do
    let expiresAt := now + config.sessionTtlHours * 60 * 60 * 1000
    CallProgram.call (.insertSession {
      userId := userId
      tokenHash := hashToken config token
      csrfTokenHash := hashToken config csrfToken
      expiresAt := expiresAt
      remoteAddress := remoteAddress }) orRaise
    return ⟨token, csrfToken, expiresAt⟩

def resolveSession (token : Option JsString) : Account (Option (SessionRow × UserRow)) :=
  match token with
  | none | some [] => return none
  | some token =>
    CallProgram.call .readClock fun now : Int =>
    CallProgram.call (.selectSession (hashToken config token) now)
      fun answer : Except JsString (Option (SessionRow × UserRow)) => do
    match ← orRaise answer with
    | none => return none
    | some (session, user) => if user.disabledAt.isSome then return none else return some (session, user)

def revokeSession (token : Option JsString) : Account Unit :=
  match token with
  | none | some [] => return ()
  | some token => CallProgram.call (.deleteSession (hashToken config token)) orRaise

/-- A header that is there and hashes to what the session holds. -/
def csrfMatches (csrfHeader : Option JsString) (csrfTokenHash : JsString) : Bool :=
  match csrfHeader with
  | none | some [] => false
  | some provided => safeEqualHex (hashToken config provided) csrfTokenHash

/-! ## Guards -/

/-- Session and CSRF, the half that two of the guards share. -/
def authenticate (request : HttpRequest) : Account (Except Refusal UserRow) := do
  match ← resolveSession config request.sessionCookie with
  | none => return .error unauthenticated
  | some (session, user) =>
    if request.method ∈ MUTATING_METHODS ∧ ¬ csrfMatches config request.csrfHeader session.csrfTokenHash then
      return .error csrfFailed
    else return .ok user

def requireSession (request : HttpRequest) : Account (Except Refusal UserRow) := do
  match ← resolveSession config request.sessionCookie with
  | none => return .error unauthenticated
  | some (_, user) => return .ok user

def requirePermission (permission : Permission) (request : HttpRequest) : Account (Except Refusal UserRow) := do
  match ← authenticate config request with
  | .error refusal => return .error refusal
  | .ok user =>
    if roleHasPermission user.role permission then return .ok user
    else return .error ⟨403, js "Forbidden",
      js "Your role (" ++ user.role.text ++ js ") cannot " ++ permission.text ++ js "."⟩

def UserRow.principal (user : UserRow) : Principal := ⟨user.id, user.role, user.identityGroups⟩

/-- The environment of the instance that a request names; a look-up that fails finds none. -/
def resolveEnvironment (instanceId : Option JsString) : Account (Option (Option JsString)) :=
  match instanceId with
  | none | some [] => return none
  | some instanceId =>
    CallProgram.call (.environmentOfInstance instanceId)
      fun answer : Except JsString (Option (Option JsString)) => return answer.toOption.join

/-- The permission check, once the environment is known. -/
def decideInstance (permission : Permission) (user : UserRow) (instanceId : Option JsString)
    (environmentTag : Option (Option JsString)) (grants : List EnvironmentGrant) : Except Refusal UserRow :=
  let guarded := RemoteSqlAgent.requireInstancePermission config.table permission user.principal instanceId
    (fun _ => .ok environmentTag) grants
  match guarded.forbidden with
  | none => .ok user
  | some detail => .error ⟨403, js "Forbidden", detail⟩

/-- `requireInstancePermission`. The grants are loaded only where they can matter. -/
def guardInstance (permission : Permission) (request : HttpRequest) : Account (Except Refusal UserRow) := do
  match ← authenticate config request with
  | .error refusal => return .error refusal
  | .ok user =>
    let environmentTag ← resolveEnvironment request.instanceId
    if roleHasPermission user.role permission ∨ environmentTag = none then
      return decideInstance config permission user request.instanceId environmentTag []
    else
      CallProgram.call .loadGrants fun answer : Except JsString (List EnvironmentGrant) => do
        let grants ← orRaise answer
        return decideInstance config permission user request.instanceId environmentTag grants

def Guard.check (guard : Guard) (request : HttpRequest) : Account (Except Refusal UserRow) :=
  match guard with
  | .session => requireSession config request
  | .estate permission => requirePermission config permission request
  | .ofInstance permission => guardInstance config permission request

/-! ## Local sign-in -/

def authenticateLocal (username password : JsString) : Account (Option UserRow) :=
  CallProgram.call (.selectLocalUser username) fun answer : Except JsString (Option UserRow) => do
  match ← orRaise answer with
  | none => return none
  | some user =>
    match user.passwordHash with
    | none | some [] => return none
    | some passwordHash =>
      if user.disabledAt.isSome then return none
      else if ¬ config.verifyPassword passwordHash password then return none
      else
        CallProgram.call (.stampLogin user.id) orRaise
        return some user

/-- `POST /api/auth/login`. There is no session yet, so the cookie and the header must say the same. -/
def login (request : HttpRequest) (username password : JsString) (ip : Option JsString) : Account AccountReply :=
  let csrfCookie := request.csrfCookie.filter fun cookie => cookie ≠ []
  if ¬ (csrfCookie.any fun cookie => csrfMatches config request.csrfHeader (hashToken config cookie)) then
    return .refused csrfFailed
  else if config.mode = .entra then
    return .refused ⟨400, js "LocalSignInDisabled", js "This deployment signs in with Entra."⟩
  else if ¬ ((1 ≤ username.length ∧ username.length ≤ 256) ∧ 1 ≤ password.length ∧ password.length ≤ 1024) then
    .throw (js "Invalid body")
  else do
    match ← authenticateLocal config username password with
    | none =>
      CallProgram.call (.writeAudit username (js "auth.login.failed")) orRaise
      return .refused ⟨401, js "InvalidCredentials", js "Incorrect username or password."⟩
    | some user =>
      let session ← createSession config user.id ip
      CallProgram.call (.writeAudit user.username (js "auth.login")) orRaise
      return .signedIn user.toAuthenticatedUser session

/-- `POST /api/auth/logout`, which works for a session that is no longer one. -/
def logout (request : HttpRequest) : Account AccountReply := do
  let session ← resolveSession config request.sessionCookie
  if session.any fun (session, _) => ¬ csrfMatches config request.csrfHeader session.csrfTokenHash then
    return .refused csrfFailed
  else
    revokeSession config request.sessionCookie
    match session with
    | none => return .signedOut
    | some (_, user) =>
      CallProgram.call (.writeAudit user.username (js "auth.logout")) orRaise
      return .signedOut

/-! ## Entra sign-in -/

def beginSignIn : Account AccountReply :=
  CallProgram.call .readClock fun now : Int =>
  CallProgram.call (.prunePending (now - AUTH_FLOW_TTL_MS)) fun _ =>
  CallProgram.call (.generateSecret 24) fun state : JsString =>
  CallProgram.call (.generateSecret 24) fun nonce : JsString =>
  CallProgram.call (.generateSecret 48) fun codeVerifier : JsString =>
  CallProgram.call .readClock fun createdAt : Int =>
  CallProgram.call (.addPending ⟨state, nonce, codeVerifier, config.redirectUri, createdAt⟩) fun _ =>
    return .redirected state

/-- The most privileged role of those mapped. -/
def resolveRole (appRoles : List JsString) : Option Role :=
  let mapped := appRoles.filterMap config.appRoleMap
  ([Role.admin, .editor, .operator, .viewer].find? fun role => role ∈ mapped).or config.defaultRole

def profileFromClaims (claims : Claims) : Except JsString EntraProfile :=
  match claims.oid with
  | none | some [] => .error (js "id_token has no oid claim; cannot identify the user.")
  | some objectId => .ok {
      objectId := objectId
      username := (claims.preferredUsername.or claims.upn).getD objectId
      displayName := claims.name
      email := claims.email.or claims.preferredUsername
      role := resolveRole config claims.roles
      appRoles := claims.roles
      groupIds := claims.groups
      groupsTruncated := claims.groupsElsewhere }

def completeSignIn (code state : JsString) : Account EntraProfile :=
  CallProgram.call (.takePending state) fun answer : Option PendingAuth =>
  match answer with
  | none => .throw (js "Sign-in state is unknown or has expired. Start again.")
  | some pending =>
    CallProgram.call .readClock fun now : Int =>
    if now - pending.createdAt > AUTH_FLOW_TTL_MS then .throw (js "Sign-in took too long. Start again.")
    else CallProgram.call (.redeemCode code pending.redirectUri pending.codeVerifier)
      fun answer : Except JsString Claims => do
      let claims ← orRaise answer
      if claims.nonce ≠ some pending.nonce then .throw (js "id_token nonce did not match the sign-in request.")
      else orRaise (profileFromClaims config claims)

def EntraProfile.identityGroups (profile : EntraProfile) : List JsString :=
  profile.groupIds.map (membershipKey .entra_group) ++ profile.appRoles.map (membershipKey .app_role)

def upsertEntraUser (profile : EntraProfile) : Account UserRow :=
  match profile.role with
  | none => .throw (profile.username ++ js (" signed in successfully but has no Remote SQL Agent app role assigned " ++
      "in Entra. Assign one of the rsagent.* app roles, or set RSAGENT_ENTRA_DEFAULT_ROLE."))
  | some role => CallProgram.call (.upsertEntraUser profile role) fun answer : Except JsString UserRow => do
    let row ← orRaise answer
    if row.disabledAt.isSome then .throw (row.username ++ js " is disabled in Remote SQL Agent.")
    else return row

/-- The `try` of the callback. -/
def signInWithEntra (code state : JsString) (ip : Option JsString) : Account AccountReply := do
  let profile ← completeSignIn config code state
  let user ← upsertEntraUser profile
  let session ← createSession config user.id ip
  CallProgram.call (.writeAudit user.username (js "auth.login")) orRaise
  return .signedIn user.toAuthenticatedUser session

/-- `GET /api/auth/entra/callback`. Whatever goes wrong is audited, and answered with a fixed text. -/
def entraCallback (error code state : Option JsString) (ip : Option JsString) : Account AccountReply :=
  if error.any fun text => text ≠ [] then
    CallProgram.call (.writeAudit (js "unknown") (js "auth.login.failed")) fun answer : Except JsString Unit => do
      orRaise answer
      return .redirected (js "/signin?error=Microsoft+sign-in+failed+or+was+cancelled.")
  else
    match code.filter fun text => text ≠ [], state.filter fun text => text ≠ [] with
    | some code, some state =>
      (signInWithEntra config code state ip).tryCatch fun _ =>
        CallProgram.call (.writeAudit (js "unknown") (js "auth.login.failed")) fun answer : Except JsString Unit => do
          orRaise answer
          return .redirected (js "/signin?error=Microsoft+sign-in+failed.+Try+again+or+contact+your+administrator.")
    | _, _ => return .redirected (js "/signin?error=Missing+authorisation+code")

/-! ## Administering users -/

/-- What the routes under `/api/users` do. -/
inductive AdminAct where
  | createUser (username password : JsString) (role : Role) (displayName : Option JsString)
  | setRole (userId : JsString) (role : Role)
  | setDisabled (userId : JsString) (disabled : Bool)
  deriving DecidableEq

def createLocalUser (username password : JsString) (role : Role) (displayName : Option JsString) : Account Unit :=
  CallProgram.call (.hashPassword password) fun answer : Except JsString JsString => do
    let passwordHash ← orRaise answer
    let _ ← CallProgram.call (.insertUser username passwordHash role displayName) orRaise
    return ()

def setUserRole (userId : JsString) (role : Role) : Account Unit :=
  CallProgram.call (.selectUser userId) fun answer : Except JsString (Option UserRow) => do
  match ← orRaise answer with
  | none => .throw (js "No such user.")
  | some existing =>
    if existing.roleFromIdp then
      .throw (existing.username ++ js ("'s role comes from an Entra app role. Change it in Entra instead — " ++
        "a change made here would be overwritten at their next sign-in."))
    else CallProgram.call (.updateRole userId role) orRaise

def setUserDisabled (userId : JsString) (disabled : Bool) : Account Unit :=
  if disabled then CallProgram.call .readClock fun now : Int => CallProgram.call (.updateDisabled userId (some now)) orRaise
  else CallProgram.call (.updateDisabled userId none) orRaise

def AdminAct.perform (user : UserRow) : AdminAct → Account Unit
  | createUser username password role displayName =>
    if (1 ≤ username.length ∧ username.length ≤ 256) ∧ (12 ≤ password.length ∧ password.length ≤ 1024) ∧
        displayName.all fun name => name.length ≤ 256 then
      createLocalUser username password role displayName
    else .throw (js "Invalid body")
  | setRole userId role => setUserRole userId role
  | setDisabled userId disabled =>
    if userId = user.id ∧ disabled then .throw (js "You cannot disable your own account.")
    else setUserDisabled userId disabled

/-- A route under `/api/users`. -/
def administer (request : HttpRequest) (act : AdminAct) : Account AccountReply := do
  match ← requirePermission config .userAdmin request with
  | .error refusal => return .refused refusal
  | .ok user =>
    act.perform user
    CallProgram.call (.writeAudit user.username (js "user.changed")) orRaise
    return .served user.toAuthenticatedUser

/-- Any other route, up to its handler. -/
def visit (guard : Guard) (request : HttpRequest) : Account AccountReply := do
  match ← guard.check config request with
  | .error refusal => return .refused refusal
  | .ok user => return .served user.toAuthenticatedUser

/-- The administrator of the first boot. -/
def ensureBootstrapAdmin (username : JsString) (configuredPassword : Option JsString) : Account AccountReply :=
  CallProgram.call .anyUser fun answer : Except JsString Bool => do
    if ← orRaise answer then return .worked
    else
      let password ← match configuredPassword with
        | some password => (return password : Account JsString)
        | none => CallProgram.call (.generateSecret 18) .done
      createLocalUser username password .admin (some (js "Bootstrap admin"))
      return .worked

end Handlers

/-! ## Operations -/

inductive AccountOperation where
  | bootstrap (username : JsString) (configuredPassword : Option JsString)
  | login (request : HttpRequest) (username password : JsString) (ip : Option JsString)
  | logout (request : HttpRequest)
  | beginEntra
  | entraCallback (error code state ip : Option JsString)
  | administer (request : HttpRequest) (act : AdminAct)
  | visit (guard : Guard) (request : HttpRequest)
  | pruneExpiredSessions
  | elsewhere
  deriving DecidableEq

def AccountOperation.body (config : AuthConfig) : AccountOperation → Account AccountReply
  | bootstrap username configuredPassword => ensureBootstrapAdmin username configuredPassword
  | login request username password ip => RemoteSqlAgent.login config request username password ip
  | logout request => RemoteSqlAgent.logout config request
  | beginEntra => beginSignIn config
  | entraCallback error code state ip => RemoteSqlAgent.entraCallback config error code state ip
  | administer request act => RemoteSqlAgent.administer config request act
  | visit guard request => RemoteSqlAgent.visit config guard request
  | pruneExpiredSessions =>
    CallProgram.call .readClock fun now : Int =>
    CallProgram.call (.deleteExpired now) fun answer : Except JsString Unit => do
      orRaise answer
      return .worked
  | elsewhere => CallProgram.call .elsewhere fun _ => return .worked

/-! ## What the calls do -/

/-- The user that signing in through Entra makes of a profile, or of the user there was. -/
def EntraProfile.updated (profile : EntraProfile) (role : Role) (row : UserRow) : UserRow :=
  { row with
    username := profile.username
    displayName := profile.displayName
    email := profile.email
    role := role
    roleFromIdp := true
    identityGroups := profile.identityGroups
    identityGroupsTruncated := profile.groupsTruncated }

def EntraProfile.inserted (profile : EntraProfile) (role : Role) (id : JsString) : UserRow where
  id := id
  username := profile.username
  passwordHash := none
  role := role
  displayName := profile.displayName
  email := profile.email
  identityProvider := .entra
  externalId := some profile.objectId
  roleFromIdp := true
  identityGroups := profile.identityGroups
  identityGroupsTruncated := profile.groupsTruncated
  disabledAt := none

def localUser (id username passwordHash : JsString) (role : Role) (displayName : Option JsString) : UserRow where
  id := id
  username := username
  passwordHash := some passwordHash
  role := role
  displayName := displayName
  email := none
  identityProvider := .local_
  externalId := none
  roleFromIdp := false
  identityGroups := []
  identityGroupsTruncated := false
  disabledAt := none

namespace AccountDb

def user (db : AccountDb) (id : JsString) : Option UserRow := db.users.rows.find? fun row => row.id = id

/-- One user changed, its id kept. -/
def changeUser (db : AccountDb) (id : JsString) (change : UserRow → UserRow) (keeps : ∀ row, (change row).id = row.id) :
    AccountDb :=
  { db with
    users := db.users.modify (fun row => if row.id = id then change row else row)
      fun row => by
        split
        · exact keeps row
        · rfl }

def addUser (db : AccountDb) (row : UserRow) (free : ¬ db.users.Holds row.id) : AccountDb :=
  { db with users := db.users.add row free }

/-- The unique index on `username`, for a user that is not there or is the one of this id. -/
def NameFree (db : AccountDb) (id username : JsString) : Prop :=
  ∀ other ∈ db.users.rows, other.id ≠ id → other.username ≠ username

instance (db : AccountDb) (id username : JsString) : Decidable (db.NameFree id username) := List.decidableBAll _ _

/-- A session that has not expired, with its user. -/
def sessionWith (db : AccountDb) (tokenHash : JsString) (now : Int) : Option (SessionRow × UserRow) :=
  (db.sessions.rows.find? fun row => row.tokenHash = tokenHash ∧ row.expiresAt > now).bind fun row =>
    (db.user row.userId).map fun user => (row, user)

end AccountDb

/-- What a call can be answered, and what the database can be after it. A statement that fails
changes nothing. -/
def AccountCall.Does (db : AccountDb) : (call : AccountCall) → AccountAnswer call → AccountDb → Prop
  | .selectLocalUser username, .ok row, after => row = (db.users.rows.find? fun row =>
      row.username = username ∧ row.identityProvider = .local_) ∧ after = db
  | .insertSession values, .ok _, after => (db.user values.userId).isSome ∧
      ∃ free, after = { db with sessions := db.sessions.add values free }
  | .selectSession tokenHash now, .ok found, after => found = db.sessionWith tokenHash now ∧ after = db
  | .deleteSession tokenHash, .ok _, after =>
      after = { db with sessions := db.sessions.remove fun row => row.tokenHash = tokenHash }
  | .deleteExpired now, .ok _, after =>
      after = { db with sessions := db.sessions.remove fun row => row.expiresAt < now }
  | .anyUser, .ok found, after => found = !db.users.rows.isEmpty ∧ after = db
  | .insertUser username passwordHash role displayName, .ok id, after => db.NameFree id username ∧
      ∃ free, after = db.addUser (localUser id username passwordHash role displayName) free
  | .selectUser userId, .ok row, after => row = db.user userId ∧ after = db
  | .updateRole userId role, .ok _, after =>
      after = db.changeUser userId (fun row => { row with role := role }) fun _ => rfl
  | .updateDisabled userId disabledAt, .ok _, after =>
      after = db.changeUser userId (fun row => { row with disabledAt := disabledAt }) fun _ => rfl
  | .upsertEntraUser profile role, .ok row, after =>
      (∃ held ∈ db.users.rows, held.externalId = some profile.objectId ∧ db.NameFree held.id profile.username ∧
        row = profile.updated role held ∧ after = db.changeUser held.id (profile.updated role) fun _ => rfl) ∨
      ((∀ held ∈ db.users.rows, held.externalId ≠ some profile.objectId) ∧ db.NameFree row.id profile.username ∧
        row = profile.inserted role row.id ∧ ∃ free, after = db.addUser row free)
  | .prunePending cutoff, _, after =>
      after = { db with pending := db.pending.remove fun pending => pending.createdAt < cutoff }
  | .addPending pending, _, after => ∃ free, after =
      { db with pending := (db.pending.remove fun held => held.state = pending.state).add pending free }
  | .takePending state, answer, after => answer = (db.pending.rows.find? fun pending => pending.state = state) ∧
      after = { db with pending := db.pending.remove fun pending => pending.state = state }
  | .environmentOfInstance instanceId, .ok found, after => found = db.environments instanceId ∧ after = db
  | .loadGrants, .ok grants, after => grants = db.grants ∧ after = db
  | .elsewhere, _, after => ∃ environments grants, after = { db with environments := environments, grants := grants }
  | .readClock, _, after | .generateSecret _, _, after | .stampLogin _, _, after | .hashPassword _, _, after
  | .redeemCode _ _ _, _, after | .writeAudit _ _, _, after | .selectLocalUser _, .error _, after
  | .insertSession _, .error _, after | .selectSession _ _, .error _, after | .deleteSession _, .error _, after
  | .deleteExpired _, .error _, after | .anyUser, .error _, after | .insertUser _ _ _ _, .error _, after
  | .selectUser _, .error _, after | .updateRole _ _, .error _, after | .updateDisabled _ _, .error _, after
  | .upsertEntraUser _ _, .error _, after | .environmentOfInstance _, .error _, after
  | .loadGrants, .error _, after => after = db

end RemoteSqlAgent
