import RemoteSqlAgent.Accounts
import RemoteSqlAgent.TracedRuns

/-! What the accounts go by. A session is made for whoever proved to be its user, a guard is
passed by what it was told of a session, and users are only administered by somebody who passed
the guard for that. -/
namespace RemoteSqlAgent
open Js CallProgram

/-- What a program was told. -/
abbrev AccountHeard := List (Exchange AccountAnswer)

/-! ## The header of a request -/

theorem safeEqualHex_toHex {first second : List UInt8} :
    safeEqualHex (toHex first) (toHex second) = true ↔ first = second ∧ first ≠ [] := by
  rw [safeEqualHex, fromHex_toHex, fromHex_toHex]
  split
  · rename_i differ
    constructor
    · exact fun unequal => Bool.noConfusion unequal
    · rintro ⟨same, nonempty⟩
      rcases differ with lengths | empty
      · exact absurd (same ▸ rfl) lengths
      · exact absurd (List.length_eq_zero_iff.mp empty) nonempty
  · rename_i alike
    have nonempty : first ≠ [] := fun empty => alike (.inr (by rw [empty]; rfl))
    simp [nonempty]

/-- A header passes if its digest is that of the token a session was made with. -/
theorem csrfMatches_hashToken {config : AuthConfig} {csrfHeader : Option JsString} {csrfToken : JsString} :
    csrfMatches config csrfHeader (hashToken config csrfToken) = true ↔ ∃ provided, csrfHeader = some provided ∧
      provided ≠ [] ∧ config.sha256 provided = config.sha256 csrfToken ∧ config.sha256 provided ≠ [] := by
  cases csrfHeader with
  | none => simp [csrfMatches]
  | some provided =>
    cases provided with
    | nil => simp [csrfMatches]
    | cons unit rest =>
      have given : csrfMatches config (some (unit :: rest)) (hashToken config csrfToken) =
          safeEqualHex (hashToken config (unit :: rest)) (hashToken config csrfToken) := rfl
      rw [given, hashToken, hashToken, safeEqualHex_toHex]
      simp

/-! ## What counts as evidence -/

section Evidence
variable (config : AuthConfig)

/-- A token was found to be of a session of a user who is not disabled. -/
structure Resolved (token : Option JsString) (said : AccountHeard) (session : SessionRow) (user : UserRow) : Prop where
  found : ∃ text now, token = some text ∧
    ⟨.selectSession (hashToken config text) now, .ok (some (session, user))⟩ ∈ said
  enabled : user.disabledAt = none

/-- The half of the guards that is about CSRF. -/
def CsrfHeld (request : HttpRequest) (session : SessionRow) : Prop :=
  request.method ∈ MUTATING_METHODS → csrfMatches config request.csrfHeader session.csrfTokenHash = true

/-- A user may do what a route is for. -/
def Guard.Permits (request : HttpRequest) (said : AccountHeard) (session : SessionRow) (user : UserRow) : Guard → Prop
  | .session => True
  | .estate permission => CsrfHeld config request session ∧ roleHasPermission user.role permission = true
  | .ofInstance permission => CsrfHeld config request session ∧
      (roleHasPermission user.role permission = true ∨ ∃ id tag grants, request.instanceId = some id ∧
        ⟨.environmentOfInstance id, .ok (some tag)⟩ ∈ said ∧ ⟨.loadGrants, .ok grants⟩ ∈ said ∧
          canInEnvironment config.table user.principal grants permission tag = true)

/-- A request passed a guard, as its user. -/
def Guard.Passed (guard : Guard) (request : HttpRequest) (said : AccountHeard) (user : UserRow) : Prop :=
  ∃ session, Resolved config request.sessionCookie said session user ∧ guard.Permits config request said session user

/-- A password was shown to be that of a local user. -/
def ProvedLocal (username password : JsString) (said : AccountHeard) (user : UserRow) : Prop :=
  config.mode ≠ .entra ∧ ⟨.selectLocalUser username, .ok (some user)⟩ ∈ said ∧ user.disabledAt = none ∧
    ∃ passwordHash, user.passwordHash = some passwordHash ∧ config.verifyPassword passwordHash password = true

/-- Entra answered for a sign-in that was begun here with who it was, and the user was made of that. -/
def ProvedEntra (code state : JsString) (said : AccountHeard) (user : UserRow) : Prop :=
  ∃ pending now claims profile role, ⟨.takePending state, some pending⟩ ∈ said ∧ ⟨.readClock, now⟩ ∈ said ∧
    now - pending.createdAt ≤ AUTH_FLOW_TTL_MS ∧
    ⟨.redeemCode code pending.redirectUri pending.codeVerifier, .ok claims⟩ ∈ said ∧
    claims.nonce = some pending.nonce ∧ profileFromClaims config claims = .ok profile ∧ profile.role = some role ∧
    ⟨.upsertEntraUser profile role, .ok user⟩ ∈ said ∧ user.disabledAt = none

/-- An operation signed a user in. -/
def AccountOperation.Proved (said : AccountHeard) (user : UserRow) : AccountOperation → Prop
  | .login _ username password _ => ProvedLocal config username password said user
  | .entraCallback _ code state _ => ∃ text stateText, code = some text ∧ state = some stateText ∧
      ProvedEntra config text stateText said user
  | _ => False

/-- The session is the one made for a user with what was generated for it. -/
def Minted (said : AccountHeard) (user : UserRow) (values : SessionRow) : Prop :=
  ∃ token csrfToken now, ⟨.generateSecret 32, token⟩ ∈ said ∧ ⟨.generateSecret 24, csrfToken⟩ ∈ said ∧
    ⟨.readClock, now⟩ ∈ said ∧ values.userId = user.id ∧ values.tokenHash = hashToken config token ∧
      values.csrfTokenHash = hashToken config csrfToken ∧
        values.expiresAt = now + config.sessionTtlHours * 60 * 60 * 1000

/-- An administrator asked for what the operation does. -/
def ByAdministrator (operation : AccountOperation) (said : AccountHeard) (user : UserRow) : Prop :=
  ∃ request act, operation = .administer request act ∧ (Guard.estate .userAdmin).Passed config request said user

/-- The first boot found no user. -/
def ByBootstrap (operation : AccountOperation) (said : AccountHeard) : Prop :=
  ∃ username password, operation = .bootstrap username password ∧ ⟨.anyUser, .ok false⟩ ∈ said

/-- What allows a call. -/
def AccountFollows (operation : AccountOperation) (said : AccountHeard) : AccountCall → Prop
  | .insertSession values => ∃ user, operation.Proved config said user ∧ Minted config said user values
  | .deleteSession tokenHash => ∃ request text, operation = .logout request ∧ request.sessionCookie = some text ∧
      tokenHash = hashToken config text
  | .insertUser _ _ role _ => (ByBootstrap operation said ∧ role = .admin) ∨
      ∃ user, ByAdministrator config operation said user
  | .updateRole userId _ => (∃ user, ByAdministrator config operation said user) ∧
      ∃ existing, ⟨.selectUser userId, .ok (some existing)⟩ ∈ said ∧ existing.roleFromIdp = false
  | .updateDisabled userId disabledAt => ∃ user, ByAdministrator config operation said user ∧
      (disabledAt.isSome = true → userId ≠ user.id)
  | .upsertEntraUser profile role => profile.role = some role ∧ ∃ error code state ip pending claims,
      operation = .entraCallback error (some code) (some state) ip ∧ ⟨.takePending state, some pending⟩ ∈ said ∧
        ⟨.redeemCode code pending.redirectUri pending.codeVerifier, .ok claims⟩ ∈ said ∧
          claims.nonce = some pending.nonce ∧ profileFromClaims config claims = .ok profile
  | _ => True

/-- What a program that ended was told. -/
def AccountEnds (operation : AccountOperation) (said : AccountHeard) : AccountReply → Prop
  | .served user => ∃ row : UserRow, row.toAuthenticatedUser = user ∧
      ((∃ guard request, operation = .visit guard request ∧ guard.Passed config request said row) ∨
        ∃ request act, operation = .administer request act ∧ (Guard.estate .userAdmin).Passed config request said row)
  | _ => True

end Evidence

section Longer
variable {config : AuthConfig} {said later : AccountHeard} {session : SessionRow} {user : UserRow}

theorem Resolved.longer {token : Option JsString} (resolved : Resolved config token said session user)
    (more : said <+: later) : Resolved config token later session user := by
  obtain ⟨text, now, same, heard⟩ := resolved.found
  exact ⟨⟨text, now, same, more.subset heard⟩, resolved.enabled⟩

theorem Guard.Permits.longer {guard : Guard} {request : HttpRequest}
    (permits : guard.Permits config request said session user) (more : said <+: later) :
    guard.Permits config request later session user := by
  cases guard with
  | session => trivial
  | estate permission => exact permits
  | ofInstance permission =>
    obtain ⟨csrf, may⟩ := permits
    refine ⟨csrf, may.imp_right ?_⟩
    rintro ⟨id, tag, grants, named, found, loaded, can⟩
    exact ⟨id, tag, grants, named, more.subset found, more.subset loaded, can⟩

theorem Guard.Passed.longer {guard : Guard} {request : HttpRequest} (passed : guard.Passed config request said user)
    (more : said <+: later) : guard.Passed config request later user := by
  obtain ⟨session, resolved, permits⟩ := passed
  exact ⟨session, resolved.longer more, permits.longer more⟩

theorem ProvedLocal.longer {username password : JsString} (proved : ProvedLocal config username password said user)
    (more : said <+: later) : ProvedLocal config username password later user := by
  obtain ⟨mode, heard, rest⟩ := proved
  exact ⟨mode, more.subset heard, rest⟩

theorem ProvedEntra.longer {code state : JsString} (proved : ProvedEntra config code state said user)
    (more : said <+: later) : ProvedEntra config code state later user := by
  obtain ⟨pending, now, claims, profile, role, taken, clock, young, redeemed, nonce, isProfile, hasRole, upserted, enabled⟩ :=
    proved
  exact ⟨pending, now, claims, profile, role, more.subset taken, more.subset clock, young, more.subset redeemed, nonce,
    isProfile, hasRole, more.subset upserted, enabled⟩

theorem AccountOperation.Proved.longer {operation : AccountOperation} (proved : operation.Proved config said user)
    (more : said <+: later) : operation.Proved config later user := by
  cases operation with
  | login request username password ip => exact ProvedLocal.longer proved more
  | entraCallback error code state ip =>
    obtain ⟨text, stateText, isCode, isState, proved⟩ := proved
    exact ⟨text, stateText, isCode, isState, proved.longer more⟩
  | _ => exact proved.elim

end Longer

/-! ## The programs -/

section Programs
variable {config : AuthConfig} {operation : AccountOperation} {said : AccountHeard}

/-- The calls that anybody may make. -/
private theorem prefix_ask {earlier : AccountHeard} {request : AccountCall} {answer : AccountAnswer request}
    (more : earlier <+: said) : earlier <+: said ++ [⟨request, answer⟩] := more.trans (List.prefix_append _ _)

/-- A statement whose answer is nothing but that it was executed. -/
private theorem orRaise_goes {α : Type} {fails : AccountHeard → JsString → Prop} {ends : AccountHeard → α → Prop}
    {answer : Except JsString α} (value : ∀ result, answer = .ok result → ends said result)
    (error : ∀ message, fails said message) :
    Goes (AccountFollows config operation) ends fails said (orRaise answer) := by
  cases answer with
  | ok result => exact .done (value result rfl)
  | error message => exact .throw (error message)

theorem resolveSession_goes (token : Option JsString) :
    Goes (AccountFollows config operation)
      (fun later result => said <+: later ∧ ∀ session user, result = some (session, user) →
        Resolved config token later session user)
      (fun _ _ => True) said (resolveSession config token) := by
  have nobody : ∀ later : AccountHeard, said <+: later →
      said <+: later ∧ ∀ session user, (none : Option (SessionRow × UserRow)) = some (session, user) →
        Resolved config token later session user := by
    intro later more
    exact ⟨more, by simp⟩
  cases token with
  | none => exact .done (nobody _ List.prefix_rfl)
  | some text =>
    cases text with
    | nil => exact .done (nobody _ List.prefix_rfl)
    | cons first rest =>
      refine .call trivial fun now => .call trivial fun answer => ?_
      cases answer with
      | error message => exact .throw trivial
      | ok found =>
        cases found with
        | none => exact .done (nobody _ (prefix_ask (prefix_ask List.prefix_rfl)))
        | some pair =>
          obtain ⟨session, user⟩ := pair
          refine Goes.ite (fun disabled => .done (nobody _ (prefix_ask (prefix_ask List.prefix_rfl)))) fun enabled => ?_
          refine .done ⟨prefix_ask (prefix_ask List.prefix_rfl), ?_⟩
          rintro _ _ ⟨⟩
          exact ⟨⟨first :: rest, now, rfl, by simp⟩, by simpa using enabled⟩

/-- What a guard answers. -/
def GuardEnds (config : AuthConfig) (guard : Guard) (request : HttpRequest) (said later : AccountHeard) :
    Except Refusal UserRow → Prop
  | .error _ => said <+: later
  | .ok user => said <+: later ∧ guard.Passed config request later user

theorem authenticate_goes (request : HttpRequest) :
    Goes (AccountFollows config operation)
      (fun later result => said <+: later ∧ ∀ user, result = .ok user →
        ∃ session, Resolved config request.sessionCookie later session user ∧ CsrfHeld config request session)
      (fun _ _ => True) said (authenticate config request) := by
  refine (resolveSession_goes request.sessionCookie).bind fun later result ends => ?_
  obtain ⟨more, resolved⟩ := ends
  cases result with
  | none => exact .done ⟨more, by simp⟩
  | some pair =>
    obtain ⟨session, user⟩ := pair
    refine Goes.ite (fun failed => .done ⟨more, by simp⟩) fun held => .done ⟨more, ?_⟩
    rintro _ ⟨⟩
    refine ⟨session, resolved session user rfl, fun mutating => ?_⟩
    simpa [mutating] using held

theorem requireSession_goes (request : HttpRequest) :
    Goes (AccountFollows config operation) (GuardEnds config .session request said) (fun _ _ => True) said
      (requireSession config request) := by
  refine (resolveSession_goes request.sessionCookie).bind fun later result ends => ?_
  obtain ⟨more, resolved⟩ := ends
  cases result with
  | none => exact .done more
  | some pair =>
    obtain ⟨session, user⟩ := pair
    exact .done ⟨more, session, resolved session user rfl, trivial⟩

theorem requirePermission_goes (permission : Permission) (request : HttpRequest) :
    Goes (AccountFollows config operation) (GuardEnds config (.estate permission) request said) (fun _ _ => True) said
      (requirePermission config permission request) := by
  refine (authenticate_goes request).bind fun later result ends => ?_
  obtain ⟨more, resolved⟩ := ends
  cases result with
  | error refusal => exact .done more
  | ok user =>
    obtain ⟨session, found, csrf⟩ := resolved user rfl
    exact Goes.ite (fun may => .done ⟨more, session, found, csrf, may⟩) fun _ => .done more

theorem resolveEnvironment_goes (instanceId : Option JsString) :
    Goes (AccountFollows config operation)
      (fun later result => said <+: later ∧ ∀ tag, result = some tag →
        ∃ id, instanceId = some id ∧ id ≠ [] ∧ ⟨.environmentOfInstance id, .ok (some tag)⟩ ∈ later)
      (fun _ _ => True) said (resolveEnvironment instanceId) := by
  cases instanceId with
  | none => exact .done ⟨List.prefix_rfl, by simp⟩
  | some text =>
    cases text with
    | nil => exact .done ⟨List.prefix_rfl, by simp⟩
    | cons first rest =>
      refine .call trivial fun answer => .done ⟨prefix_ask List.prefix_rfl, fun tag found => ?_⟩
      refine ⟨first :: rest, rfl, by simp, ?_⟩
      cases answer with
      | error message => simp [Except.toOption] at found
      | ok there =>
        obtain rfl : there = some tag := by simpa [Except.toOption] using found
        simp

theorem decideInstance_ok {permission : Permission} {user other : UserRow} {instanceId : Option JsString}
    {environmentTag : Option (Option JsString)} {grants : List EnvironmentGrant}
    (decided : decideInstance config permission user instanceId environmentTag grants = .ok other) :
    user = other ∧ (roleHasPermission user.role permission = true ∨ ∃ tag, environmentTag = some tag ∧
      canInEnvironment config.table user.principal grants permission tag = true) := by
  unfold decideInstance at decided
  cases forbidden : (RemoteSqlAgent.requireInstancePermission config.table permission user.principal instanceId
      (fun _ => .ok environmentTag) grants).forbidden with
  | some detail => simp [forbidden] at decided
  | none =>
    refine ⟨by simpa [forbidden] using decided, ?_⟩
    rcases requireInstancePermission_proceeds.mp forbidden with base | ⟨id, tag, -, -, isTag, can⟩
    · exact .inl base
    · exact .inr ⟨tag, by simpa using isTag, can⟩

theorem guardInstance_goes (permission : Permission) (request : HttpRequest) :
    Goes (AccountFollows config operation) (GuardEnds config (.ofInstance permission) request said) (fun _ _ => True)
      said (guardInstance config permission request) := by
  refine (authenticate_goes request).bind fun later result ends => ?_
  obtain ⟨more, resolved⟩ := ends
  cases result with
  | error refusal => exact .done more
  | ok user =>
    obtain ⟨session, found, csrf⟩ := resolved user rfl
    refine (resolveEnvironment_goes request.instanceId).bind fun last tag ends => ?_
    obtain ⟨longer, named⟩ := ends
    have decides : ∀ (heard : AccountHeard) (grants : List EnvironmentGrant), last <+: heard →
        (roleHasPermission user.role permission = true ∨ tag = none ∨ ⟨.loadGrants, .ok grants⟩ ∈ heard) →
        GuardEnds config (.ofInstance permission) request said heard
          (decideInstance config permission user request.instanceId tag grants) := by
      intro heard grants onward looked
      have whole := (more.trans longer).trans onward
      cases decided : decideInstance config permission user request.instanceId tag grants with
      | error refusal => exact whole
      | ok other =>
        obtain ⟨rfl, may⟩ := decideInstance_ok decided
        refine ⟨whole, session, found.longer (longer.trans onward), csrf, ?_⟩
        by_cases base : roleHasPermission user.role permission = true
        · exact .inl base
        · obtain ⟨environment, rfl, can⟩ := may.resolve_left base
          obtain ⟨id, isId, -, told⟩ := named environment rfl
          have loaded := (looked.resolve_left base).resolve_left (by simp)
          exact .inr ⟨id, environment, grants, isId, onward.subset told, loaded, can⟩
    refine Goes.ite (fun short => .done (decides last [] List.prefix_rfl ?_)) fun long => ?_
    · exact short.imp_right .inl
    · refine .call trivial fun answer => ?_
      cases answer with
      | error message => exact .throw trivial
      | ok grants => exact .done (decides _ grants (List.prefix_append _ _) (.inr (.inr (by simp))))

/-- Whoever passes a guard was found to have a session, and may do what the route is for. -/
theorem check_goes (guard : Guard) (request : HttpRequest) :
    Goes (AccountFollows config operation) (GuardEnds config guard request said) (fun _ _ => True) said
      (guard.check config request) := by
  cases guard with
  | session => exact requireSession_goes request
  | estate permission => exact requirePermission_goes permission request
  | ofInstance permission => exact guardInstance_goes permission request

/-- A session is made of what was generated for a user who was signed in. -/
theorem createSession_goes {user : UserRow} (proved : operation.Proved config said user) (ip : Option JsString) :
    Goes (AccountFollows config operation) (fun later _ => said <+: later) (fun _ _ => True) said
      (createSession config user.id ip) := by
  refine .call trivial fun token => .call trivial fun csrfToken => .call trivial fun now => ?_
  have more : said <+: ((said ++ [⟨.generateSecret 32, token⟩]) ++ [⟨.generateSecret 24, csrfToken⟩]) ++
      [⟨.readClock, now⟩] := prefix_ask (prefix_ask (prefix_ask List.prefix_rfl))
  refine .call ⟨user, proved.longer more, token, csrfToken, now, by simp, by simp, by simp, rfl, rfl, rfl, rfl⟩
    fun answer => ?_
  cases answer with
  | error message => exact .throw trivial
  | ok _ => exact .done (prefix_ask more)

/-- A last statement before a reply that says nothing. -/
theorem audited_goes (said : AccountHeard) (actor action : JsString) {reply : AccountReply}
    (quiet : ∀ later, said <+: later → AccountEnds config operation later reply) :
    Goes (AccountFollows config operation) (AccountEnds config operation) (fun _ _ => True) said
      (CallProgram.call (.writeAudit actor action) orRaise >>= fun _ => return reply) := by
  refine .call trivial fun answer => ?_
  cases answer with
  | error message => exact .throw trivial
  | ok _ => exact .done (quiet _ (prefix_ask List.prefix_rfl))

theorem authenticateLocal_goes (username password : JsString) (mode : config.mode ≠ .entra) :
    Goes (AccountFollows config operation)
      (fun later result => said <+: later ∧ ∀ user, result = some user →
        ProvedLocal config username password later user)
      (fun _ _ => True) said (authenticateLocal config username password) := by
  refine .call trivial fun answer => ?_
  have nobody : said <+: said ++ [⟨.selectLocalUser username, answer⟩] ∧ ∀ user, (none : Option UserRow) = some user →
      ProvedLocal config username password (said ++ [⟨.selectLocalUser username, answer⟩]) user :=
    ⟨prefix_ask List.prefix_rfl, by simp⟩
  cases answer with
  | error message => exact .throw trivial
  | ok found =>
    cases found with
    | none => exact .done nobody
    | some user =>
      cases held : user.passwordHash with
      | none =>
        simp only [orRaise, done_bind, held]
        exact .done nobody
      | some passwordHash =>
        cases passwordHash with
        | nil =>
          simp only [orRaise, done_bind, held]
          exact .done nobody
        | cons first rest =>
          simp only [orRaise, done_bind, held]
          refine Goes.ite (fun _ => .done nobody) fun enabled => Goes.ite (fun _ => .done nobody) fun verified => ?_
          refine .call trivial fun stamped => ?_
          cases stamped with
          | error message => exact .throw trivial
          | ok _ =>
            refine .done ⟨prefix_ask (prefix_ask List.prefix_rfl), ?_⟩
            rintro _ ⟨⟩
            exact ⟨mode, by simp, by simpa using enabled, first :: rest, held, by simpa using verified⟩

theorem login_goes (request : HttpRequest) (username password : JsString) (ip : Option JsString)
    (isLogin : operation = .login request username password ip) :
    Goes (AccountFollows config operation) (AccountEnds config operation) (fun _ _ => True) []
      (login config request username password ip) := by
  refine Goes.ite (fun _ => .done trivial) fun _ => Goes.ite (fun _ => .done trivial) fun mode =>
    Goes.ite (fun _ => .throw trivial) fun _ => ?_
  refine (authenticateLocal_goes username password mode).bind fun later result ends => ?_
  obtain ⟨more, proved⟩ := ends
  cases result with
  | none => exact audited_goes _ _ _ fun _ _ => trivial
  | some user =>
    have signed : operation.Proved config later user := by
      rw [isLogin]
      exact proved user rfl
    exact (createSession_goes signed ip).bind fun last session _ => audited_goes _ _ _ fun _ _ => trivial

theorem logout_goes (request : HttpRequest) (isLogout : operation = .logout request) :
    Goes (AccountFollows config operation) (AccountEnds config operation) (fun _ _ => True) []
      (logout config request) := by
  refine (resolveSession_goes request.sessionCookie).bind fun later result _ => ?_
  refine Goes.ite (fun _ => .done trivial) fun _ => ?_
  have revokes : Goes (AccountFollows config operation) (fun _ _ => True) (fun _ _ => True) later
      (revokeSession config request.sessionCookie) := by
    cases token : request.sessionCookie with
    | none => exact .done trivial
    | some text =>
      cases text with
      | nil => exact .done trivial
      | cons first rest =>
        refine .call ⟨request, first :: rest, isLogout, token, rfl⟩ fun answer => ?_
        exact orRaise_goes (fun _ _ => trivial) fun _ => trivial
  refine revokes.bind fun last _ _ => ?_
  cases result with
  | none => exact .done trivial
  | some pair =>
    obtain ⟨session, user⟩ := pair
    exact audited_goes _ _ _ fun _ _ => trivial

theorem beginSignIn_goes : Goes (AccountFollows config operation) (AccountEnds config operation) (fun _ _ => True) []
    (beginSignIn config) :=
  .call trivial fun _ => .call trivial fun _ => .call trivial fun _ => .call trivial fun _ => .call trivial fun _ =>
    .call trivial fun _ => .call trivial fun _ => .done trivial

/-- A sign-in at Entra that completes is one that was begun here. -/
theorem completeSignIn_goes (code state : JsString) :
    Goes (AccountFollows config operation)
      (fun later profile => said <+: later ∧ ∃ pending now claims, ⟨.takePending state, some pending⟩ ∈ later ∧
        ⟨.readClock, now⟩ ∈ later ∧ now - pending.createdAt ≤ AUTH_FLOW_TTL_MS ∧
        ⟨.redeemCode code pending.redirectUri pending.codeVerifier, .ok claims⟩ ∈ later ∧
        claims.nonce = some pending.nonce ∧ profileFromClaims config claims = .ok profile)
      (fun _ _ => True) said (completeSignIn config code state) := by
  refine .call trivial fun taken => ?_
  cases taken with
  | none => exact .throw trivial
  | some pending =>
    refine .call trivial fun now => Goes.ite (fun _ => .throw trivial) fun young => ?_
    refine .call trivial fun answer => ?_
    cases answer with
    | error message => exact .throw trivial
    | ok claims =>
      refine Goes.ite (fun _ => .throw trivial) fun nonce => ?_
      refine orRaise_goes (fun profile isProfile => ?_) fun _ => trivial
      refine ⟨prefix_ask (prefix_ask (prefix_ask List.prefix_rfl)), pending, now, claims, by simp, by simp,
        not_lt.mp young, by simp, not_not.mp nonce, isProfile⟩

theorem signInWithEntra_goes {error : Option JsString} (code state : JsString) (ip : Option JsString)
    (isCallback : operation = .entraCallback error (some code) (some state) ip) :
    Goes (AccountFollows config operation) (AccountEnds config operation) (fun _ _ => True) said
      (signInWithEntra config code state ip) := by
  refine (completeSignIn_goes code state).bind fun later profile ends => ?_
  obtain ⟨-, pending, now, claims, taken, clock, young, redeemed, nonce, isProfile⟩ := ends
  refine (show Goes _ (fun last user => operation.Proved config last user) _ _ _ from ?_).bind fun last user signed =>
    (createSession_goes signed ip).bind fun final session _ => audited_goes _ _ _ fun _ _ => trivial
  unfold upsertEntraUser
  cases isRole : profile.role with
  | none => exact .throw trivial
  | some role =>
    refine .call ⟨isRole, error, code, state, ip, pending, claims, isCallback, taken, redeemed, nonce, isProfile⟩
      fun answer => ?_
    cases answer with
    | error message => exact .throw trivial
    | ok user =>
      refine Goes.ite (fun _ => .throw trivial) fun enabled => .done ?_
      have more : later <+: later ++ [⟨.upsertEntraUser profile role, .ok user⟩] := prefix_ask List.prefix_rfl
      rw [isCallback]
      exact ⟨code, state, rfl, rfl, pending, now, claims, profile, role, more.subset taken, more.subset clock, young,
        more.subset redeemed, nonce, isProfile, isRole, by simp, by simpa using enabled⟩

theorem entraCallback_goes (error code state ip : Option JsString)
    (isCallback : operation = .entraCallback error code state ip) :
    Goes (AccountFollows config operation) (AccountEnds config operation) (fun _ _ => True) []
      (entraCallback config error code state ip) := by
  have audited : ∀ (heard : AccountHeard) (location : JsString),
      Goes (AccountFollows config operation) (AccountEnds config operation) (fun _ _ => True) heard
        (CallProgram.call (.writeAudit (js "unknown") (js "auth.login.failed")) fun answer : Except JsString Unit => do
          orRaise answer
          return .redirected location) := fun heard location => audited_goes heard _ _ fun _ _ => trivial
  refine Goes.ite (fun _ => audited _ _) fun _ => ?_
  cases isCode : code.filter fun text => text ≠ [] with
  | none => exact .done trivial
  | some codeText =>
    cases isState : state.filter fun text => text ≠ [] with
    | none => exact .done trivial
    | some stateText =>
      have both : code = some codeText ∧ state = some stateText :=
        ⟨(Option.filter_eq_some_iff.mp isCode).1, (Option.filter_eq_some_iff.mp isState).1⟩
      have whole : operation = .entraCallback error (some codeText) (some stateText) ip := by
        rw [isCallback, both.1, both.2]
      exact (signInWithEntra_goes codeText stateText ip whole).tryCatch fun later _ _ => audited _ _

/-! ## Administration -/

theorem ByAdministrator.longer {later : AccountHeard} {user : UserRow}
    (admin : ByAdministrator config operation said user) (more : said <+: later) :
    ByAdministrator config operation later user := by
  obtain ⟨request, act, isAct, passed⟩ := admin
  exact ⟨request, act, isAct, passed.longer more⟩

theorem createLocalUser_goes (username password : JsString) (role : Role) (displayName : Option JsString)
    (allowed : ∀ later passwordHash, said <+: later →
      AccountFollows config operation later (.insertUser username passwordHash role displayName)) :
    Goes (AccountFollows config operation) (fun later _ => said <+: later) (fun _ _ => True) said
      (createLocalUser username password role displayName) := by
  refine .call trivial fun answer => ?_
  cases answer with
  | error message => exact .throw trivial
  | ok passwordHash =>
    refine .call (allowed _ passwordHash (prefix_ask List.prefix_rfl)) fun answer => ?_
    cases answer with
    | error message => exact .throw trivial
    | ok id => exact .done (prefix_ask (prefix_ask List.prefix_rfl))

/-- A role is changed after the user was seen to have it from here. -/
theorem setUserRole_goes {user : UserRow} (admin : ByAdministrator config operation said user) (userId : JsString)
    (role : Role) :
    Goes (AccountFollows config operation) (fun later _ => said <+: later) (fun _ _ => True) said
      (setUserRole userId role) := by
  refine .call trivial fun answer => ?_
  cases answer with
  | error message => exact .throw trivial
  | ok found =>
    cases found with
    | none => exact .throw trivial
    | some existing =>
      refine Goes.ite (fun _ => .throw trivial) fun own => ?_
      refine .call ⟨⟨user, admin.longer (prefix_ask List.prefix_rfl)⟩, existing, by simp, by simpa using own⟩
        fun answer => ?_
      exact orRaise_goes (fun _ _ => prefix_ask (prefix_ask List.prefix_rfl)) fun _ => trivial

/-- No administrator disables their own account. -/
theorem setUserDisabled_goes {user : UserRow} (admin : ByAdministrator config operation said user)
    (userId : JsString) (disabled : Bool) (other : disabled = true → userId ≠ user.id) :
    Goes (AccountFollows config operation) (fun later _ => said <+: later) (fun _ _ => True) said
      (setUserDisabled userId disabled) := by
  refine Goes.ite (fun disables => .call trivial fun now => ?_) fun _ => ?_
  · refine .call ⟨user, admin.longer (prefix_ask List.prefix_rfl), fun _ => other disables⟩ fun answer => ?_
    exact orRaise_goes (fun _ _ => prefix_ask (prefix_ask List.prefix_rfl)) fun _ => trivial
  · refine .call ⟨user, admin, by simp⟩ fun answer => ?_
    exact orRaise_goes (fun _ _ => prefix_ask List.prefix_rfl) fun _ => trivial

theorem perform_goes {user : UserRow} (admin : ByAdministrator config operation said user) (act : AdminAct) :
    Goes (AccountFollows config operation) (fun later _ => said <+: later) (fun _ _ => True) said
      (act.perform user) := by
  cases act with
  | createUser username password role displayName =>
    refine Goes.ite (fun _ => createLocalUser_goes _ _ _ _ ?_) fun _ => .throw trivial
    exact fun later passwordHash more => .inr ⟨user, admin.longer more⟩
  | setRole userId role => exact setUserRole_goes admin userId role
  | setDisabled userId disabled =>
    refine Goes.ite (fun _ => .throw trivial) fun other => setUserDisabled_goes admin userId disabled ?_
    exact fun disables same => other ⟨same, disables⟩

theorem administer_goes (request : HttpRequest) (act : AdminAct) (isAct : operation = .administer request act) :
    Goes (AccountFollows config operation) (AccountEnds config operation) (fun _ _ => True) []
      (administer config request act) := by
  refine (requirePermission_goes .userAdmin request).bind fun later result ends => ?_
  cases result with
  | error refusal => exact .done trivial
  | ok user =>
    obtain ⟨-, passed⟩ := ends
    refine (perform_goes ⟨request, act, isAct, passed⟩ act).bind fun last _ more => ?_
    exact audited_goes _ _ _ fun final onward =>
      ⟨user, rfl, .inr ⟨request, act, isAct, passed.longer (more.trans onward)⟩⟩

theorem visit_goes (guard : Guard) (request : HttpRequest) (isVisit : operation = .visit guard request) :
    Goes (AccountFollows config operation) (AccountEnds config operation) (fun _ _ => True) []
      (visit config guard request) := by
  refine (check_goes guard request).bind fun later result ends => ?_
  cases result with
  | error refusal => exact .done trivial
  | ok user => exact .done ⟨user, rfl, .inl ⟨guard, request, isVisit, ends.2⟩⟩

theorem bootstrap_goes (username : JsString) (configuredPassword : Option JsString)
    (isBoot : operation = .bootstrap username configuredPassword) :
    Goes (AccountFollows config operation) (AccountEnds config operation) (fun _ _ => True) []
      (ensureBootstrapAdmin username configuredPassword) := by
  refine .call trivial fun answer => ?_
  cases answer with
  | error message => exact .throw trivial
  | ok there =>
    refine Goes.ite (fun _ => .done trivial) fun empty => ?_
    have first : ByBootstrap operation [⟨.anyUser, .ok there⟩] := by
      refine ⟨username, configuredPassword, isBoot, ?_⟩
      rw [Bool.not_eq_true] at empty
      simp [empty]
    have longer {heard later : AccountHeard} (more : heard <+: later) (boots : ByBootstrap operation heard) :
        ByBootstrap operation later := by
      obtain ⟨name, password, same, none⟩ := boots
      exact ⟨name, password, same, more.subset none⟩
    have creates : ∀ (heard : AccountHeard) (password : JsString), [⟨.anyUser, .ok there⟩] <+: heard →
        Goes (AccountFollows config operation) (AccountEnds config operation) (fun _ _ => True) heard
          (createLocalUser username password .admin (some (js "Bootstrap admin")) >>= fun _ => return .worked) :=
      fun heard password more => (createLocalUser_goes _ _ _ _ fun later passwordHash onward =>
        .inl ⟨longer (more.trans onward) first, rfl⟩).bind fun _ _ _ => .done trivial
    cases configuredPassword with
    | some password => exact creates _ password List.prefix_rfl
    | none => exact .call trivial fun password => creates _ password (prefix_ask List.prefix_rfl)

/-- Every operation goes by the rules. -/
theorem body_goes (config : AuthConfig) (operation : AccountOperation) :
    Goes (AccountFollows config operation) (AccountEnds config operation) (fun _ _ => True) []
      (operation.body config) := by
  cases isOperation : operation with
  | bootstrap username password => exact bootstrap_goes username password rfl
  | login request username password ip => exact login_goes request username password ip rfl
  | logout request => exact logout_goes request rfl
  | beginEntra => exact beginSignIn_goes
  | entraCallback error code state ip => exact entraCallback_goes error code state ip rfl
  | administer request act => exact administer_goes request act rfl
  | visit guard request => exact visit_goes guard request rfl
  | pruneExpiredSessions =>
    refine .call trivial fun now => .call trivial fun answer => ?_
    cases answer with
    | error message => exact .throw trivial
    | ok _ => exact .done trivial
  | elsewhere => exact .call trivial fun _ => .done trivial

end Programs

end RemoteSqlAgent
