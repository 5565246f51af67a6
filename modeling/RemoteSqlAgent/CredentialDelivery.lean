import RemoteSqlAgent.SqlCredentials
import RemoteSqlAgent.CredentialStatus
import RemoteSqlAgent.InstanceConfigRoutes
import RemoteSqlAgent.TracedRuns

/-! SQL passwords in a running system. Operators save and remove configurations while workers
connect, publish new keys and report; between any two steps of a save others can come. -/
namespace RemoteSqlAgent
open Js CallProgram
open ConfigStore (UpsertInstanceConfigInput)

/-! ## The page -/

/-- What the form of an instance holds when it is saved. -/
structure CredentialForm where
  workerId : JsString
  instanceName : JsString
  serverAddress : JsString
  authMode : SqlAuthMode
  loginName : JsString
  password : JsString
  encryptTls : Bool
  trustServerCertificate : Bool
  environmentTag : JsString

/-- A ciphertext, and the fingerprint of the key that the server said it is to. -/
structure SealedPassword where
  ciphertext : JsString
  fingerprint : JsString

/-- What the page sends. What is undefined is left out. -/
def CredentialForm.body (form : CredentialForm) (credential : Option SealedPassword) : JsonValue :=
  .object ([(js "instanceName", .string (trim form.instanceName)),
      (js "serverAddress", .string (trim form.serverAddress)),
      (js "authMode", .string form.authMode.text),
      (js "loginName", if form.authMode = .sql then .string (trim form.loginName) else .null)] ++
    (match credential with
      | some credential => [(js "credentialCiphertext", .string credential.ciphertext),
          (js "credentialKeyFingerprint", .string credential.fingerprint)]
      | none => []) ++
    [(js "encryptTls", .bool form.encryptTls),
      (js "trustServerCertificate", .bool form.trustServerCertificate),
      (js "environmentTag", if trim form.environmentTag = [] then .null else .string (trim form.environmentTag))])

/-! ## Steps -/

inductive CredentialCall where
  /-- A statement of a request to the control plane. -/
  | estate (statement : EstateCall)
  /-- The browser encrypts. -/
  | encrypt (publicKeyPem password : JsString)
  /-- The key of a hello is recorded. -/
  | recordKey (workerId publicKeyPem : JsString)
  | recordStatus (workerId : JsString) (results : List InstanceConfigResult)

abbrev CredentialAnswer : CredentialCall → Type
  | .estate statement => EstateAnswer statement
  | .encrypt _ _ => Except JsString JsString
  | .recordKey _ _ => Unit
  | .recordStatus _ _ => Unit

abbrev CredentialProgram (α : Type) := CallProgram CredentialCall CredentialAnswer Empty α

/-- A request to the control plane, which never fails without an answer. -/
def onServer {α : Type} (program : EstateProgram α) : CredentialProgram (Except RouteFault α) :=
  CallProgram.within CredentialCall.estate (fun _ answer => answer) program

section Programs
variable (isUuid : JsString → Bool)

/-- `GET /api/workers/:workerId/credential-key`. What the guard stops, and what has no key, is
answered with a status. -/
def credentialKeyRoute (guarded : Except Nat SignedInUser) (workerId : JsString) :
    EstateProgram (Option WorkerCredentialKey) :=
  match guarded with
  | .error _ => .done none
  | .ok _ =>
    if isUuid workerId then CallProgram.call (.selectCredentialKey workerId) orRefused else .throw .validation

/-- Encrypt the password to the key that the server names. Nothing is saved where that fails. -/
def sealPassword (guarded : Except Nat SignedInUser) (form : CredentialForm) :
    CredentialProgram (Option SealedPassword) := do
  match ← onServer (credentialKeyRoute isUuid guarded form.workerId) with
  | .ok (some key) =>
    CallProgram.call (.encrypt key.publicKeyPem form.password) fun answer : Except JsString JsString =>
      .done (answer.toOption.map fun ciphertext => ⟨ciphertext, key.fingerprint⟩)
  | _ => return none

/-- Send the form. -/
def sendForm (guarded : Except Nat SignedInUser) (ip : JsString) (form : CredentialForm)
    (credential : Option SealedPassword) : CredentialProgram Unit := do
  let _ ← onServer (EstateProgram.answer isUuid ⟨guarded, ip, form.workerId, .save (form.body credential)⟩)
  return ()

/-- `save`, of the page. The key is fetched for each save. -/
def saveForm (keyGuard saveGuard : Except Nat SignedInUser) (ip : JsString) (form : CredentialForm) :
    CredentialProgram Unit :=
  if form.authMode = .sql ∧ form.password ≠ [] then do
    match ← sealPassword isUuid keyGuard form with
    | some credential => sendForm isUuid saveGuard ip form (some credential)
    | none => return ()
  else sendForm isUuid saveGuard ip form none

/-- What runs: a save of the page, a removal, a hello and what is sent after it, and a report. -/
inductive CredentialOperation where
  | save (keyGuard saveGuard : Except Nat SignedInUser) (ip : JsString) (form : CredentialForm)
  | remove (guarded : Except Nat SignedInUser) (ip workerId configId : JsString)
  | hello (workerId publicKeyPem : JsString)
  | report (workerId : JsString) (results : List InstanceConfigResult)

def CredentialOperation.body : CredentialOperation → CredentialProgram Unit
  | .save keyGuard saveGuard ip form => saveForm isUuid keyGuard saveGuard ip form
  | .remove guarded ip workerId configId => do
    let _ ← onServer (EstateProgram.answer isUuid ⟨guarded, ip, workerId, .remove configId⟩)
    return ()
  | .hello workerId publicKeyPem =>
    CallProgram.call (.recordKey workerId publicKeyPem) fun _ => do
      let _ ← onServer (EstateProgram.pushInstanceConfigs workerId)
      return ()
  | .report workerId results => CallProgram.call (.recordStatus workerId results) fun _ => return ()

end Programs

/-- What a step answers and does. A statement meets the database as it is then, which may refuse
it; encryption draws its randomness. -/
def CredentialCall.Does (table : CaseTable) (crypto : Crypto) (browser : WebCrypto) (store : EstateStore) :
    (call : CredentialCall) → CredentialAnswer call → EstateStore → Prop
  | .estate statement, answer, after =>
    ∃ world : EstateWorld, world.table = table ∧ world.respond store statement = (answer, after)
  | .encrypt publicKeyPem password, answer, after =>
    (∃ seed, encryptCredential browser seed publicKeyPem password = answer) ∧ after = store
  | .recordKey workerId publicKeyPem, _, after =>
    ∃ now, after.toConfigStore = store.perform table crypto (.recordKey workerId publicKeyPem now) ∧
      after.hasInstance = store.hasInstance
  | .recordStatus workerId results, _, after =>
    ∃ now, after.toConfigStore = store.perform table crypto (.report workerId results now) ∧
      after.hasInstance = store.hasInstance

abbrev CredentialStep := Taken CredentialAnswer EstateStore CredentialOperation

/-! ## What a save asks for -/

/-- A statement that a request makes. What is written is what its body says. -/
def EstateRule (request : InstanceConfigRequest) : EstateCall → Prop
  | .upsertConfig input _ => ∃ user json body, request.action = .save json ∧ parseBody json = some body ∧
    input = body.input request.workerId user
  | _ => True

section Obeying
variable {request : InstanceConfigRequest} {said : List (Exchange EstateAnswer)} {α : Type}

theorem goes_orRefused {rule : List (Exchange EstateAnswer) → EstateCall → Prop} (answer : Option α) :
    Goes rule (fun _ _ => True) (fun _ _ => True) said (orRefused answer) := by
  cases answer with
  | none => exact .throw trivial
  | some value => exact .done trivial

/-- A program of statements that a request makes. -/
abbrev Serves (request : InstanceConfigRequest) (said : List (Exchange EstateAnswer)) (program : EstateProgram α) :
    Prop :=
  Goes (fun _ => EstateRule request) (fun _ _ => True) (fun _ _ => True) said program

theorem serves_push (workerId : JsString) : Serves request said (EstateProgram.pushInstanceConfigs workerId) := by
  refine .call trivial fun live : Bool => ?_
  cases live with
  | false => exact .done trivial
  | true =>
    refine .call trivial fun answer => (goes_orRefused answer).bind fun later configs _ => ?_
    exact .call trivial fun _ => .done trivial

theorem serves_recordAndPush (entry : AuditExport.AuditEntry) (workerId : JsString) :
    Serves request said (EstateProgram.recordAndPush entry workerId) :=
  Goes.bind (.call trivial fun answer => goes_orRefused answer) fun _ _ _ => serves_push workerId

theorem serves_writeConfig {input : UpsertInstanceConfigInput} (asked : ∀ now, EstateRule request (.upsertConfig input now)) :
    Serves request said (EstateProgram.writeConfig input) := by
  refine .call trivial fun now => .call (asked now) fun answer => (goes_orRefused answer).bind fun later id _ => ?_
  cases id with
  | none => exact .throw trivial
  | some id =>
    refine Goes.bind (.call trivial fun answer => goes_orRefused answer) fun _ _ _ =>
      Goes.bind (.call trivial fun answer => goes_orRefused answer) fun _ configs _ => ?_
    split
    · exact .throw trivial
    · exact .done trivial

theorem serves_upsertInstanceConfig {input : UpsertInstanceConfigInput}
    (asked : ∀ now, EstateRule request (.upsertConfig input now)) :
    Serves request said (EstateProgram.upsertInstanceConfig input) := by
  refine .call trivial fun answer => (goes_orRefused answer).bind fun _ key _ => ?_
  split
  · exact .throw trivial
  · exact serves_writeConfig asked

theorem serves_deleteInstanceConfig (configId : JsString) :
    Serves request said (EstateProgram.deleteInstanceConfig configId) := by
  refine .call trivial fun answer => (goes_orRefused answer).bind fun _ owner _ => ?_
  cases owner with
  | none => exact .done trivial
  | some owner =>
    exact .call trivial fun now => Goes.bind (.call trivial fun answer => goes_orRefused answer) fun _ _ _ =>
      .done trivial

theorem serves_putConfig (isUuid : JsString → Bool) {json : JsonValue} (user : SignedInUser)
    (saves : request.action = .save json) : Serves request said (EstateProgram.putConfig isUuid request user json) := by
  unfold EstateProgram.putConfig
  split
  · cases parsed : parseBody json with
    | none => exact .throw trivial
    | some body =>
      refine Goes.bind (serves_upsertInstanceConfig fun now => ⟨user, json, body, saves, parsed, rfl⟩) fun _ _ _ => ?_
      exact Goes.bind (serves_recordAndPush _ _) fun _ _ _ => .done trivial
  · exact .throw trivial

theorem serves_deleteConfig (isUuid : JsString → Bool) (user : SignedInUser) (configId : JsString) :
    Serves request said (EstateProgram.deleteConfig isUuid request user configId) := by
  unfold EstateProgram.deleteConfig
  split
  · refine Goes.bind (serves_deleteInstanceConfig configId) fun _ owner _ => ?_
    unfold EstateProgram.answerRemoval
    split
    · exact .done trivial
    · exact Goes.bind (serves_recordAndPush _ _) fun _ _ _ => .done trivial
  · exact .throw trivial

theorem serves_route (isUuid : JsString → Bool) (user : SignedInUser) :
    Serves request said (EstateProgram.route isUuid request user) := by
  unfold EstateProgram.route
  split
  next json saves => exact serves_putConfig isUuid user saves
  · exact serves_deleteConfig isUuid user _

/-- Answering a request writes nothing but what its body says. -/
theorem serves_answer (isUuid : JsString → Bool) : Serves request said (EstateProgram.answer isUuid request) := by
  unfold EstateProgram.answer
  split
  · exact .done trivial
  next user _ => exact Goes.tryCatch (serves_route isUuid user) fun _ _ _ => .done trivial

end Obeying

/-! ## What the page sends is what its form holds -/

theorem stringField_string {shortest longest : Nat} {text found : JsString}
    (read : stringField shortest longest (.string text) = some found) : found = text := by
  simp only [stringField, Option.ite_none_right_eq_some, Option.some.injEq] at read
  exact read.2.symm

theorem nullishText_string {longest : Nat} {text : JsString} {found : Option JsString}
    (read : nullishText longest (some (.string text)) = some found) : found = some text := by
  obtain ⟨value, isText, rfl⟩ := Option.map_eq_some_iff.mp read
  rw [stringField_string isText]

theorem authModeField_text (mode : SqlAuthMode) : authModeField (.string mode.text) = some mode := by
  cases mode <;> simp [authModeField, SqlAuthMode.text, js_injective.eq_iff]

/-- What the schema reads of a form that was sent. -/
theorem parseBody_body {form : CredentialForm} {credential : Option SealedPassword} {body : InstanceConfigBody}
    (parsed : parseBody (form.body credential) = some body) :
    body.instanceName = trim form.instanceName ∧ body.authMode = form.authMode ∧
      body.credentialCiphertext = credential.map (·.ciphertext) ∧
      body.credentialKeyFingerprint = credential.map (·.fingerprint) := by
  unfold parseBody CredentialForm.body at parsed
  cases credential with
  | none =>
    simp [property, js_injective.eq_iff, authModeField_text, Option.bind_eq_some_iff] at parsed
    obtain ⟨name, isName, address, -, login, -, ciphertext, isCiphertext, fingerprint, isFingerprint, -, -, -, -, -, -,
      rfl⟩ := parsed
    cases isCiphertext
    cases isFingerprint
    exact ⟨stringField_string isName, rfl, rfl, rfl⟩
  | some credential =>
    simp [property, js_injective.eq_iff, authModeField_text, Option.bind_eq_some_iff] at parsed
    obtain ⟨name, isName, address, -, login, -, ciphertext, isCiphertext, fingerprint, isFingerprint, -, -, -, -, -, -,
      rfl⟩ := parsed
    exact ⟨stringField_string isName, rfl, nullishText_string isCiphertext, nullishText_string isFingerprint⟩

/-! ## What an operation goes by -/

/-- The password of the form was encrypted to a key that the server named for its worker. -/
structure SealedBy (said : List (Exchange CredentialAnswer)) (form : CredentialForm) (credential : SealedPassword) :
    Prop where
  typed : form.password ≠ []
  byKey : ∃ key : WorkerCredentialKey, credential.fingerprint = key.fingerprint ∧
    (⟨.estate (.selectCredentialKey form.workerId), some (some key)⟩ : Exchange CredentialAnswer) ∈ said ∧
    (⟨.encrypt key.publicKeyPem form.password, .ok credential.ciphertext⟩ : Exchange CredentialAnswer) ∈ said

theorem SealedBy.later {said later : List (Exchange CredentialAnswer)} {form : CredentialForm}
    {credential : SealedPassword} (sealed_ : SealedBy said form credential) (longer : said <+: later) :
    SealedBy later form credential := by
  obtain ⟨key, same, named, encrypted⟩ := sealed_.byKey
  exact ⟨sealed_.typed, key, same, longer.subset named, longer.subset encrypted⟩

/-- Only a save of the page writes a configuration. A credential it brings is its password, sealed. -/
def SaveRule (operation : CredentialOperation) (said : List (Exchange CredentialAnswer)) : CredentialCall → Prop
  | .estate (.upsertConfig input _) => ∃ keyGuard saveGuard ip form, operation = .save keyGuard saveGuard ip form ∧
    input.workerId = form.workerId ∧ input.instanceName = trim form.instanceName ∧
    ∀ ciphertext, truthyText input.credentialCiphertext = some ciphertext →
      ∃ fingerprint, input.credentialKeyFingerprint = some fingerprint ∧ SealedBy said form ⟨ciphertext, fingerprint⟩
  | _ => True

/-- A program that goes by the rule of saves. -/
abbrev Saving {α : Type} (operation : CredentialOperation) (ends : List (Exchange CredentialAnswer) → α → Prop)
    (said : List (Exchange CredentialAnswer)) (program : CredentialProgram α) : Prop :=
  Goes (SaveRule operation) ends (fun _ _ => True) said program

section Rules
variable {operation : CredentialOperation} {said : List (Exchange CredentialAnswer)} {form : CredentialForm}

/-- The exchange with the database, if it is one. -/
def estateExchange : Exchange CredentialAnswer → Option (Exchange EstateAnswer)
  | ⟨.estate statement, answer⟩ => some ⟨statement, answer⟩
  | _ => none

theorem estateExchange_eq_some {exchange : Exchange CredentialAnswer} {statement : EstateCall}
    {answer : EstateAnswer statement} (isStatement : estateExchange exchange = some ⟨statement, answer⟩) :
    exchange = ⟨.estate statement, answer⟩ := by
  obtain ⟨call, heard⟩ := exchange
  cases call with
  | estate other =>
    cases isStatement
    rfl
  | encrypt | recordKey | recordStatus => cases isStatement

/-- A request of the server, whatever it makes of it, in a program whose rule allows what it writes. -/
theorem saving_onServer {α : Type} {request : InstanceConfigRequest} {program : EstateProgram α}
    (serves : Serves request [] program)
    (allowed : ∀ later, said <+: later → ∀ input now, EstateRule request (.upsertConfig input now) →
      SaveRule operation later (.estate (.upsertConfig input now))) :
    Saving operation (fun later _ => said <+: later) said (onServer program) := by
  refine Goes.within serves.obeys List.prefix_rfl (fun later statement makes longer => ?_) fun later _ _ longer =>
    longer.trans (List.prefix_append _ _)
  cases statement with
  | upsertConfig input now => exact allowed later longer input now makes
  | readClock | selectCredentialKey | attachInstance | selectConfigs | deleteConfig | detachInstance | writeAudit
  | findSession | selectConfigSet | send => trivial

theorem saving_credentialKey (isUuid : JsString → Bool) (guarded : Except Nat SignedInUser) (workerId : JsString) :
    Saving operation (fun later answer => ∀ key, answer = .ok (some key) →
        (⟨.estate (.selectCredentialKey workerId), some (some key)⟩ : Exchange CredentialAnswer) ∈ later)
      said (onServer (credentialKeyRoute isUuid guarded workerId)) := by
  have goes : Goes (fun _ statement => ∀ input now, statement ≠ .upsertConfig input now)
      (fun later answer => ∀ key, answer = some key →
        (⟨.selectCredentialKey workerId, some (some key)⟩ : Exchange EstateAnswer) ∈ later)
      (fun _ _ => True) (said.filterMap estateExchange) (credentialKeyRoute isUuid guarded workerId) := by
    unfold credentialKeyRoute
    split
    · exact .done fun key same => (by cases same)
    · split
      · refine .call (fun input now same => (by cases same)) fun answer => ?_
        cases answer with
        | none => exact .throw trivial
        | some found =>
          refine .done fun key same => ?_
          subst same
          exact List.mem_append_right _ (List.mem_singleton_self _)
      · exact .throw trivial
  refine (Goes.inside estateExchange (fun _ _ => rfl) (fun later statement other => ?_) goes).imp
    (fun later answer ends key same => ?_) fun _ _ (_ : True) => trivial
  · cases statement with
    | upsertConfig input now => exact absurd rfl (other input now)
    | readClock | selectCredentialKey | attachInstance | selectConfigs | deleteConfig | detachInstance | writeAudit
    | findSession | selectConfigSet | send => trivial
  · obtain ⟨exchange, heard, isStatement⟩ := List.mem_filterMap.mp (ends.1 _ same key rfl)
    rw [← estateExchange_eq_some isStatement]
    exact heard

theorem saving_sealPassword (isUuid : JsString → Bool) (guarded : Except Nat SignedInUser)
    (typed : form.password ≠ []) :
    Saving operation (fun later result => ∀ credential, result = some credential → SealedBy later form credential)
      said (sealPassword isUuid guarded form) := by
  refine Goes.bind (saving_credentialKey isUuid guarded form.workerId) fun later answer named => ?_
  split
  next key =>
    refine .call trivial fun answer => .done fun credential same => ?_
    obtain ⟨ciphertext, isCiphertext, rfl⟩ := Option.map_eq_some_iff.mp same
    cases answer with
    | error message => cases isCiphertext
    | ok text =>
      cases isCiphertext
      exact ⟨typed, key, rfl, List.mem_append_left _ (named key rfl), List.mem_append_right _ (List.mem_singleton_self _)⟩
  · exact .done fun credential same => (by cases same)

theorem saving_sendForm (isUuid : JsString → Bool) {keyGuard saveGuard guarded : Except Nat SignedInUser}
    {ip address : JsString} (saves : operation = .save keyGuard saveGuard ip form) {credential : Option SealedPassword}
    (sealed_ : ∀ held, credential = some held → SealedBy said form held) :
    Saving operation (fun _ _ => True) said (sendForm isUuid guarded address form credential) := by
  refine Goes.bind (saving_onServer (serves_answer isUuid) fun later longer input now asked => ?_) fun _ _ _ =>
    .done trivial
  obtain ⟨user, json, body, isSave, parsed, rfl⟩ := asked
  cases isSave
  obtain ⟨name, -, isCiphertext, isFingerprint⟩ := parseBody_body parsed
  refine ⟨keyGuard, saveGuard, ip, form, saves, rfl, name, fun ciphertext brought => ?_⟩
  have held : body.credentialCiphertext = some ciphertext := (Option.filter_eq_some_iff.mp brought).1
  rw [isCiphertext] at held
  obtain ⟨sealed', isSealed, rfl⟩ := Option.map_eq_some_iff.mp held
  refine ⟨sealed'.fingerprint, ?_, (sealed_ sealed' isSealed).later longer⟩
  change body.credentialKeyFingerprint = _
  rw [isFingerprint, isSealed]
  rfl

/-- Every operation goes by the rule. -/
theorem saving_body (isUuid : JsString → Bool) (operation : CredentialOperation) :
    Saving operation (fun _ _ => True) [] (operation.body isUuid) := by
  cases operation with
  | save keyGuard saveGuard ip form =>
    change Saving _ _ [] (saveForm isUuid keyGuard saveGuard ip form)
    unfold saveForm
    split
    next entered =>
      refine Goes.bind (saving_sealPassword isUuid keyGuard entered.2) fun later result sealed_ => ?_
      cases result with
      | none => exact .done trivial
      | some credential =>
        exact saving_sendForm isUuid rfl fun held same => sealed_ held same
    · exact saving_sendForm isUuid rfl fun held same => (by cases same)
  | remove guarded ip workerId configId =>
    refine Goes.bind (saving_onServer (serves_answer isUuid) fun later _ input now asked => ?_) fun _ _ _ =>
      .done trivial
    obtain ⟨user, json, body, isSave, -, -⟩ := asked
    cases isSave
  | hello workerId publicKeyPem =>
    -- What is pushed is no save: it writes as little as a request that removes.
    have serves : Serves ⟨.error 0, [], workerId, .remove []⟩ [] (EstateProgram.pushInstanceConfigs workerId) :=
      serves_push workerId
    refine .call trivial fun _ => Goes.bind (saving_onServer serves fun later _ input now asked => ?_) fun _ _ _ =>
      .done trivial
    obtain ⟨user, json, body, isSave, -, -⟩ := asked
    cases isSave
  | report workerId results => exact .call trivial fun _ => .done trivial

end Rules

end RemoteSqlAgent
