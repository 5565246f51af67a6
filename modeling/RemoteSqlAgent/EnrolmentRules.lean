import RemoteSqlAgent.Enrolment
import RemoteSqlAgent.TracedRuns

/-! What a redemption comes to. Up to its commit it has changed nothing, and can fail; after
it, whatever the credential of the mode still wants can fail too. -/
namespace RemoteSqlAgent
open Js CallProgram

/-! ## What was said -/

/-- A transaction was committed. -/
def isCommit : Exchange EnrolmentAnswer → Bool
  | ⟨.commit _, .ok _⟩ => true
  | _ => false

/-- A credential was stored. -/
def isInsert : Exchange EnrolmentAnswer → Bool
  | ⟨.insertCredential _, .ok _⟩ => true
  | _ => false

/-- The certificate of a worker was noted. -/
def isNote : Exchange EnrolmentAnswer → Bool
  | ⟨.updateCertificate _ _ _, .ok _⟩ => true
  | _ => false

/-- Neither a token, a worker nor a credential was changed. -/
def changesNothing (exchange : Exchange EnrolmentAnswer) : Bool :=
  !isCommit exchange && !isInsert exchange && !isNote exchange

/-- The token that is redeemed. -/
def tokenOf : Exchange EnrolmentAnswer → Option EnrolmentToken
  | ⟨.selectToken _ _, .ok found⟩ => found
  | _ => none

/-- The mode of the credential that was asked for. -/
def grantedMode (said : List (Exchange EnrolmentAnswer)) : Option WorkerAuthMode :=
  (said.findSome? tokenOf).map EnrolmentToken.credentialMode

/-- What was said after the commit. -/
def afterCommit (said : List (Exchange EnrolmentAnswer)) : List (Exchange EnrolmentAnswer) :=
  (said.dropWhile fun exchange => !isCommit exchange).tail

/-- Something that the credential wants failed: hashing the key, reading or storing the
authority, issuing the certificate, or a statement. -/
def isRefusal : Exchange EnrolmentAnswer → Bool
  | ⟨.hashWorkerKey _, .error _⟩ => true
  | ⟨.selectServerKey, .error _⟩ => true
  | ⟨.insertServerKey _, .error _⟩ => true
  | ⟨.selectWorker _, .error _⟩ => true
  | ⟨.issueClientCertificate _ _ _ _ _, .error _⟩ => true
  | ⟨.insertCredential _, .error _⟩ => true
  | ⟨.updateCertificate _ _ _, .error _⟩ => true
  | _ => false

/-- The authority was read, and was not there. -/
def isKeyless : Exchange EnrolmentAnswer → Bool
  | ⟨.selectServerKey, .ok row⟩ => (row.bind ServerKey.material).isNone
  | _ => false

/-- The request does not have what a credential of the mode wants. -/
def EnrolRequestParams.Lacks (params : EnrolRequestParams) : WorkerAuthMode → Prop
  | .token => False
  | .mtls => params.csrPem = none ∨ params.csrPem = some []
  | .entra => params.entraObjectId = none ∨ params.entraObjectId = some []

instance (params : EnrolRequestParams) : (mode : WorkerAuthMode) → Decidable (params.Lacks mode)
  | .token => inferInstanceAs (Decidable False)
  | .mtls => inferInstanceAs (Decidable (_ ∨ _))
  | .entra => inferInstanceAs (Decidable (_ ∨ _))

/-- Something that the credential of the mode wants is missing, or failed. An authority that
is not there at first is stored, and then read again. -/
def Unmet (params : EnrolRequestParams) (mode : Option WorkerAuthMode)
    (said : List (Exchange EnrolmentAnswer)) : Prop :=
  (∃ granted ∈ mode, params.Lacks granted) ∨ said.any isRefusal = true ∨ 2 ≤ said.countP isKeyless

instance (params : EnrolRequestParams) (mode : Option WorkerAuthMode) (said : List (Exchange EnrolmentAnswer)) :
    Decidable (Unmet params mode said) :=
  inferInstanceAs (Decidable ((∃ granted ∈ mode, _) ∨ _ ∨ _))

/-- The transaction was committed, and what the credential wants is missing, or failed. -/
def Stranded (params : EnrolRequestParams) (said : List (Exchange EnrolmentAnswer)) : Prop :=
  said.any isCommit = true ∧ Unmet params (grantedMode said) (afterCommit said)

instance (params : EnrolRequestParams) (said : List (Exchange EnrolmentAnswer)) : Decidable (Stranded params said) :=
  inferInstanceAs (Decidable (_ ∧ _))

/-! ## Up to the commit -/

/-- Nothing was changed, and no token was found. -/
def Untold (said : List (Exchange EnrolmentAnswer)) : Prop :=
  said.all changesNothing = true ∧ said.findSome? tokenOf = none

/-- Nothing was changed, and the token that was found is going to be spent. -/
structure Spent (tokenHash : JsString) (tx : Nat) (said : List (Exchange EnrolmentAnswer))
    (redeemed : Redeemed) : Prop where
  quiet : said.all changesNothing = true
  found : ∃ token usedAt, said.findSome? tokenOf = some token ∧ token.credentialMode = redeemed.mode ∧
    ⟨.selectToken tx tokenHash, .ok (some token)⟩ ∈ said ∧
    ⟨.useToken tx token.id usedAt redeemed.workerId, .ok ()⟩ ∈ said

theorem not_stranded_of_quiet {params : EnrolRequestParams} {said : List (Exchange EnrolmentAnswer)}
    (quiet : said.all changesNothing = true) : ¬ Stranded params said := by
  rintro ⟨committed, -⟩
  obtain ⟨exchange, member, commit⟩ := List.any_eq_true.mp committed
  have silent := List.all_eq_true.mp quiet exchange member
  rw [changesNothing, commit] at silent
  cases silent

theorem all_concat {Step : Type} {test : Step → Bool} {steps : List Step} {step : Step} (before : steps.all test = true)
    (last : test step = true) : (steps ++ [step]).all test = true := by
  rw [List.all_append, before, List.all_cons, last]
  rfl

section Rules
variable {config : EnrolmentConfig} {params : EnrolRequestParams} {said : List (Exchange EnrolmentAnswer)} {tx : Nat}

/-- What is said while nothing is changed. -/
abbrev QuietRule (said : List (Exchange EnrolmentAnswer)) (_ : EnrolmentCall) : Prop := said.all changesNothing = true

theorem goes_registerWorker {token : EnrolmentToken} {tokenHash : JsString} (quiet : said.all changesNothing = true)
    (found : said.findSome? tokenOf = some token) (told : ⟨.selectToken tx tokenHash, .ok (some token)⟩ ∈ said) :
    Goes QuietRule (Spent tokenHash tx) (fun said _ =>
      said.all changesNothing = true) said (registerWorker params tx token) := by
  refine .call quiet fun answer => ?_
  have quiet := all_concat quiet (rfl : changesNothing ⟨.upsertWorker tx params.hostName params.workerVersion
    token.intendedCapabilities, answer⟩ = true)
  cases answer with
  | error message => exact .throw quiet
  | ok registered =>
    cases registered with
    | none => exact .throw quiet
    | some workerId =>
      refine .call quiet fun usedAt => ?_
      have quiet := all_concat quiet (rfl : changesNothing ⟨.readClock, usedAt⟩ = true)
      refine .call quiet fun answer => ?_
      have quiet := all_concat quiet (rfl : changesNothing ⟨.useToken tx token.id usedAt workerId, answer⟩ = true)
      cases answer with
      | error message => exact .throw quiet
      | ok _ =>
        refine .done ⟨quiet, token, usedAt, ?_, rfl, ?_, ?_⟩
        · simp only [List.append_assoc, List.findSome?_append, found, Option.some_or]
        · simp only [List.append_assoc]
          exact List.mem_append_left _ told
        · exact List.mem_append_right _ List.mem_cons_self

theorem goes_spendToken (untold : Untold said) :
    Goes QuietRule (Spent (config.hashToken params.token) tx) (fun said _ => said.all changesNothing = true) said
      (spendToken config params tx) := by
  obtain ⟨quiet, none⟩ := untold
  refine .call quiet fun answer => ?_
  have quiet := all_concat quiet (rfl : changesNothing ⟨.selectToken tx (config.hashToken params.token), answer⟩ = true)
  cases answer with
  | error message => exact .throw quiet
  | ok found =>
    cases found with
    | none => exact .throw quiet
    | some token =>
      refine .call quiet fun now : Int => ?_
      have quiet := all_concat quiet (rfl : changesNothing ⟨.readClock, now⟩ = true)
      refine .ite (fun _ => .throw quiet) fun _ => .ite (fun _ => .throw quiet) fun _ => .ite (fun _ => .throw quiet)
        fun _ => goes_registerWorker quiet ?_ ?_
      · rw [List.append_assoc, List.findSome?_append, none]
        rfl
      · simp

/-- What was said up to the commit. -/
structure Granted (tokenHash : JsString) (said : List (Exchange EnrolmentAnswer)) (redeemed : Redeemed) : Prop where
  spent : ∃ tx before, Spent tokenHash tx before redeemed ∧ said = before ++ [⟨.commit tx, .ok ()⟩]

theorem goes_transaction :
    Goes QuietRule (Granted (config.hashToken params.token)) (fun said _ => said.all changesNothing = true) []
      (transaction (spendToken config params)) := by
  refine .call rfl fun answer => ?_
  cases answer with
  | error message => exact .throw rfl
  | ok tx =>
    change Goes _ _ _ _ ((spendToken config params tx).tryCatch _ >>= _)
    refine Goes.bind (Goes.tryCatch (goes_spendToken ⟨rfl, rfl⟩) fun said err quiet => ?_) fun said redeemed spent => ?_
    · refine .call quiet fun answer => ?_
      have quiet := all_concat quiet (rfl : changesNothing ⟨.rollback tx, answer⟩ = true)
      cases answer with
      | error message => exact .throw quiet
      | ok _ => exact .throw quiet
    · refine .call spent.quiet fun answer => ?_
      cases answer with
      | error message => exact .throw (all_concat spent.quiet rfl)
      | ok _ => exact .done ⟨tx, said, spent, rfl⟩

/-! ## After the commit -/

theorem Granted.stranded_iff {tokenHash : JsString} {redeemed : Redeemed} (granted : Granted tokenHash said redeemed)
    (later : List (Exchange EnrolmentAnswer)) :
    Stranded params (said ++ later) ↔ Unmet params (some redeemed.mode) later := by
  obtain ⟨tx, before, ⟨quiet, token, usedAt, found, mode, -, -⟩, rfl⟩ := granted.spent
  have silent : ∀ exchange ∈ before, (!isCommit exchange) = true := fun exchange member => by
    have holds := List.all_eq_true.mp quiet exchange member
    rw [changesNothing, Bool.and_eq_true, Bool.and_eq_true] at holds
    exact holds.1.1
  rw [List.append_assoc, List.singleton_append, Stranded, afterCommit, List.dropWhile_append_of_pos silent, grantedMode,
    List.findSome?_append, found, Option.some_or, Option.map_some, mode]
  exact ⟨fun stranded => stranded.2, fun unmet =>
    ⟨List.any_eq_true.mpr ⟨_, List.mem_append_right _ List.mem_cons_self, rfl⟩, unmet⟩⟩

/-- While nothing that the credential wants fails. -/
abbrev MetRule (params : EnrolRequestParams) (mode : WorkerAuthMode) (said : List (Exchange EnrolmentAnswer))
    (_ : EnrolmentCall) : Prop := ¬ Unmet params (some mode) said

/-- All that was wanted was there, and one credential was stored. -/
def Issued (params : EnrolRequestParams) (mode : WorkerAuthMode) (said : List (Exchange EnrolmentAnswer))
    (_ : EnrolResult) : Prop := ¬ Unmet params (some mode) said ∧ said.countP isInsert = 1

/-- Something was wanted in vain. -/
abbrev UnmetFails (params : EnrolRequestParams) (mode : WorkerAuthMode) (said : List (Exchange EnrolmentAnswer))
    (_ : EnrolmentFailure) : Prop := Unmet params (some mode) said

/-- All that the mode wants is there so far, and so many credentials were stored. -/
structure Going (params : EnrolRequestParams) (mode : WorkerAuthMode) (stored : Nat)
    (said : List (Exchange EnrolmentAnswer)) :
    Prop where
  has : ¬ params.Lacks mode
  accepted : said.any isRefusal = false
  keyless : said.countP isKeyless ≤ 1
  inserts : said.countP isInsert = stored

section Going
variable {mode : WorkerAuthMode} {stored : Nat} {exchange : Exchange EnrolmentAnswer}

theorem Going.start (has : ¬ params.Lacks mode) : Going params mode 0 [] := ⟨has, rfl, Nat.zero_le _, rfl⟩

theorem unmet_some : Unmet params (some mode) said ↔
    params.Lacks mode ∨ said.any isRefusal = true ∨ 2 ≤ said.countP isKeyless := by
  simp [Unmet]

theorem Going.met (going : Going params mode stored said) : ¬ Unmet params (some mode) said := by
  rw [unmet_some, going.accepted]
  have few := going.keyless
  rintro (lacks | refused | missing)
  · exact going.has lacks
  · cases refused
  · omega

theorem Going.issued {result : EnrolResult} (going : Going params mode 1 said) : Issued params mode said result :=
  ⟨going.met, going.inserts⟩

/-- A call that is answered with what was wanted. -/
theorem Going.concat (going : Going params mode stored said) (accepted : isRefusal exchange = false)
    (keyed : isKeyless exchange = false) (other : isInsert exchange = false) :
    Going params mode stored (said ++ [exchange]) where
  has := going.has
  accepted := by simp [List.any_append, going.accepted, accepted]
  keyless := by simpa [List.countP_append, keyed] using going.keyless
  inserts := by simp [List.countP_append, going.inserts, other]

theorem Going.insert (going : Going params mode stored said) (accepted : isRefusal exchange = false)
    (keyed : isKeyless exchange = false) (inserted : isInsert exchange = true) :
    Going params mode (stored + 1) (said ++ [exchange]) where
  has := going.has
  accepted := by simp [List.any_append, going.accepted, accepted]
  keyless := by simpa [List.countP_append, keyed] using going.keyless
  inserts := by simp [List.countP_append, going.inserts, inserted]

theorem unmet_of_refusal (refused : isRefusal exchange = true) : Unmet params (some mode) (said ++ [exchange]) :=
  unmet_some.mpr (.inr (.inl (by simp [List.any_append, refused])))

end Going

theorem goes_issueWorkerKey (workerId : JsString) :
    Goes (MetRule params .token) (Issued params .token) (UnmetFails params .token) []
      (issueWorkerKey config workerId) := by
  have store : ∀ {said : List (Exchange EnrolmentAnswer)} (generated : WorkerKey) (expiresAt : Option Int),
      Going params .token 0 said → Goes (MetRule params .token) (Issued params .token) (UnmetFails params .token) said
        (do
          let secretHash ← CallProgram.call (.hashWorkerKey generated.key) orReject
          CallProgram.call (.insertCredential {
            workerId := workerId
            mode := .token
            secretHash := some secretHash
            secretPrefix := some generated.keyPrefix
            label := js "Issued at enrolment"
            expiresAt := expiresAt }) orReject
          return { workerId := workerId, mode := .token, workerKey := some generated.key, notAfter := expiresAt }) := by
    intro said generated expiresAt going
    refine .call going.met fun answer => ?_
    cases answer with
    | error message => exact .throw (unmet_of_refusal rfl)
    | ok secretHash =>
      have hashed : Going params .token 0 (said ++ [⟨.hashWorkerKey generated.key, .ok secretHash⟩]) :=
        going.concat rfl rfl rfl
      refine .call hashed.met fun answer => ?_
      cases answer with
      | error message => exact .throw (unmet_of_refusal rfl)
      | ok _ => exact .done (Going.issued (hashed.insert rfl rfl rfl))
  have start : Going params .token 0 [] := .start id
  refine .call start.met fun generated => ?_
  have made : Going params .token 0 ([] ++ [⟨.generateWorkerKey, generated⟩]) := start.concat rfl rfl rfl
  unfold tokenExpiry
  cases config.tokenTtlDays with
  | none => exact store generated none made
  | some days =>
    refine .call made.met fun now => ?_
    exact store generated _ (made.concat rfl rfl rfl)

theorem goes_pinIdentity {entraObjectId : JsString} (has : ¬ params.Lacks .entra) (workerId : JsString) :
    Goes (MetRule params .entra) (Issued params .entra) (UnmetFails params .entra) []
      (pinIdentity params workerId entraObjectId) := by
  have start : Going params .entra 0 [] := .start has
  refine .call start.met fun answer => ?_
  cases answer with
  | error message => exact .throw (unmet_of_refusal rfl)
  | ok _ => exact .done (Going.issued (start.insert rfl rfl rfl))

theorem goes_loadOrCreateCa (has : ¬ params.Lacks .mtls) :
    Goes (MetRule params .mtls) (fun said _ =>
      Going params .mtls 0 said) (UnmetFails params .mtls) [] loadOrCreateCa := by
  have start : Going params .mtls 0 [] := .start has
  refine .call start.met fun answer => ?_
  cases answer with
  | error message => exact .throw (unmet_of_refusal rfl)
  | ok row =>
    dsimp only [orReject, done_bind]
    have read : Going params .mtls 0 ([] ++ [⟨.selectServerKey, .ok row⟩]) := by
      refine ⟨has, rfl, ?_, rfl⟩
      exact List.countP_le_length
    cases there : row.bind ServerKey.material with
    | some ca => exact .done read
    | none =>
      refine .call read.met fun generated => ?_
      have made : Going params .mtls 0 ([] ++ [⟨.selectServerKey, .ok row⟩] ++ [⟨.generateCa, generated⟩]) :=
        read.concat rfl rfl rfl
      refine .call made.met fun answer => ?_
      cases answer with
      | error message => exact .throw (unmet_of_refusal rfl)
      | ok _ =>
        have stored : Going params .mtls 0 ([] ++ [⟨.selectServerKey, .ok row⟩] ++ [⟨.generateCa, generated⟩] ++
            [⟨.insertServerKey generated, .ok ()⟩]) := made.concat rfl rfl rfl
        refine .call stored.met fun answer => ?_
        cases answer with
        | error message => exact .throw (unmet_of_refusal rfl)
        | ok again =>
          dsimp only [orReject, done_bind]
          cases now : again.bind ServerKey.material with
          | some ca => exact .done (stored.concat rfl (by rw [isKeyless, now]; rfl) rfl)
          | none =>
            refine .throw (unmet_some.mpr (.inr (.inr ?_)))
            simp [isKeyless, there, now]

theorem goes_issueCertificate {csrPem : JsString} (has : ¬ params.Lacks .mtls) (workerId : JsString) :
    Goes (MetRule params .mtls) (Issued params .mtls) (UnmetFails params .mtls) []
      (issueCertificate config params workerId csrPem) := by
  refine (goes_loadOrCreateCa has).bind fun said ca going => ?_
  refine .call going.met fun answer => ?_
  cases answer with
  | error message => exact .throw (unmet_of_refusal rfl)
  | ok worker =>
    have selected : Going params .mtls 0 (said ++ [⟨.selectWorker workerId, .ok worker⟩]) := going.concat rfl rfl rfl
    refine .call selected.met fun answer => ?_
    cases answer with
    | error message => exact .throw (unmet_of_refusal rfl)
    | ok issued =>
      have signed : Going params .mtls 0 (said ++ [⟨.selectWorker workerId, .ok worker⟩] ++
          [⟨.issueClientCertificate ca csrPem workerId
            (worker.elim params.hostName fun row : RegisteredWorker => row.hostName)
            config.certValidityDays, .ok issued⟩]) :=
        selected.concat rfl rfl rfl
      refine .call signed.met fun answer => ?_
      cases answer with
      | error message => exact .throw (unmet_of_refusal rfl)
      | ok _ =>
        refine .call (Going.met (signed.insert rfl rfl rfl)) fun answer => ?_
        cases answer with
        | error message => exact .throw (unmet_of_refusal rfl)
        | ok _ => exact .done (Going.issued ((signed.insert rfl rfl rfl).concat rfl rfl rfl))

theorem goes_issueCredential (redeemed : Redeemed) :
    Goes (MetRule params redeemed.mode) (Issued params redeemed.mode) (UnmetFails params redeemed.mode) []
      (issueCredential config params redeemed) := by
  obtain ⟨workerId, mode⟩ := redeemed
  cases mode with
  | token => exact goes_issueWorkerKey workerId
  | mtls =>
    simp only [issueCredential]
    split
    · rename_i none
      exact .throw (unmet_some.mpr (.inl (Or.inl none)))
    · rename_i empty
      exact .throw (unmet_some.mpr (.inl (Or.inr empty)))
    · rename_i csrPem filled held
      refine goes_issueCertificate (fun lacks => ?_) workerId
      rcases lacks with none | empty
      · cases held.symm.trans none
      · cases held.symm.trans empty
        exact filled rfl
  | entra =>
    simp only [issueCredential]
    split
    · rename_i none
      exact .throw (unmet_some.mpr (.inl (Or.inl none)))
    · rename_i empty
      exact .throw (unmet_some.mpr (.inl (Or.inr empty)))
    · rename_i entraObjectId filled held
      refine goes_pinIdentity (fun lacks => ?_) workerId
      rcases lacks with none | empty
      · cases held.symm.trans none
      · cases held.symm.trans empty
        exact filled rfl

/-! ## The whole redemption -/

/-- The token was spent, and after that something held of what was said. -/
def Spends (tokenHash : JsString) (holds : List (Exchange EnrolmentAnswer) → Prop)
    (said : List (Exchange EnrolmentAnswer)) :
    Prop :=
  ∃ before later redeemed, said = before ++ later ∧ Granted tokenHash before redeemed ∧ holds later

variable (config params) in
/-- **A redemption** is not stranded while it goes on, nor when it succeeds; when it fails
it has changed nothing or is stranded. -/
theorem goes_redeemEnrolmentToken :
    Goes (fun said _ => ¬ Stranded params said)
      (fun said _ => ¬ Stranded params said ∧ Spends (config.hashToken params.token) (·.countP isInsert = 1) said)
      (fun said _ => said.all changesNothing = true ∨
        Stranded params said ∧ Spends (config.hashToken params.token) (fun _ => True) said) []
      (redeemEnrolmentToken config params) := by
  refine Goes.bind (goes_transaction.mono (fun _ _ quiet => not_stranded_of_quiet quiet) (fun _ _ granted => granted)
    fun _ _ quiet => .inl quiet) fun said redeemed granted => ?_
  rw [← List.append_nil said]
  refine ((goes_issueCredential redeemed).mono (fun later _ met => ?_) (fun later _ issued => ?_)
    fun later _ unmet => ?_).after
  · exact fun stranded => met ((granted.stranded_iff later).mp stranded)
  · exact ⟨fun stranded => issued.1 ((granted.stranded_iff later).mp stranded), said, later, redeemed, rfl, granted,
      issued.2⟩
  · exact .inr ⟨(granted.stranded_iff later).mpr unmet, said, later, redeemed, rfl, granted, trivial⟩

/-- A request to the service has no identity, so a token for one is spent in vain. -/
theorem EnrolRequest.stranded_of_entra (request : EnrolRequest) (committed : said.any isCommit = true)
    (entra : grantedMode said = some .entra) : Stranded request.params said :=
  ⟨committed, .inl ⟨.entra, entra, .inl rfl⟩⟩

/-- The service never throws, and answers with a credential only if the token is spent and
one credential was stored. -/
theorem goes_enrol (peer : JsString) (request : EnrolRequest) :
    Goes (fun _ _ => True)
      (fun said served => ∀ response, served = .ok response →
        Spends (config.hashToken request.enrolmentToken) (·.countP isInsert = 1) said)
      (fun _ _ => False) [] (enrol config peer request) := by
  have redeeming := (goes_redeemEnrolmentToken config request.params).mono (fun _ _ _ => trivial)
    (fun _ _ holds => holds.2) fun _ _ _ => trivial
  have audited :
      Goes (fun _ _ => True) (fun said _ =>
        Spends (config.hashToken request.enrolmentToken) (·.countP isInsert = 1) said)
      (fun _ _ => True) [] (do
        let result ← redeemEnrolmentToken config request.params
        CallProgram.call (.writeAudit request.hostName (js "worker.enrolled") (some result.workerId) (some peer))
          orReject
        return result) := by
    refine Goes.bind redeeming fun said result spends => .call trivial fun answer => ?_
    cases answer with
    | error message => exact .throw trivial
    | ok _ =>
      obtain ⟨before, later, redeemed, rfl, granted, stored⟩ := spends
      refine .done ⟨before, later ++ [_], redeemed, List.append_assoc .., granted, ?_⟩
      exact List.countP_append.trans (congrArg (· + 0) stored)
  have attempted : Goes (fun _ _ => True) (fun said served => ∀ result, served = .ok result →
      Spends (config.hashToken request.enrolmentToken) (·.countP isInsert = 1) said) (fun _ _ => False) []
      (CallProgram.attempt _) :=
    audited.attempt (fun _ _ spends _ _ => spends) fun _ _ _ _ same => by cases same
  refine attempted.bind fun said served spends => ?_
  cases served with
  | ok result => exact .done fun _ _ => spends result rfl
  | error err => exact .call trivial fun _ => .done fun _ same => by cases same

end Rules

end RemoteSqlAgent
