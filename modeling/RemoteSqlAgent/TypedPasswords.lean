import RemoteSqlAgent.CredentialDelivery

/-! The password that a worker logs in with is the one that was last typed for the instance, in
any interleaving of saves, removals, new keys and reports, or the worker says that it was typed for
another key. -/
namespace RemoteSqlAgent
open Js CallProgram
open ConfigStore (UpsertInstanceConfigInput)

/-! ## What a step does to credentials -/

/-- The exchange replaces what is stored of the credential for a configuration, or removes it. -/
def Resets (key : JsString × JsString) (exchange : Exchange CredentialAnswer) : Prop :=
  (∃ input now id, exchange = ⟨.estate (.upsertConfig input now), some (some id)⟩ ∧ input.key = key ∧
    (input.authMode = .integrated ∨ truthyText input.credentialCiphertext ≠ none)) ∨
  ∃ configId, exchange = ⟨.estate (.deleteConfig configId), some (some key)⟩

/-- The exchange stored a ciphertext for a configuration. -/
def Deposits (key : JsString × JsString) (ciphertext : JsString) (fingerprint : Option JsString)
    (exchange : Exchange CredentialAnswer) : Prop :=
  ∃ input now id, exchange = ⟨.estate (.upsertConfig input now), some (some id)⟩ ∧ input.key = key ∧
    truthyText input.credentialCiphertext = some ciphertext ∧ input.credentialKeyFingerprint = fingerprint

/-- One row has the credential of another. -/
structure SameCredential (held row : InstanceConfigRow) : Prop where
  key : held.key = row.key
  ciphertext : held.credentialCiphertext = row.credentialCiphertext
  fingerprint : held.credentialKeyFingerprint = row.credentialKeyFingerprint

theorem sameCredential_withStatus {row : InstanceConfigRow} {status : ConfigStatus} {detail : Option JsString}
    {now : Int} : SameCredential row (ConfigStore.withStatus status detail now row) := ⟨rfl, rfl, rfl⟩

section Steps
variable {table : CaseTable} {crypto : Crypto} {browser : WebCrypto} {store after : EstateStore}
  {row : InstanceConfigRow}

theorem recordStatus_credentials {store : ConfigStore} {workerId : JsString} {results : List InstanceConfigResult}
    {now : Int} (member : row ∈ (store.recordInstanceConfigStatus workerId results now).configs) :
    ∃ held ∈ store.configs, SameCredential held row := by
  induction results generalizing store with
  | nil => exact ⟨row, member, rfl, rfl, rfl⟩
  | cons result rest ih =>
    have later : row ∈ ((store.recordResult workerId now result).recordInstanceConfigStatus workerId rest now).configs :=
      member
    obtain ⟨middle, there, same⟩ := ih later
    obtain ⟨held, before, rfl | ⟨-, detail, rfl⟩⟩ := row_recordResult there
    · exact ⟨_, before, same⟩
    · exact ⟨held, before, same.key, same.ciphertext, same.fingerprint⟩

theorem recordKey_credentials {store : ConfigStore} {workerId publicKeyPem : JsString} {now : Int}
    (member : row ∈ (store.perform table crypto (.recordKey workerId publicKeyPem now)).configs) :
    ∃ held ∈ store.configs, SameCredential held row := by
  cases recorded : store.recordCredentialKey crypto workerId publicKeyPem now with
  | error fault =>
    rw [ConfigStore.perform, recorded] at member
    exact ⟨row, member, rfl, rfl, rfl⟩
  | ok result =>
    rw [ConfigStore.perform, recorded] at member
    obtain ⟨-, -, unchanged, replaced⟩ := ConfigStore.recordCredentialKey_ok recorded
    cases changed : result.1.changed with
    | false =>
      rw [unchanged changed] at member
      exact ⟨row, member, rfl, rfl, rfl⟩
    | true =>
      obtain ⟨detail, rows⟩ := replaced changed
      obtain ⟨held, there, same⟩ := (rows row).mp member
      refine ⟨held, there, ?_⟩
      split at same
      · subst same
        exact sameCredential_withStatus
      · subst same
        exact ⟨rfl, rfl, rfl⟩

/-- After an upsert a row has the credential it had, or the one that was brought. -/
theorem upsert_credentials {input : UpsertInstanceConfigInput} {now : Int} {id : JsString}
    (member : row ∈ (store.upsertRow table input.cast now id).configs) {ciphertext : JsString}
    (stored : row.credentialCiphertext = some ciphertext) :
    (∃ held ∈ store.configs, SameCredential held row ∧
      (input.key = row.key → input.authMode = .sql ∧ truthyText input.credentialCiphertext = none)) ∨
    (input.key = row.key ∧ truthyText input.credentialCiphertext = some ciphertext ∧
      input.credentialKeyFingerprint = row.credentialKeyFingerprint) := by
  obtain ⟨saved, rows, savedAs⟩ := ConfigStore.mem_upsertRow table store.toConfigStore input.cast now id
  rcases (rows row).mp member with ⟨there, other⟩ | rfl
  · exact .inl ⟨row, there, ⟨rfl, rfl, rfl⟩, fun same => absurd same.symm other⟩
  · obtain ⟨old, from_, isOld⟩ : ∃ old, SavedFrom input.cast now old row ∧
        (old.credentialCiphertext = none ∨ old ∈ store.configs) ∧ old.key = input.key := by
      rcases savedAs with ⟨rfl, -⟩ | ⟨old, held, isKey, rfl⟩
      · exact ⟨_, savedFrom_new id, .inl rfl, rfl⟩
      · exact ⟨old, savedFrom_updated old, .inr held, isKey⟩
    have isKey : old.key = row.key := Prod.ext from_.workerId.symm from_.instanceName.symm
    have ciphertexts := from_.ciphertext
    have fingerprints := from_.fingerprint
    have sameText : truthyText input.cast.credentialCiphertext = truthyText input.credentialCiphertext := rfl
    rw [stored] at ciphertexts
    unfold ConfigStore.credential at ciphertexts fingerprints
    split at ciphertexts
    · cases ciphertexts
    next sql brought =>
      rw [sql, brought] at fingerprints
      cases ciphertexts
      exact .inr ⟨isOld.2.symm.trans isKey, brought, fingerprints.symm⟩
    next sql brought =>
      rw [sql, brought] at fingerprints
      have held := isOld.1.resolve_left (by rw [← ciphertexts]; simp)
      exact .inl ⟨old, held, ⟨isKey, ciphertexts.symm.trans stored.symm, fingerprints.symm⟩, fun _ => ⟨sql, brought⟩⟩

theorem respond_upsert (world : EstateWorld) (store : EstateStore) (input : UpsertInstanceConfigInput) (now : Int) :
    (world.respond store (.upsertConfig input now) = (none, store)) ∨
    ∃ id, ∃ fits : store.Fits input world.newId, world.respond store (.upsertConfig input now) =
      (some (some id), store.upsert world.table input now world.newId fits) := by
  change (world.statement store _ (world.upserted store input now) = _) ∨ ∃ id, ∃ fits : store.Fits input world.newId,
    world.statement store _ (world.upserted store input now) = _
  unfold EstateWorld.statement
  split
  · exact .inl rfl
  · unfold EstateWorld.upserted
    split
    · exact .inl rfl
    · split
      next fits =>
        obtain ⟨saved, isKey, rows⟩ := ConfigStore.upsertRow_saves world.table store.toConfigStore input.cast now world.newId
        have there : saved ∈ (store.upsert world.table input now world.newId fits).configs := (rows saved).mpr (.inr rfl)
        cases found : (store.upsert world.table input now world.newId fits).configs.rows.find? fun row => row.key = input.key with
        | none => exact absurd (show saved.key = input.key from isKey) (by simpa using List.find?_eq_none.mp found saved there)
        | some row =>
          refine .inr ⟨row.id, fits, ?_⟩
          dsimp only
          rw [found, Option.map_some]
      · exact .inl rfl

theorem respond_delete (world : EstateWorld) (store : EstateStore) (configId : JsString) :
    (world.respond store (.deleteConfig configId) = (none, store)) ∨
    world.respond store (.deleteConfig configId) =
      (some ((store.configs.rows.find? fun row => row.id = storedUuid configId).map (·.key)),
        store.remove (storedUuid configId)) := by
  change (world.statement store _ _ = _) ∨ world.statement store _ _ = _
  unfold EstateWorld.statement
  split
  · exact .inl rfl
  · exact .inr rfl

/-- Statements that write no configuration leave them all, and the workers. -/
theorem respond_other (world : EstateWorld) (store : EstateStore) {statement : EstateCall} (writes : ∀ input now, statement ≠ .upsertConfig input now)
    (deletes : ∀ configId, statement ≠ .deleteConfig configId) :
    (world.respond store statement).2.configs = store.configs := by
  cases statement with
  | upsertConfig input now => exact absurd rfl (writes input now)
  | deleteConfig configId => exact absurd rfl (deletes configId)
  | readClock | findSession | send => rfl
  | selectCredentialKey | attachInstance | selectConfigs | detachInstance | writeAudit | selectConfigSet =>
    change (world.statement store _ _).2.configs = _
    unfold EstateWorld.statement
    split <;> rfl

theorem respond_workers (world : EstateWorld) (store : EstateStore) (statement : EstateCall) :
    (world.respond store statement).2.workers = store.workers := by
  cases statement with
  | upsertConfig input now =>
    rcases respond_upsert world store input now with same | ⟨id, fits, same⟩
    · rw [same]
    · rw [same]
      exact ConfigStore.workers_upsertRow ..
  | readClock | findSession | send => rfl
  | selectCredentialKey | attachInstance | selectConfigs | detachInstance | writeAudit | selectConfigSet | deleteConfig =>
    change (world.statement store _ _).2.workers = _
    unfold EstateWorld.statement
    split <;> rfl

/-- A ciphertext that is stored after a step was brought by the step, or was stored before and not
reset by it. -/
theorem does_credentials {call : CredentialCall} {answer : CredentialAnswer call}
    (does : call.Does table crypto browser store answer after) (member : row ∈ after.configs) {ciphertext : JsString}
    (stored : row.credentialCiphertext = some ciphertext) :
    (∃ held ∈ store.configs, SameCredential held row ∧ ¬ Resets row.key ⟨call, answer⟩) ∨
      Deposits row.key ciphertext row.credentialKeyFingerprint ⟨call, answer⟩ := by
  have unchanged {held : InstanceConfigRow} (there : held ∈ store.configs) (same : SameCredential held row)
      (writes : ∀ input now, call ≠ .estate (.upsertConfig input now))
      (deletes : ∀ configId, call ≠ .estate (.deleteConfig configId)) :
      ∃ held ∈ store.configs, SameCredential held row ∧ ¬ Resets row.key ⟨call, answer⟩ := by
    refine ⟨held, there, same, ?_⟩
    rintro (⟨input, now, id, isUpsert, -⟩ | ⟨configId, isDelete⟩)
    · cases isUpsert
      exact writes input now rfl
    · cases isDelete
      exact deletes configId rfl
  cases call with
  | encrypt publicKeyPem password =>
    obtain ⟨-, rfl⟩ := does
    exact .inl (unchanged member ⟨rfl, rfl, rfl⟩ (by simp) (by simp))
  | recordKey workerId publicKeyPem =>
    obtain ⟨now, same, -⟩ := does
    rw [same] at member
    obtain ⟨held, there, same⟩ := recordKey_credentials member
    exact .inl (unchanged there same (by simp) (by simp))
  | recordStatus workerId results =>
    obtain ⟨now, same, -⟩ := does
    rw [same] at member
    obtain ⟨held, there, same⟩ := recordStatus_credentials member
    exact .inl (unchanged there same (by simp) (by simp))
  | estate statement =>
    obtain ⟨world, rfl, responds⟩ := does
    have other (writes : ∀ input now, statement ≠ .upsertConfig input now)
        (deletes : ∀ configId, statement ≠ .deleteConfig configId) :
        ∃ held ∈ store.configs, SameCredential held row ∧ ¬ Resets row.key ⟨.estate statement, answer⟩ := by
      have same := respond_other world store writes deletes
      rw [responds] at same
      rw [same] at member
      exact unchanged member ⟨rfl, rfl, rfl⟩ (by simpa using writes) (by simpa using deletes)
    cases statement with
    | upsertConfig input now =>
      rcases respond_upsert world store input now with refused | ⟨id, fits, written⟩
      · cases refused.symm.trans responds
        refine .inl ⟨row, member, ⟨rfl, rfl, rfl⟩, ?_⟩
        rintro (⟨_, _, _, isUpsert, -⟩ | ⟨_, isDelete⟩)
        · cases isUpsert
        · cases isDelete
      · cases written.symm.trans responds
        rcases upsert_credentials member stored with ⟨held, there, same, keeps⟩ | ⟨isKey, brought, isPrint⟩
        · refine .inl ⟨held, there, same, ?_⟩
          rintro (⟨_, _, _, isUpsert, isKey, resets⟩ | ⟨_, isDelete⟩)
          · cases isUpsert
            obtain ⟨sql, nothing⟩ := keeps isKey
            rcases resets with integrated | brings
            · cases sql.symm.trans integrated
            · exact brings nothing
          · cases isDelete
        · exact .inr ⟨input, now, id, rfl, isKey, brought, isPrint⟩
    | deleteConfig configId =>
      rcases respond_delete world store configId with refused | removed
      · cases refused.symm.trans responds
        refine .inl ⟨row, member, ⟨rfl, rfl, rfl⟩, ?_⟩
        rintro (⟨_, _, _, isUpsert, -⟩ | ⟨_, isDelete⟩)
        · cases isUpsert
        · cases isDelete
      · cases removed.symm.trans responds
        obtain ⟨there, other⟩ := KeyedTable.mem_remove.mp member
        refine .inl ⟨row, there, ⟨rfl, rfl, rfl⟩, ?_⟩
        rintro (⟨_, _, _, isUpsert, -⟩ | ⟨_, isDelete⟩)
        · cases isUpsert
        · -- What was removed had the key, and a key is that of one row.
          have found := Option.some.inj (eq_of_heq (Sigma.mk.inj isDelete).2)
          obtain ⟨gone, isGone, sameKey⟩ := Option.map_eq_some_iff.mp found
          obtain rfl := KeyedTable.eq_of_key (List.mem_of_find?_eq_some isGone) there sameKey
          exact absurd (List.find?_some isGone) (by simpa using other)
    | readClock | selectCredentialKey | attachInstance | selectConfigs | detachInstance | writeAudit | findSession
    | selectConfigSet | send =>
      exact .inl (other (by simp) (by simp))

end Steps

/-! ## Published keys -/

/-- A key that the server names is one of a host, with the fingerprint of that key. -/
def Published (crypto : Crypto) (store : EstateStore) : Prop :=
  ∀ workerId row pem fingerprint, store.workers workerId = some row → row.credentialPublicKeyPem = some pem →
    row.credentialKeyFingerprint = some fingerprint →
      ∃ der, Exported crypto der pem ∧ fingerprint = js (crypto.sha256 der)

section Keys
variable {table : CaseTable} {crypto : Crypto} {browser : WebCrypto} {store after : EstateStore}

theorem workers_recordStatus (store : ConfigStore) (workerId : JsString) (results : List InstanceConfigResult) (now : Int) :
    (store.recordInstanceConfigStatus workerId results now).workers = store.workers := by
  induction results generalizing store with
  | nil => rfl
  | cons result rest ih => exact ih (store.recordResult workerId now result)

/-- A host publishes its key with the fingerprint that the server computes of it. -/
theorem recordKey_workers {store : ConfigStore} {workerId publicKeyPem : JsString} {der : List UInt8}
    (exported : Exported crypto der publicKeyPem) (now : Int) :
    (store.perform table crypto (.recordKey workerId publicKeyPem now)).workers =
      Function.update store.workers workerId ((store.workers workerId).map fun row => { row with
        credentialPublicKeyPem := some publicKeyPem
        credentialKeyFingerprint := some (js (crypto.sha256 der)) }) := by
  cases recorded : store.recordCredentialKey crypto workerId publicKeyPem now with
  | error fault =>
    unfold ConfigStore.recordCredentialKey at recorded
    rw [exported.reads] at recorded
    cases recorded
  | ok result =>
    rw [ConfigStore.perform, recorded]
    have print : result.1.fingerprint = js (crypto.sha256 der) := by
      unfold ConfigStore.recordCredentialKey at recorded
      rw [exported.reads] at recorded
      cases recorded
      rfl
    rw [← print]
    exact (ConfigStore.recordCredentialKey_ok recorded).1

theorem Published.step {call : CredentialCall} {answer : CredentialAnswer call} (published : Published crypto store)
    (does : call.Does table crypto browser store answer after)
    (exported : ∀ workerId pem, call = .recordKey workerId pem → ∃ der, Exported crypto der pem) :
    Published crypto after := by
  have unchanged (same : after.workers = store.workers) : Published crypto after := fun workerId row pem fingerprint held =>
    published workerId row pem fingerprint (same ▸ held)
  cases call with
  | encrypt publicKeyPem password =>
    obtain ⟨-, rfl⟩ := does
    exact published
  | estate statement =>
    obtain ⟨world, -, responds⟩ := does
    have same := respond_workers world store statement
    rw [responds] at same
    exact unchanged same
  | recordStatus workerId results =>
    obtain ⟨now, same, -⟩ := does
    exact unchanged ((congrArg ConfigStore.workers same).trans (workers_recordStatus ..))
  | recordKey workerId publicKeyPem =>
    obtain ⟨der, isKey⟩ := exported workerId publicKeyPem rfl
    obtain ⟨now, same, -⟩ := does
    intro other row pem fingerprint held isPem isPrint
    rw [same, recordKey_workers isKey] at held
    by_cases mine : other = workerId
    · subst mine
      rw [Function.update_self] at held
      obtain ⟨old, -, rfl⟩ := Option.map_eq_some_iff.mp held
      cases isPem
      cases isPrint
      exact ⟨der, isKey, rfl⟩
    · rw [Function.update_of_ne mine] at held
      exact published other row pem fingerprint held isPem isPrint

theorem Published.named {workerId : JsString} {key : WorkerCredentialKey} (published : Published crypto store)
    (named : store.getCredentialKey workerId = some key) :
    ∃ der, Exported crypto der key.publicKeyPem ∧ key.fingerprint = js (crypto.sha256 der) ∧ key.fingerprint ≠ [] := by
  simp only [ConfigStore.getCredentialKey, truthyText, Option.bind_eq_bind, Option.bind_eq_some_iff,
    Option.filter_eq_some_iff, decide_eq_true_eq] at named
  obtain ⟨row, held, pem, ⟨isPem, -⟩, fingerprint, ⟨isPrint, some⟩, same⟩ := named
  cases same
  obtain ⟨der, exported, print⟩ := published workerId row pem fingerprint held isPem isPrint
  exact ⟨der, exported, print, some⟩

end Keys

/-! ## Runs -/

section Runs
variable {table : CaseTable} {crypto : Crypto} {browser : WebCrypto} {isUuid : JsString → Bool} {initial : EstateStore}
  {pool : Pool CredentialAnswer Empty Unit EstateStore CredentialOperation} {run : List CredentialStep}

/-- The step was the last to store a ciphertext for a configuration. -/
def LastBrought (run : List CredentialStep) (key : JsString × JsString) (ciphertext : JsString)
    (fingerprint : Option JsString) (step : CredentialStep) : Prop :=
  ∃ earlier later, run = earlier ++ step :: later ∧ Deposits key ciphertext fingerprint step.exchange ∧
    ∀ other ∈ later, ¬ Resets key other.exchange

/-- Each ciphertext that is stored was the last to be brought for its configuration. -/
theorem last_brought (reaches : Reaches (CredentialCall.Does table crypto browser) (CredentialOperation.body isUuid)
      initial pool run) (nothing : initial.configs.rows = []) :
    ∀ row ∈ pool.state.configs, ∀ ciphertext, row.credentialCiphertext = some ciphertext →
      ∃ step, LastBrought run row.key ciphertext row.credentialKeyFingerprint step := by
  induction reaches with
  | start =>
    intro row member
    rw [KeyedTable.mem_iff, nothing] at member
    cases member
  | begin _ _ ih => exact ih
  | @call state after earlier later operation said request next run reaches answer does ih =>
    intro row member ciphertext stored
    rcases does_credentials does member stored with ⟨held, there, same, keeps⟩ | brings
    · obtain ⟨step, front, back, split, brought, kept⟩ := ih held there ciphertext (same.ciphertext.trans stored)
      rw [same.key, same.fingerprint] at brought
      rw [same.key] at kept
      refine ⟨step, front, back ++ [⟨operation, said, request, answer, state, after⟩], ?_, brought, fun other member => ?_⟩
      · rw [split, List.append_assoc, List.cons_append]
      · rcases List.mem_append.mp member with before | last
        · exact kept other before
        · cases List.mem_singleton.mp last
          exact keeps
    · exact ⟨_, run, [], rfl, brings, fun other member => absurd member List.not_mem_nil⟩

/-- The password of a form was encrypted, to a key of a host. -/
structure EncryptedTo (crypto : Crypto) (browser : WebCrypto) (form : CredentialForm) (ciphertext fingerprint : JsString)
    (der : List UInt8) : Prop where
  typed : form.password ≠ []
  print : fingerprint = js (crypto.sha256 der) ∧ fingerprint ≠ []
  encrypted : ∃ seed pem, Exported crypto der pem ∧ encryptCredential browser seed pem form.password = .ok ciphertext

theorem does_exchange {step : CredentialStep} {call : CredentialCall} {answer : CredentialAnswer call}
    (does : step.request.Does table crypto browser step.before step.answer step.after)
    (isCall : step.exchange = ⟨call, answer⟩) : call.Does table crypto browser step.before answer step.after := by
  obtain ⟨operation, said, request, heard, before, after⟩ := step
  cases isCall
  exact does

/-- What the database answered for the key of a worker. -/
theorem named_of_does {store after : EstateStore} {workerId : JsString} {key : WorkerCredentialKey}
    (does : (CredentialCall.estate (.selectCredentialKey workerId)).Does table crypto browser store (some (some key))
      after) : store.getCredentialKey (storedUuid workerId) = some key := by
  obtain ⟨world, -, responds⟩ := does
  change world.statement store _ _ = _ at responds
  unfold EstateWorld.statement at responds
  split at responds
  · cases responds
  · exact Option.some.inj (congrArg Prod.fst responds)

/-- A step that brought a ciphertext was one of a save of the page, and the ciphertext is the
password of its form. -/
theorem brought_by_save (reaches : Reaches (CredentialCall.Does table crypto browser) (CredentialOperation.body isUuid)
      initial pool run)
    (unpublished : ∀ workerId row, initial.workers workerId = some row → row.credentialPublicKeyPem = none)
    (exported : ∀ step ∈ run, ∀ workerId pem, step.request = .recordKey workerId pem → ∃ der, Exported crypto der pem)
    {step : CredentialStep} (member : step ∈ run) {key : JsString × JsString} {ciphertext : JsString}
    {fingerprint : Option JsString} (brings : Deposits key ciphertext fingerprint step.exchange) :
    ∃ keyGuard saveGuard ip form print der, step.operation = .save keyGuard saveGuard ip form ∧
      key = (storedUuid form.workerId, trim form.instanceName) ∧ fingerprint = some print ∧
      EncryptedTo crypto browser form ciphertext print der := by
  have published : ∀ taken ∈ run, Published crypto taken.before := by
    refine (reaches.invariant (Published crypto) ?_ fun taken member published =>
      published.step (reaches.does taken member) (exported taken member)).2
    intro workerId row pem fingerprint held isPem
    rw [unpublished workerId row held] at isPem
    cases isPem
  have follows := (reaches.allowed SaveRule fun operation => (saving_body isUuid operation).obeys).2 step member
  obtain ⟨input, now, id, isUpsert, rfl, brought, isPrint⟩ := brings
  obtain ⟨earlier, later, split⟩ := List.append_of_mem member
  have told {exchange : Exchange CredentialAnswer} (heard : exchange ∈ step.said) :
      ∃ other ∈ run, other.exchange = exchange := by
    obtain ⟨other, there, same, -⟩ := reaches.heard_before split heard
    exact ⟨other, by rw [split]; exact List.mem_append_left _ there, same⟩
  rw [show step.request = .estate (.upsertConfig input now) from congrArg Sigma.fst isUpsert] at follows
  obtain ⟨keyGuard, saveGuard, ip, form, saves, isWorker, isName, sealed_⟩ := follows
  obtain ⟨print, same, typed, key, isKeyPrint, named, encrypted⟩ := sealed_ ciphertext brought
  obtain ⟨naming, there, isNamed⟩ := told named
  obtain ⟨der, isKey, isDigest, some⟩ :=
    (published naming there).named (named_of_does (does_exchange (reaches.does naming there) isNamed))
  obtain ⟨sealing, there, isSealed⟩ := told encrypted
  obtain ⟨⟨seed, gives⟩, -⟩ := does_exchange (reaches.does sealing there) isSealed
  rw [← isKeyPrint] at isDigest some
  refine ⟨keyGuard, saveGuard, ip, form, print, der, saves, ?_, isPrint.symm.trans same, typed, ⟨isDigest, some⟩, seed,
    key.publicKeyPem, isKey, gives⟩
  rw [UpsertInstanceConfigInput.key, isWorker, isName]

end Runs

/-! ## Opening -/

/-- `buildInstanceConfigSet`, of one row. -/
def WorkerInstanceConfig.wire (config : WorkerInstanceConfig) : WireInstanceConfig where
  instanceName := config.instanceName
  serverAddress := config.serverAddress
  authMode := config.authMode.text
  loginName := config.loginName.getD []
  credentialCiphertext := config.credentialCiphertext.getD []
  credentialKeyFingerprint := config.credentialKeyFingerprint.getD []
  encryptTls := config.encryptTls
  trustServerCertificate := config.trustServerCertificate

/-- How a host logs in to an instance with a password. -/
def sqlLogin (host : KeyHost) (config : WorkerInstanceConfig) (password : JsString) : InstanceConfig where
  name := config.instanceName
  server := (splitServerAddress host.deps config.serverAddress).1
  port := (splitServerAddress host.deps config.serverAddress).2
  database := js "msdb"
  user := some (config.loginName.getD [])
  password := some password
  domain := none
  encrypt := config.encryptTls
  trustServerCertificate := config.trustServerCertificate
  connectionTimeoutMs := 15000
  requestTimeoutMs := 30000

/-- The host logs in with the password, unless its login does not go through the schema. -/
def LogsInWith (host : KeyHost) (config : WorkerInstanceConfig) (password : JsString) : Prop :=
  toInstanceConfig host.deps config.wire = (parseInstanceConfig host.deps (sqlLogin host config password)).mapError .failed

/-- The host says that the credential is for another key. -/
def ReportsOtherKey (host : KeyHost) (config : WorkerInstanceConfig) : Prop :=
  toInstanceConfig host.deps config.wire = .error (.failed (js
    "The stored credential was encrypted to a different key than this worker now holds. Enter it again in the dashboard."))

section Opening
variable {crypto : Crypto} {browser : WebCrypto} {host : KeyHost} {config : WorkerInstanceConfig} {own : List UInt8}

theorem text_sql_iff (mode : SqlAuthMode) : mode.text = js "sql" ↔ mode = .sql := by
  cases mode <;> simp [SqlAuthMode.text, js_injective.eq_iff]

theorem opens_nothing (sql : config.authMode = .sql) (nothing : config.credentialCiphertext = none) :
    toInstanceConfig host.deps config.wire =
      .error (.awaitingCredential (js "No SQL credential has been supplied for this instance yet.")) := by
  have isSql : ¬ config.wire.authMode ≠ js "sql" := not_not.mpr ((text_sql_iff _).mpr sql)
  have empty : config.wire.credentialCiphertext = [] := by
    change config.credentialCiphertext.getD [] = []
    rw [nothing, Option.getD_none]
  unfold toInstanceConfig
  dsimp only
  rw [if_neg isSql, if_pos empty]

theorem toInstanceConfig_of_decrypt (sql : config.authMode = .sql) {ciphertext : JsString}
    (stored : config.credentialCiphertext = some ciphertext) (some : ciphertext ≠ []) :
    (∀ message, decryptCredential host.deps ciphertext (config.credentialKeyFingerprint.getD []) = .error message →
      toInstanceConfig host.deps config.wire = .error (.failed message)) ∧
    ∀ password, decryptCredential host.deps ciphertext (config.credentialKeyFingerprint.getD []) = .ok password →
      LogsInWith host config password := by
  have isSql : ¬ config.wire.authMode ≠ js "sql" := not_not.mpr ((text_sql_iff _).mpr sql)
  have text : config.wire.credentialCiphertext = ciphertext := by
    change config.credentialCiphertext.getD [] = ciphertext
    rw [stored, Option.getD_some]
  have print : config.wire.credentialKeyFingerprint = config.credentialKeyFingerprint.getD [] := rfl
  constructor
  · intro message fails
    unfold toInstanceConfig
    dsimp only
    rw [if_neg isSql, if_neg (text ▸ some), text, print, fails]
  · intro password opens
    unfold LogsInWith toInstanceConfig
    dsimp only
    rw [if_neg isSql, if_neg (text ▸ some), text, print, opens]
    rfl

/-- What was encrypted to the key of the host opens as it was typed, and what was encrypted to
another is told apart. -/
theorem opens_encrypted (paired : host.Paired crypto browser own) (injective : Function.Injective crypto.sha256)
    (sql : config.authMode = .sql) {ciphertext print : JsString} (stored : config.credentialCiphertext = some ciphertext)
    (some : ciphertext ≠ []) (isPrint : config.credentialKeyFingerprint = .some print) {form : CredentialForm}
    {der : List UInt8} (encrypted : EncryptedTo crypto browser form ciphertext print der) :
    (print = host.key.fingerprint ∧ LogsInWith host config form.password) ∨
      (print ≠ host.key.fingerprint ∧ ReportsOtherKey host config) := by
  obtain ⟨fails, opens⟩ := toInstanceConfig_of_decrypt sql stored some
  rw [isPrint, Option.getD_some] at fails opens
  by_cases same : print = host.key.fingerprint
  · refine .inl ⟨same, opens _ ?_⟩
    obtain ⟨seed, pem, exported, gives⟩ := encrypted.encrypted
    have digests : js (crypto.sha256 der) = js (crypto.sha256 own) := by
      rw [← encrypted.print.1, same, paired.fingerprint]
    obtain rfl := injective (js_injective digests)
    exact decryptCredential_encryptCredential paired exported.armoured gives encrypted.typed (.inr same)
  · exact .inr ⟨same, fails _ (if_pos ⟨encrypted.print.2, same⟩)⟩

end Opening

section Delivery
variable {table : CaseTable} {crypto : Crypto} {browser : WebCrypto} {isUuid : JsString → Bool} {initial : EstateStore}
  {pool : Pool CredentialAnswer Empty Unit EstateStore CredentialOperation} {run : List CredentialStep}

/-- The form is that of the last save which brought a password for the configuration, and the
configuration was not removed since, nor given integrated authentication. -/
def LastTyped (run : List CredentialStep) (config : WorkerInstanceConfig) (form : CredentialForm) : Prop :=
  ∃ step keyGuard saveGuard ip ciphertext, step.operation = .save keyGuard saveGuard ip form ∧
    config.credentialCiphertext = some ciphertext ∧
    LastBrought run (config.workerId, config.instanceName) ciphertext config.credentialKeyFingerprint step

theorem sent_of_does {store after : EstateStore} {workerId : JsString} {configs : List WorkerInstanceConfig}
    (does : (CredentialCall.estate (.selectConfigSet workerId)).Does table crypto browser store (some configs) after)
    {config : WorkerInstanceConfig} (member : config ∈ configs) :
    ∃ row ∈ store.configs, row.toWorkerInstanceConfig = config := by
  obtain ⟨world, -, responds⟩ := does
  change world.statement store _ _ = _ at responds
  unfold EstateWorld.statement at responds
  split at responds
  · cases responds
  · cases responds
    obtain ⟨row, held, same⟩ := List.mem_map.mp member
    exact ⟨row, (List.mem_filter.mp held).1, same⟩

end Delivery

/-! ## A sample

A worker publishes its key, and an operator types a password for one of its instances. The sample
browser puts its randomness before what it encrypts, and the sample host takes it off again. -/

def sampleSpki : List UInt8 := [0x30, 0x82, 0x02]

def samplePem : JsString := js "-----BEGIN PUBLIC KEY-----\nMIIC\n-----END PUBLIC KEY-----\n"

def keyCrypto : Crypto :=
  { sampleCrypto with spkiDer := fun pem => if pem = samplePem then some sampleSpki else none }

def sampleBrowser : WebCrypto where
  canEncryptCredentials := true
  notBase64 := js "The string to be decoded is not correctly encoded."
  importKey _ := .ok 4096
  encrypt _ seed plaintext := .ok (.ofNat seed :: plaintext)

def sampleHost : KeyHost where
  key := ⟨samplePem, js "private", js (keyCrypto.sha256 sampleSpki)⟩
  privateDecrypt _ bytes := .ok bytes.tail
  number _ := none
  configSchemaMessage _ := js "invalid"

theorem exported_samplePem : Exported keyCrypto sampleSpki samplePem where
  armoured := ⟨js "PUBLIC KEY", js "\nMIIC\n", js "\n", by decide⟩
  reads := by simp [keyCrypto]

theorem sampleHost_paired : sampleHost.Paired keyCrypto sampleBrowser sampleSpki where
  exported := exported_samplePem
  fingerprint := rfl
  opens seed plaintext ciphertext encrypted := by
    cases encrypted
    rfl

theorem sampleConfigs_stored (row : InstanceConfigRow) (held : row ∈ sampleConfigs.configs) :
    storedUuid row.workerId = row.workerId := absurd held KeyedTable.not_mem_empty

theorem sampleConfigs_unmarked (key : JsString × JsString) (_ : false = false) : sampleConfigs.detachedAt key = none := rfl

def loginEstate : EstateStore where
  toConfigStore := sampleConfigs
  hasInstance _ := false
  unmarked := sampleConfigs_unmarked
  primary := List.nodup_nil
  stored := sampleConfigs_stored

def sampleForm : CredentialForm where
  workerId := js "w1"
  instanceName := js "SQL01"
  serverAddress := js "localhost"
  authMode := .sql
  loginName := js "rsagent"
  password := js "hunter2"
  encryptTls := true
  trustServerCertificate := false
  environmentTag := []

section Empty
variable {store : EstateStore}

theorem recordKey_nothing (nothing : store.configs.rows = []) (workerId publicKeyPem : JsString) :
    (store.perform basicTable keyCrypto (.recordKey workerId publicKeyPem 0)).configs.rows = [] := by
  refine List.eq_nil_iff_forall_not_mem.mpr fun row member => ?_
  obtain ⟨held, there, -⟩ := recordKey_credentials member
  rw [KeyedTable.mem_iff, nothing] at there
  cases there

theorem recordKey_detachedAt (store : EstateStore) (workerId publicKeyPem : JsString) :
    (store.perform basicTable keyCrypto (.recordKey workerId publicKeyPem 0)).detachedAt = store.detachedAt := by
  cases recorded : store.recordCredentialKey keyCrypto workerId publicKeyPem 0 with
  | error fault => rw [ConfigStore.perform, recorded]
  | ok result =>
    rw [ConfigStore.perform, recorded]
    unfold ConfigStore.recordCredentialKey at recorded
    split at recorded
    · cases recorded
    · cases recorded
      dsimp only
      split <;> rfl

theorem recordKey_unmarked (workerId publicKeyPem : JsString) (key : JsString × JsString) (missing : store.hasInstance key = false) :
    (store.perform basicTable keyCrypto (.recordKey workerId publicKeyPem 0)).detachedAt key = none := by
  rw [recordKey_detachedAt]
  exact store.unmarked key missing

theorem recordKey_primary (nothing : store.configs.rows = []) (workerId publicKeyPem : JsString) :
    ((store.perform basicTable keyCrypto (.recordKey workerId publicKeyPem 0)).configs.rows.map (·.id)).Nodup := by
  rw [recordKey_nothing nothing]
  exact List.nodup_nil

theorem recordKey_stored (nothing : store.configs.rows = []) (workerId publicKeyPem : JsString) (row : InstanceConfigRow)
    (held : row ∈ (store.perform basicTable keyCrypto (.recordKey workerId publicKeyPem 0)).configs) :
    storedUuid row.workerId = row.workerId := by
  rw [KeyedTable.mem_iff, recordKey_nothing nothing] at held
  cases held

/-- A key that is recorded while there is no configuration. -/
def firstKey (nothing : store.configs.rows = []) (workerId publicKeyPem : JsString) : EstateStore where
  toConfigStore := store.perform basicTable keyCrypto (.recordKey workerId publicKeyPem 0)
  hasInstance := store.hasInstance
  unmarked := recordKey_unmarked workerId publicKeyPem
  primary := recordKey_primary nothing workerId publicKeyPem
  stored := recordKey_stored nothing workerId publicKeyPem

end Empty

def loginWorld : EstateWorld where
  table := basicTable
  clock := 0
  newId := js "c1"
  live _ := true
  refuses _ := false

/-- The world of the sample. -/
def credentialWorld (store : EstateStore) : (call : CredentialCall) → Option (CredentialAnswer call × EstateStore)
  | .estate statement => some (loginWorld.respond store statement)
  | .encrypt publicKeyPem password => some (encryptCredential sampleBrowser 7 publicKeyPem password, store)
  | .recordKey workerId publicKeyPem =>
    if nothing : store.configs.rows = [] then some ((), firstKey nothing workerId publicKeyPem) else none
  | .recordStatus _ _ => none

theorem credentialWorld_does {store after : EstateStore} {call : CredentialCall} {answer : CredentialAnswer call}
    (answers : credentialWorld store call = some (answer, after)) :
    call.Does basicTable keyCrypto sampleBrowser store answer after := by
  cases call with
  | estate statement => exact ⟨loginWorld, rfl, Option.some.inj answers⟩
  | encrypt publicKeyPem password =>
    cases answers
    exact ⟨⟨7, rfl⟩, rfl⟩
  | recordKey workerId publicKeyPem =>
    by_cases nothing : store.configs.rows = []
    · rw [credentialWorld, dif_pos nothing] at answers
      cases answers
      exact ⟨0, rfl, rfl⟩
    · rw [credentialWorld, dif_neg nothing] at answers
      cases answers
  | recordStatus workerId results => cases answers

def typedMoves : List (Move CredentialAnswer EstateStore CredentialOperation) :=
  [.begin (.hello (js "w1") samplePem), .begin (.save (.ok ⟨js "u1", js "root"⟩) (.ok ⟨js "u1", js "root"⟩) [] sampleForm)] ++
    List.replicate 1 (.step 0 fun store call => credentialWorld store call) ++
    List.replicate 10 (.step 1 fun store call => credentialWorld store call)

def afterTyped : Pool CredentialAnswer Empty Unit EstateStore CredentialOperation × List CredentialStep :=
  typedMoves.foldl (Pool.play (CredentialOperation.body fun _ => true)) (⟨loginEstate, []⟩, [])

theorem reaches_afterTyped : Reaches (CredentialCall.Does basicTable keyCrypto sampleBrowser)
    (CredentialOperation.body fun _ => true) loginEstate afterTyped.1 afterTyped.2 := by
  refine reaches_play typedMoves fun index world member store call answer after answered => ?_
  have same : world = fun store call => credentialWorld store call := by
    simp [typedMoves] at member
    rcases member with ⟨-, rfl⟩ | ⟨-, rfl⟩
    · rfl
    · rfl
  subst same
  exact credentialWorld_does answered

/-- A key that the step records is the one of the sample. -/
def recordsSample (step : CredentialStep) : Bool :=
  match step.request with
  | .recordKey _ publicKeyPem => publicKeyPem = samplePem
  | _ => true

theorem exported_of_records {step : CredentialStep} (records : recordsSample step = true) {workerId pem : JsString}
    (isRecord : step.request = .recordKey workerId pem) : ∃ der, Exported keyCrypto der pem := by
  rw [recordsSample, isRecord] at records
  exact ⟨sampleSpki, of_decide_eq_true records ▸ exported_samplePem⟩

/-- The one configuration that a step sends. -/
def sentAlone (exchange : Exchange CredentialAnswer) : Option WorkerInstanceConfig :=
  match exchange with
  | ⟨.estate (.selectConfigSet _), some [config]⟩ => some config
  | _ => none

theorem sentAlone_eq_some {exchange : Exchange CredentialAnswer} {config : WorkerInstanceConfig}
    (isSent : sentAlone exchange = some config) :
    ∃ workerId, exchange = ⟨.estate (.selectConfigSet workerId), some [config]⟩ := by
  unfold sentAlone at isSent
  split at isSent
  next workerId sent =>
    cases isSent
    exact ⟨workerId, rfl⟩
  · cases isSent

/-- The configuration is a SQL login with a ciphertext to the key of the sample host. -/
def isSampleLogin (config : WorkerInstanceConfig) : Bool :=
  config.authMode = .sql && config.credentialCiphertext.isSome &&
    config.credentialKeyFingerprint = some sampleHost.key.fingerprint

theorem sampleConfigs_unpublished (workerId : JsString) (row : WorkersRow)
    (held : loginEstate.workers workerId = some row) : row.credentialPublicKeyPem = none := by
  change (if workerId = js "w1" then _ else none) = some row at held
  split at held
  · cases held
    rfl
  · cases held

end RemoteSqlAgent
