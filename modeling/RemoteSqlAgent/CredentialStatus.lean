import RemoteSqlAgent.InstanceConfigs
import RemoteSqlAgent.Interleaving

/-! The status of a configuration. One whose ciphertext cannot be opened is not to look as
if it were about to work, or did; an upsert that turns a login without a password into one
that needs one leaves the status as it was. -/
namespace RemoteSqlAgent
open Js ConfigStore CallProgram

/-- An operation of the dashboard or of a worker, with the clock and the id it gets. -/
inductive ConfigOperation where
  | upsert (input : UpsertInstanceConfigInput) (now : Int) (id : JsString)
  | recordKey (workerId publicKeyPem : JsString) (now : Int)
  | report (workerId : JsString) (results : List InstanceConfigResult) (now : Int)

def ConfigOperation.isReport : ConfigOperation → Bool
  | .report .. => true
  | _ => false

namespace ConfigStore

/-- The store after an operation. One that throws changes nothing. -/
def perform (table : CaseTable) (crypto : Crypto) (store : ConfigStore) : ConfigOperation → ConfigStore
  | .upsert input now id => match store.upsertInstanceConfig table input now id with
    | .ok (_, after) => after
    | .error _ => store
  | .recordKey workerId publicKeyPem now => match store.recordCredentialKey crypto workerId publicKeyPem now with
    | .ok (_, after) => after
    | .error _ => store
  | .report workerId results now => store.recordInstanceConfigStatus workerId results now

/-- The key of a worker. -/
def currentKey (store : ConfigStore) (workerId : JsString) : Option JsString :=
  (store.workers workerId).bind (·.credentialKeyFingerprint)

/-- The worker cannot log in: no ciphertext is stored, or one for another key than its own. -/
def Locked (store : ConfigStore) (row : InstanceConfigRow) : Prop :=
  row.authMode = .sql ∧
    (row.credentialCiphertext = none ∨ row.credentialKeyFingerprint ≠ store.currentKey row.workerId)

end ConfigStore

/-- A status that says of a configuration that it works, or may. -/
def ConfigStatus.Promises (status : ConfigStatus) : Prop := status = .pending ∨ status = .connected

/-- A worker promises nothing of a configuration that it cannot log in with. -/
def Truthful (store : ConfigStore) : ConfigOperation → Prop
  | .report workerId results _ => ∀ result ∈ results, ∀ row ∈ store.configs,
    row.key = (workerId, result.instanceName) → store.Locked row → ¬ (toConfigStatus result.status).Promises
  | _ => True

/-- The worker has reported the status of a configuration. -/
def ReportedIn (operations : List ConfigOperation) (row : InstanceConfigRow) : Prop :=
  ∃ results now, .report row.workerId results now ∈ operations ∧
    ∃ result ∈ results, result.instanceName = row.instanceName ∧ toConfigStatus result.status = row.status

/-- A configuration that its worker cannot log in with awaits credentials, unless the worker
has reported something else of it; and then it does not promise anything either. -/
def Honest (store : ConfigStore) (operations : List ConfigOperation) : Prop :=
  ∀ row ∈ store.configs, store.Locked row →
    ¬ row.status.Promises ∧ (row.status = .awaiting_credentials ∨ ReportedIn operations row)

/-- An upsert turns integrated authentication that is promising into a SQL login without a
password. -/
def SwitchesBlindly (store : ConfigStore) : ConfigOperation → Prop
  | .upsert input _ _ => input.authMode = .sql ∧ truthyText input.loginName ≠ none ∧
    truthyText input.credentialCiphertext = none ∧
    ∃ row ∈ store.configs, row.key = (input.workerId, input.instanceName) ∧ row.authMode = .integrated ∧
      row.status.Promises
  | _ => False

/-! ## What every operation keeps -/

/-- Whatever the operations: integrated authentication stores no ciphertext, there is none
without a key, a configuration has a worker, and a status is the control plane's or reported. -/
structure KeptConfigs (store : ConfigStore) (operations : List ConfigOperation) : Prop where
  integrated : ∀ row ∈ store.configs, row.authMode = .integrated → row.credentialCiphertext = none
  keyed : ∀ row ∈ store.configs, row.credentialCiphertext ≠ none → store.currentKey row.workerId ≠ none
  owned : ∀ row ∈ store.configs, store.workers row.workerId ≠ none
  stated : ∀ row ∈ store.configs, row.status = .awaiting_credentials ∨ row.status = .pending ∨ ReportedIn operations row

theorem ReportedIn.later {operations : List ConfigOperation} {row : InstanceConfigRow} (reported : ReportedIn operations row)
    (operation : ConfigOperation) : ReportedIn (operations ++ [operation]) row := by
  obtain ⟨results, now, member, said⟩ := reported
  exact ⟨results, now, List.mem_append_left _ member, said⟩

/-! ## Upserts -/

section Upserts
variable {table : CaseTable} {store : ConfigStore} {input : UpsertInstanceConfigInput} {now : Int} {id : JsString}
  {row saved : InstanceConfigRow}

/-- What an upsert makes of a row, as far as the credential and the status go. -/
structure SavedFrom (input : UpsertInstanceConfigInput) (now : Int) (row saved : InstanceConfigRow) : Prop where
  workerId : saved.workerId = row.workerId
  instanceName : saved.instanceName = row.instanceName
  authMode : saved.authMode = input.authMode
  ciphertext : saved.credentialCiphertext = (credential input now row).credentialCiphertext
  fingerprint : saved.credentialKeyFingerprint = (credential input now row).credentialKeyFingerprint
  status : saved.status = if usable input then .pending else row.status

theorem savedFrom_shared (row : InstanceConfigRow) {status : ConfigStatus} (detail : Option JsString) (at_ : Option Int)
    (isStatus : status = if usable input then .pending else row.status) :
    SavedFrom input now row { shared table input (credential input now row) with
      status := status, statusDetail := detail, statusAt := at_ } := by
  have names : (credential input now row).workerId = row.workerId ∧
      (credential input now row).instanceName = row.instanceName := by
    unfold credential
    split <;> exact ⟨rfl, rfl⟩
  exact ⟨names.1, names.2, rfl, rfl, rfl, isStatus⟩

theorem savedFrom_updated (row : InstanceConfigRow) : SavedFrom input now row (updatedConfig table input now row) := by
  have kept : (credential input now row).status = row.status := by
    unfold credential
    split <;> rfl
  unfold updatedConfig
  dsimp only
  split
  next something => exact savedFrom_shared row none (some now) (if_pos something).symm
  next nothing => exact savedFrom_shared row _ _ (kept.trans (if_neg nothing).symm)

theorem savedFrom_new (id : JsString) :
    SavedFrom input now (blankConfig input now id) (newConfig table input now id) := by
  have kept : (credential input now (blankConfig input now id)).status = (blankConfig input now id).status := by
    unfold credential
    split <;> rfl
  refine savedFrom_shared (blankConfig input now id) _ _ (kept.trans ?_)
  change (if usable input then ConfigStatus.pending else .awaiting_credentials) = _
  split
  · rfl
  next nothing => exact (if_neg nothing).symm

/-- With something to try, what is saved is pending and not locked. -/
theorem unlocked_of_usable (from_ : SavedFrom input now row saved) (isRow : row.workerId = input.workerId)
    (checked : checkUpsert input (store.getCredentialKey input.workerId) = .ok ()) (something : usable input = true) :
    ¬ store.Locked saved ∧ (saved.authMode = .integrated → saved.credentialCiphertext = none) ∧
      (saved.credentialCiphertext ≠ none → store.currentKey saved.workerId ≠ none) := by
  rw [Locked, from_.authMode, from_.ciphertext, from_.fingerprint, from_.workerId, isRow]
  cases mode : input.authMode with
  | integrated => simp [credential, mode]
  | sql =>
    have new : truthyText input.credentialCiphertext ≠ none := by
      simpa [usable, mode, Option.isSome_iff_ne_none] using something
    obtain ⟨ciphertext, isNew⟩ := Option.ne_none_iff_exists'.mp new
    obtain ⟨key, isKey, same⟩ := checkUpsert_key checked new
    have current : store.currentKey input.workerId = some key.fingerprint := getCredentialKey_eq_some isKey
    simp [credential, mode, isNew, same, current]

/-- With nothing to try, a SQL login keeps what is stored. -/
theorem kept_of_unusable (from_ : SavedFrom input now row saved) (nothing : usable input = false) :
    saved.authMode = .sql ∧ saved.credentialCiphertext = row.credentialCiphertext ∧
      saved.credentialKeyFingerprint = row.credentialKeyFingerprint ∧ saved.status = row.status := by
  simp only [usable, Bool.or_eq_false_iff, decide_eq_false_iff_not, Option.isSome_eq_false_iff, Option.isNone_iff_eq_none]
    at nothing
  have mode : input.authMode = .sql := by
    cases mode : input.authMode with
    | integrated => exact absurd mode nothing.1
    | sql => rfl
  have unchanged : credential input now row = row := by simp [credential, mode, nothing.2]
  refine ⟨from_.authMode.trans mode, unchanged ▸ from_.ciphertext, unchanged ▸ from_.fingerprint, ?_⟩
  rw [from_.status, if_neg]
  simp [usable, nothing.1, nothing.2]

/-- An upsert that is done saves one row: a new one, or what was there. -/
theorem saved_of_upsert {after : ConfigStore} {view : InstanceConfigView}
    (upserted : store.upsertInstanceConfig table input now id = .ok (view, after)) :
    checkUpsert input (store.getCredentialKey input.workerId) = .ok () ∧ store.workers input.workerId ≠ none ∧
      after.workers = store.workers ∧ ∃ row saved, SavedFrom input now row saved ∧
        row.key = (input.workerId, input.instanceName) ∧
        (row = blankConfig input now id ∧ ¬ store.configs.Holds (input.workerId, input.instanceName) ∨
          row ∈ store.configs) ∧
        ∀ other, other ∈ after.configs ↔
          other ∈ store.configs ∧ other.key ≠ (input.workerId, input.instanceName) ∨ other = saved := by
  obtain ⟨checked, owned, workers, configs⟩ := upsertInstanceConfig_ok upserted
  obtain ⟨saved, rows, savedAs⟩ := mem_upsertRow table store input now id
  refine ⟨checked, owned, workers, ?_⟩
  rcases savedAs with ⟨rfl, free⟩ | ⟨row, held, isKey, rfl⟩
  · exact ⟨blankConfig input now id, _, savedFrom_new id, rfl, .inl ⟨rfl, free⟩, fun other => configs ▸ rows other⟩
  · exact ⟨row, _, savedFrom_updated row, isKey, .inr held, fun other => configs ▸ rows other⟩

theorem ReportedIn.of_same {operations : List ConfigOperation} (reported : ReportedIn operations row)
    (workerId : saved.workerId = row.workerId) (instanceName : saved.instanceName = row.instanceName)
    (status : saved.status = row.status) : ReportedIn operations saved := by
  obtain ⟨results, now, member, result, listed, named, said⟩ := reported
  exact ⟨results, now, workerId ▸ member, result, listed, named.trans instanceName.symm, said.trans status.symm⟩

theorem currentKey_congr {after : ConfigStore} (workers : after.workers = store.workers) :
    after.currentKey = store.currentKey := by
  funext workerId
  rw [currentKey, workers, currentKey]

/-- What is kept of the row that is saved. -/
structure SavedWell (store : ConfigStore) (operations : List ConfigOperation) (saved : InstanceConfigRow) : Prop where
  integrated : saved.authMode = .integrated → saved.credentialCiphertext = none
  keyed : saved.credentialCiphertext ≠ none → store.currentKey saved.workerId ≠ none
  stated : saved.status = .awaiting_credentials ∨ saved.status = .pending ∨ ReportedIn operations saved

theorem savedWell_blank (operations : List ConfigOperation) (nothing : usable input = false)
    (from_ : SavedFrom input now (blankConfig input now id) saved) : SavedWell store operations saved := by
  obtain ⟨mode, ciphertext, -, status⟩ := kept_of_unusable from_ nothing
  have awaiting : (blankConfig input now id).status = .awaiting_credentials := by
    change (if usable input then ConfigStatus.pending else .awaiting_credentials) = _
    rw [nothing]
    rfl
  refine ⟨fun integrated => ?_, fun stored => absurd ciphertext stored, .inl (status.trans awaiting)⟩
  rw [mode] at integrated
  cases integrated

theorem savedWell_held {operations : List ConfigOperation} (kept : KeptConfigs store operations) (held : row ∈ store.configs)
    (nothing : usable input = false) (from_ : SavedFrom input now row saved) : SavedWell store operations saved := by
  obtain ⟨mode, ciphertext, -, status⟩ := kept_of_unusable from_ nothing
  refine ⟨fun integrated => ?_, fun stored => ?_, ?_⟩
  · rw [mode] at integrated
    cases integrated
  · rw [from_.workerId]
    exact kept.keyed row held (ciphertext ▸ stored)
  · rw [status]
    exact (kept.stated row held).imp_right (Or.imp_right fun reported =>
      reported.of_same from_.workerId from_.instanceName status)

theorem kept_upsert {operations : List ConfigOperation} {after : ConfigStore} {view : InstanceConfigView}
    (kept : KeptConfigs store operations) (upserted : store.upsertInstanceConfig table input now id = .ok (view, after))
    (operation : ConfigOperation) : KeptConfigs after (operations ++ [operation]) := by
  obtain ⟨checked, owned, workers, row, saved, from_, isKey, held, rows⟩ := saved_of_upsert upserted
  have isRow : row.workerId = input.workerId := congrArg Prod.fst isKey
  have well : SavedWell store operations saved := by
    cases something : usable input with
    | true =>
      obtain ⟨-, integrated, keyed⟩ := unlocked_of_usable from_ isRow checked something
      exact ⟨integrated, keyed, .inr (.inl (from_.status.trans (if_pos something)))⟩
    | false =>
      rcases held with ⟨rfl, -⟩ | held
      · exact savedWell_blank operations something from_
      · exact savedWell_held kept held something from_
  have stated : ∀ other, (other.status = .awaiting_credentials ∨ other.status = .pending ∨ ReportedIn operations other) →
      other.status = .awaiting_credentials ∨ other.status = .pending ∨ ReportedIn (operations ++ [operation]) other :=
    fun other => Or.imp_right (Or.imp_right fun reported => reported.later operation)
  constructor
  · intro other member mode
    rcases (rows other).mp member with ⟨there, -⟩ | rfl
    · exact kept.integrated other there mode
    · exact well.integrated mode
  · intro other member stored
    rw [currentKey_congr workers]
    rcases (rows other).mp member with ⟨there, -⟩ | rfl
    · exact kept.keyed other there stored
    · exact well.keyed stored
  · intro other member
    rw [workers]
    rcases (rows other).mp member with ⟨there, -⟩ | rfl
    · exact kept.owned other there
    · rw [from_.workerId, isRow]
      exact owned
  · intro other member
    rcases (rows other).mp member with ⟨there, -⟩ | rfl
    · exact stated other (kept.stated other there)
    · exact stated other well.stated

theorem not_promises_awaiting : ¬ ConfigStatus.awaiting_credentials.Promises := by
  rintro (same | same) <;> cases same

/-- An upsert that does not switch blindly stays honest. -/
theorem honest_upsert {operations : List ConfigOperation} {after : ConfigStore} {view : InstanceConfigView}
    (kept : KeptConfigs store operations) (honest : Honest store operations)
    (upserted : store.upsertInstanceConfig table input now id = .ok (view, after))
    (careful : ¬ SwitchesBlindly store (.upsert input now id)) (operation : ConfigOperation) :
    Honest after (operations ++ [operation]) := by
  obtain ⟨checked, -, workers, row, saved, from_, isKey, held, rows⟩ := saved_of_upsert upserted
  have isRow : row.workerId = input.workerId := congrArg Prod.fst isKey
  intro other member locked
  rw [Locked, currentKey_congr workers] at locked
  rcases (rows other).mp member with ⟨there, -⟩ | rfl
  · exact (honest other there locked).imp_right (Or.imp_right fun reported => reported.later operation)
  · cases something : usable input with
    | true => exact absurd locked (unlocked_of_usable from_ isRow checked something).1
    | false =>
      obtain ⟨mode, ciphertext, fingerprint, status⟩ := kept_of_unusable from_ something
      rcases held with ⟨rfl, -⟩ | held
      · have awaiting : other.status = .awaiting_credentials := by
          rw [status]
          change (if usable input then ConfigStatus.pending else .awaiting_credentials) = _
          rw [something]
          rfl
        exact ⟨awaiting ▸ not_promises_awaiting, .inl awaiting⟩
      · cases was : row.authMode with
        | sql =>
          have wasLocked : store.Locked row := by
            rw [ciphertext, fingerprint, from_.workerId] at locked
            exact ⟨was, locked.2⟩
          rw [status]
          refine (honest row held wasLocked).imp_right (Or.imp_right fun reported => ?_)
          exact (reported.of_same from_.workerId from_.instanceName status).later operation
        | integrated =>
          have nothing : truthyText input.credentialCiphertext = none := by
            simpa [usable] using (Bool.or_eq_false_iff.mp something).2
          have named : truthyText input.loginName ≠ none := by
            intro unnamed
            unfold checkUpsert at checked
            rw [if_pos ⟨from_.authMode ▸ mode, unnamed⟩] at checked
            cases checked
          have modest : ¬ row.status.Promises := fun promises =>
            careful ⟨from_.authMode ▸ mode, named, nothing, row, held, isKey, was, promises⟩
          rw [status]
          refine ⟨modest, ?_⟩
          rcases kept.stated row held with awaiting | pending | reported
          · exact .inl awaiting
          · exact absurd (.inl pending) modest
          · exact .inr ((reported.of_same from_.workerId from_.instanceName status).later operation)

/-- One that does makes a configuration promise what it cannot keep. -/
theorem dishonest_upsert {operations : List ConfigOperation} (kept : KeptConfigs store operations)
    (blindly : SwitchesBlindly store (.upsert input now id)) (crypto : Crypto) (later : List ConfigOperation) :
    ¬ Honest (store.perform table crypto (.upsert input now id)) later := by
  obtain ⟨sql, named, nothing, row, held, isKey, integrated, promises⟩ := blindly
  have checked : checkUpsert input (store.getCredentialKey input.workerId) = .ok () := by
    unfold checkUpsert
    rw [if_neg fun refused => named refused.2, nothing]
  have isRow : row.workerId = input.workerId := congrArg Prod.fst isKey
  obtain ⟨⟨view, after⟩, upserted⟩ := upsertInstanceConfig_succeeds table now id checked
    (isRow ▸ kept.owned row held)
  obtain ⟨-, -, workers, old, saved, from_, isOld, was, rows⟩ := saved_of_upsert upserted
  have same : old = row := by
    rcases was with ⟨-, free⟩ | there
    · exact absurd (isKey ▸ KeyedTable.holds_of_mem held) free
    · exact store.configs.eq_of_key there held (isOld.trans isKey.symm)
  subst same
  have unusable : usable input = false := by simp [usable, sql, nothing]
  obtain ⟨mode, ciphertext, -, status⟩ := kept_of_unusable from_ unusable
  have performed : store.perform table crypto (.upsert input now id) = after := by
    rw [ConfigStore.perform, upserted]
  rw [performed]
  intro honest
  have locked : after.Locked saved := ⟨mode, .inl (ciphertext.trans (kept.integrated old held integrated))⟩
  exact (honest saved ((rows saved).mpr (.inr rfl)) locked).1 (status ▸ promises)

end Upserts

/-! ## Keys -/

section Keys
variable {crypto : Crypto} {store after : ConfigStore} {workerId publicKeyPem : JsString} {now : Int}
  {recorded : KeyRecorded} {operations : List ConfigOperation}

theorem currentKey_recorded
    (ok : store.recordCredentialKey crypto workerId publicKeyPem now = .ok (recorded, after)) (other : JsString) :
    after.currentKey other = store.currentKey other ∨
      other = workerId ∧ after.currentKey other = some recorded.fingerprint := by
  obtain ⟨workers, -⟩ := recordCredentialKey_ok ok
  rw [currentKey, workers]
  rcases eq_or_ne other workerId with rfl | different
  · rw [Function.update_self]
    cases held : store.workers other with
    | none =>
      left
      rw [currentKey, held]
      rfl
    | some row => exact .inr ⟨rfl, rfl⟩
  · rw [Function.update_of_ne different]
    exact .inl rfl

/-- Every row is one that was there, but for its status. -/
theorem row_recorded (ok : store.recordCredentialKey crypto workerId publicKeyPem now = .ok (recorded, after))
    {row : InstanceConfigRow} (member : row ∈ after.configs) :
    ∃ held ∈ store.configs, row = held ∨
      row.status = .awaiting_credentials ∧ ∃ detail, row = withStatus .awaiting_credentials detail now held := by
  obtain ⟨-, -, unchanged, invalidated⟩ := recordCredentialKey_ok ok
  cases changed : recorded.changed with
  | false =>
    rw [unchanged changed] at member
    exact ⟨row, member, .inl rfl⟩
  | true =>
    obtain ⟨detail, rows⟩ := invalidated changed
    obtain ⟨held, there, rfl⟩ := (rows row).mp member
    refine ⟨held, there, ?_⟩
    split
    · exact .inr ⟨rfl, detail, rfl⟩
    · exact .inl rfl

theorem kept_record (kept : KeptConfigs store operations)
    (ok : store.recordCredentialKey crypto workerId publicKeyPem now = .ok (recorded, after))
    (operation : ConfigOperation) : KeptConfigs after (operations ++ [operation]) := by
  have keyStays : ∀ other, store.currentKey other ≠ none → after.currentKey other ≠ none := by
    intro other held
    rcases currentKey_recorded ok other with same | ⟨-, published⟩
    · exact same ▸ held
    · simp [published]
  have workerStays : ∀ other, store.workers other ≠ none → after.workers other ≠ none := by
    intro other held
    rw [(recordCredentialKey_ok ok).1]
    rcases eq_or_ne other workerId with rfl | different
    · rw [Function.update_self]
      simpa using held
    · rwa [Function.update_of_ne different]
  constructor
  · intro row member mode
    obtain ⟨held, there, rfl | ⟨-, detail, rfl⟩⟩ := row_recorded ok member
    · exact kept.integrated row there mode
    · exact kept.integrated held there mode
  · intro row member stored
    obtain ⟨held, there, rfl | ⟨-, detail, rfl⟩⟩ := row_recorded ok member
    · exact keyStays _ (kept.keyed row there stored)
    · exact keyStays _ (kept.keyed held there stored)
  · intro row member
    obtain ⟨held, there, rfl | ⟨-, detail, rfl⟩⟩ := row_recorded ok member
    · exact workerStays _ (kept.owned row there)
    · exact workerStays _ (kept.owned held there)
  · intro row member
    obtain ⟨held, there, rfl | ⟨awaiting, -⟩⟩ := row_recorded ok member
    · exact (kept.stated row there).imp_right (Or.imp_right fun reported => reported.later operation)
    · exact .inl awaiting

/-- A configuration that a new key locks awaits credentials. -/
theorem honest_record (kept : KeptConfigs store operations) (honest : Honest store operations)
    (ok : store.recordCredentialKey crypto workerId publicKeyPem now = .ok (recorded, after))
    (operation : ConfigOperation) : Honest after (operations ++ [operation]) := by
  intro row member locked
  have before : ∀ row ∈ store.configs, store.Locked row →
      ¬ row.status.Promises ∧ (row.status = .awaiting_credentials ∨ ReportedIn (operations ++ [operation]) row) :=
    fun row there locked => (honest row there locked).imp_right (Or.imp_right fun reported => reported.later operation)
  rcases currentKey_recorded ok row.workerId with same | ⟨isWorker, published⟩
  · obtain ⟨held, there, rfl | ⟨awaiting, -⟩⟩ := row_recorded ok member
    · exact before row there ⟨locked.1, same ▸ locked.2⟩
    · exact ⟨awaiting ▸ not_promises_awaiting, .inl awaiting⟩
  · obtain ⟨-, isChanged, unchanged, invalidated⟩ := recordCredentialKey_ok ok
    cases changed : recorded.changed with
    | true =>
      obtain ⟨detail, rows⟩ := invalidated changed
      obtain ⟨held, there, rfl⟩ := (rows row).mp member
      by_cases mine : held.workerId = workerId ∧ held.authMode = .sql
      · rw [if_pos mine]
        exact ⟨not_promises_awaiting, .inl rfl⟩
      · rw [if_neg mine] at isWorker locked
        exact absurd ⟨isWorker, locked.1⟩ mine
    | false =>
      rw [unchanged changed] at member
      refine before row member ⟨locked.1, ?_⟩
      cases had : store.currentKey row.workerId with
      | none => exact .inl (not_not.mp fun stored => kept.keyed row member stored had)
      | some old =>
        rw [isWorker, currentKey] at had
        rw [had, changed] at isChanged
        obtain rfl : old = recorded.fingerprint := by simpa using isChanged
        exact published ▸ locked.2

end Keys

/-! ## Reports -/

section Reports
variable {store : ConfigStore} {workerId : JsString} {now : Int} {operations : List ConfigOperation}
  {results : List InstanceConfigResult} {result : InstanceConfigResult}

/-- Every row after a result is one that was there, or has the status of the result. -/
theorem row_recordResult {row : InstanceConfigRow} (member : row ∈ (store.recordResult workerId now result).configs) :
    ∃ held ∈ store.configs, row = held ∨ held.key = (workerId, result.instanceName) ∧
      ∃ detail, row = withStatus (toConfigStatus result.status) detail now held := by
  obtain ⟨held, there, rfl⟩ := mem_updateConfigs.mp member
  refine ⟨held, there, ?_⟩
  split
  next named => exact .inr ⟨Prod.ext named.1 named.2, _, rfl⟩
  · exact .inl rfl

theorem reported_result {held : InstanceConfigRow} (told : .report workerId results now ∈ operations)
    (listed : result ∈ results) (isKey : held.key = (workerId, result.instanceName)) (detail : Option JsString) :
    ReportedIn operations (withStatus (toConfigStatus result.status) detail now held) := by
  have mine : held.workerId = workerId := congrArg Prod.fst isKey
  subst mine
  exact ⟨results, now, told, result, listed, (congrArg Prod.snd isKey).symm, rfl⟩

theorem kept_recordResult (kept : KeptConfigs store operations) (told : .report workerId results now ∈ operations)
    (listed : result ∈ results) : KeptConfigs (store.recordResult workerId now result) operations := by
  constructor
  · intro row member mode
    obtain ⟨held, there, rfl | ⟨-, detail, rfl⟩⟩ := row_recordResult member
    · exact kept.integrated row there mode
    · exact kept.integrated held there mode
  · intro row member stored
    obtain ⟨held, there, rfl | ⟨-, detail, rfl⟩⟩ := row_recordResult member
    · exact kept.keyed row there stored
    · exact kept.keyed held there stored
  · intro row member
    obtain ⟨held, there, rfl | ⟨-, detail, rfl⟩⟩ := row_recordResult member
    · exact kept.owned row there
    · exact kept.owned held there
  · intro row member
    obtain ⟨held, there, rfl | ⟨isKey, detail, rfl⟩⟩ := row_recordResult member
    · exact kept.stated row there
    · exact .inr (.inr (reported_result told listed isKey detail))

theorem honest_recordResult (honest : Honest store operations) (told : .report workerId results now ∈ operations)
    (listed : result ∈ results) (truthful : ∀ row ∈ store.configs, row.key = (workerId, result.instanceName) →
      store.Locked row → ¬ (toConfigStatus result.status).Promises) :
    Honest (store.recordResult workerId now result) operations := by
  intro row member locked
  obtain ⟨held, there, rfl | ⟨isKey, detail, rfl⟩⟩ := row_recordResult member
  · exact honest row there locked
  · exact ⟨truthful held there isKey locked, .inr (reported_result told listed isKey detail)⟩

theorem recorded_results (kept : KeptConfigs store operations) (told : .report workerId results now ∈ operations) :
    ∀ rest, rest ⊆ results → KeptConfigs (store.recordInstanceConfigStatus workerId rest now) operations ∧
      (Honest store operations → (∀ result ∈ rest, ∀ row ∈ store.configs,
        row.key = (workerId, result.instanceName) → store.Locked row → ¬ (toConfigStatus result.status).Promises) →
          Honest (store.recordInstanceConfigStatus workerId rest now) operations) := by
  intro rest
  induction rest generalizing store with
  | nil => exact fun _ => ⟨kept, fun honest _ => honest⟩
  | cons result rest ih =>
    intro listed
    have first := listed List.mem_cons_self
    obtain ⟨keptRest, honestRest⟩ := ih (kept_recordResult kept told first)
      fun other member => listed (List.mem_cons_of_mem _ member)
    refine ⟨keptRest, fun honest truthful => honestRest ?_ ?_⟩
    · exact honest_recordResult honest told first (truthful result List.mem_cons_self)
    · intro other member row there isKey locked
      obtain ⟨held, before, rfl | ⟨-, detail, rfl⟩⟩ := row_recordResult there
      · exact truthful other (List.mem_cons_of_mem _ member) row before isKey locked
      · exact truthful other (List.mem_cons_of_mem _ member) held before isKey locked

end Reports

/-! ## Runs -/

section Runs
variable {table : CaseTable} {crypto : Crypto} {store initial : ConfigStore} {operations : List ConfigOperation}

theorem KeptConfigs.later (kept : KeptConfigs store operations) (operation : ConfigOperation) :
    KeptConfigs store (operations ++ [operation]) :=
  ⟨kept.integrated, kept.keyed, kept.owned, fun row member =>
    (kept.stated row member).imp_right (Or.imp_right fun reported => reported.later operation)⟩

theorem Honest.later (honest : Honest store operations) (operation : ConfigOperation) :
    Honest store (operations ++ [operation]) := fun row member locked =>
  (honest row member locked).imp_right (Or.imp_right fun reported => reported.later operation)

theorem kept_perform (kept : KeptConfigs store operations) (operation : ConfigOperation) :
    KeptConfigs (store.perform table crypto operation) (operations ++ [operation]) := by
  cases operation with
  | upsert input now id =>
    cases upserted : store.upsertInstanceConfig table input now id with
    | error fault =>
      rw [ConfigStore.perform, upserted]
      exact kept.later _
    | ok result =>
      rw [ConfigStore.perform, upserted]
      exact kept_upsert kept upserted _
  | recordKey workerId publicKeyPem now =>
    cases ok : store.recordCredentialKey crypto workerId publicKeyPem now with
    | error fault =>
      rw [ConfigStore.perform, ok]
      exact kept.later _
    | ok result =>
      rw [ConfigStore.perform, ok]
      exact kept_record kept ok _
  | report workerId results now =>
    exact (recorded_results (kept.later _) (by simp) results (List.Subset.refl _)).1

/-- An operation that does not switch blindly, with reports that are truthful, stays honest. -/
theorem honest_perform (kept : KeptConfigs store operations) (honest : Honest store operations) {operation : ConfigOperation}
    (truthful : Truthful store operation) (careful : ¬ SwitchesBlindly store operation) :
    Honest (store.perform table crypto operation) (operations ++ [operation]) := by
  cases operation with
  | upsert input now id =>
    cases upserted : store.upsertInstanceConfig table input now id with
    | error fault =>
      rw [ConfigStore.perform, upserted]
      exact honest.later _
    | ok result =>
      rw [ConfigStore.perform, upserted]
      exact honest_upsert kept honest upserted careful _
  | recordKey workerId publicKeyPem now =>
    cases ok : store.recordCredentialKey crypto workerId publicKeyPem now with
    | error fault =>
      rw [ConfigStore.perform, ok]
      exact honest.later _
    | ok result =>
      rw [ConfigStore.perform, ok]
      exact honest_record kept honest ok _
  | report workerId results now =>
    exact (recorded_results (kept.later _) (by simp) results (List.Subset.refl _)).2 (honest.later _) truthful

/-- The store after operations. -/
def runFrom (table : CaseTable) (crypto : Crypto) (initial : ConfigStore) (operations : List ConfigOperation) :
    ConfigStore := operations.foldl (ConfigStore.perform table crypto) initial

theorem runFrom_concat (operation : ConfigOperation) : runFrom table crypto initial (operations ++ [operation]) =
    (runFrom table crypto initial operations).perform table crypto operation := by
  simp [runFrom]

theorem kept_runFrom (fresh : initial.configs.rows = []) :
    KeptConfigs (runFrom table crypto initial operations) operations := by
  induction operations using List.reverseRecOn with
  | nil =>
    have nobody : ∀ row, row ∉ initial.configs := by
      intro row member
      rw [KeyedTable.mem_iff, fresh] at member
      cases member
    exact ⟨fun row member => absurd member (nobody row), fun row member => absurd member (nobody row),
      fun row member => absurd member (nobody row), fun row member => absurd member (nobody row)⟩
  | append_singleton operations operation ih =>
    rw [runFrom_concat]
    exact kept_perform ih operation

/-- Every run whose upserts are careful is honest throughout. -/
theorem honest_runFrom (fresh : initial.configs.rows = [])
    (truthful : AtEach (fun earlier operation => Truthful (runFrom table crypto initial earlier) operation) operations)
    (careful : AtEach (fun earlier operation => ¬ SwitchesBlindly (runFrom table crypto initial earlier) operation)
      operations) : Honest (runFrom table crypto initial operations) operations := by
  induction operations using List.reverseRecOn with
  | nil =>
    intro row member
    rw [KeyedTable.mem_iff, runFrom, List.foldl_nil, fresh] at member
    cases member
  | append_singleton operations operation ih =>
    rw [atEach_concat] at truthful careful
    rw [runFrom_concat]
    exact honest_perform (kept_runFrom fresh) (ih truthful.1 careful.1) truthful.2 careful.2

end Runs

/-- A status never lies exactly in the runs in which no upsert turns integrated
authentication whose status is pending or connected into a SQL login without a password. -/
theorem honest_iff_careful {table : CaseTable} {crypto : Crypto} {initial : ConfigStore}
    {operations : List ConfigOperation} (fresh : initial.configs.rows = [])
    (truthful : AtEach (fun earlier operation => Truthful (runFrom table crypto initial earlier) operation) operations) :
    AtEach (fun earlier operation => operation.isReport = false →
        Honest (runFrom table crypto initial (earlier ++ [operation])) (earlier ++ [operation])) operations ↔
      AtEach (fun earlier operation => ¬ SwitchesBlindly (runFrom table crypto initial earlier) operation)
        operations := by
  constructor
  · intro honest earlier operation later split blindly
    cases operation with
    | upsert input now id =>
      have after := honest earlier _ later split rfl
      rw [runFrom_concat] at after
      exact dishonest_upsert (kept_runFrom fresh) blindly crypto _ after
    | recordKey | report => exact blindly
  · intro careful earlier operation later split _
    have shorter : ∀ {holds : List ConfigOperation → ConfigOperation → Prop}, AtEach holds operations →
        AtEach holds (earlier ++ [operation]) := by
      intro holds each before step after within
      refine each before step (after ++ later) ?_
      rw [split, List.append_cons, within]
      simp
    exact honest_runFrom fresh (shorter truthful) (shorter careful)

/-! ## Samples -/

section Samples

def sampleConfigs : ConfigStore where
  workers workerId := if workerId = js "w1" then some {
      hostName := js "HOST1", capabilities := [], version := none, maxCapabilityReported := none
      credentialPublicKeyPem := none, credentialKeyFingerprint := none, certSerial := none, certExpiresAt := none
      connectedAt := none, lastSeenAt := none, lastRemoteAddress := none } else none
  configs := .empty
  detachedAt _ := none

def sampleUpsert (authMode : SqlAuthMode) (loginName : Option JsString) : UpsertInstanceConfigInput where
  workerId := js "w1"
  instanceName := js "SQL01"
  serverAddress := js "localhost"
  authMode := authMode
  loginName := loginName
  credentialCiphertext := none
  credentialKeyFingerprint := none
  encryptTls := none
  trustServerCertificate := none
  environmentTag := none
  actorId := none

/-- A SQL login without a password, and what the worker says of it. -/
def awaitingRun : List ConfigOperation :=
  [.upsert (sampleUpsert .sql (some (js "sa"))) 0 (js "c1"),
    .report (js "w1") [⟨js "SQL01", js "awaiting_credentials", js "No credential."⟩] 5]

theorem honest_iff_careful_awaiting :
    AtEach (fun earlier operation => operation.isReport = false →
      Honest (runFrom basicTable mirrorRuntime.crypto sampleConfigs (earlier ++ [operation])) (earlier ++ [operation]))
        awaitingRun := by
  refine (honest_iff_careful rfl ?_).mpr ?_
  · refine atEach_concat.mpr ⟨atEach_concat.mpr ⟨atEach_nil, trivial⟩, ?_⟩
    intro result listed row held isKey locked
    obtain rfl := List.mem_singleton.mp listed
    exact not_promises_awaiting
  · refine atEach_concat.mpr ⟨atEach_concat.mpr ⟨atEach_nil, ?_⟩, id⟩
    rintro ⟨-, -, -, row, held, -⟩
    cases held

/-- Integrated authentication, and then a SQL login without a password. -/
def blindRun : List ConfigOperation :=
  [.upsert (sampleUpsert .integrated none) 0 (js "c1"), .upsert (sampleUpsert .sql (some (js "sa"))) 5 (js "c2")]

/-- A SQL login without a password that is shown as pending. -/
theorem blind_switch_pending : sampleConfigs.configs.rows = [] ∧
    AtEach (fun earlier operation => Truthful (runFrom basicTable mirrorRuntime.crypto sampleConfigs earlier) operation)
      blindRun ∧
    ¬ AtEach (fun earlier operation => operation.isReport = false →
      Honest (runFrom basicTable mirrorRuntime.crypto sampleConfigs (earlier ++ [operation])) (earlier ++ [operation]))
        blindRun := by
  refine ⟨rfl, atEach_concat.mpr ⟨atEach_concat.mpr ⟨atEach_nil, trivial⟩, trivial⟩, fun honest => ?_⟩
  have after := honest [.upsert (sampleUpsert .integrated none) 0 (js "c1")] _ [] rfl rfl
  obtain ⟨row, held, sql, absent, pending⟩ :
      ∃ row ∈ (runFrom basicTable mirrorRuntime.crypto sampleConfigs blindRun).configs, row.authMode = .sql ∧ row.credentialCiphertext = none ∧ row.status = .pending :=
    ⟨_, List.mem_cons_self, rfl, rfl, rfl⟩
  exact (after row held ⟨sql, .inl absent⟩).1 (.inl pending)

end Samples

end RemoteSqlAgent
