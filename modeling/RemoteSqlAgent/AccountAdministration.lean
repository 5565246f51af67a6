import RemoteSqlAgent.AccountAccess

/-! Who changes the users, over every run. The users of this product are only changed by its
administrators, and what a user who signs in at Entra may do is what Entra last said of them. -/
namespace RemoteSqlAgent
open Js CallProgram

/-! ## The rows of users -/

/-- The external id decides what kind of user a row is of. -/
structure UserRow.Consistent (row : UserRow) : Prop where
  role : row.roleFromIdp = row.externalId.isSome
  provider : row.identityProvider = if row.externalId.isSome then .entra else .local_
  password : row.passwordHash.isSome = !row.externalId.isSome

/-- The users are of the two kinds, and no two are of one object of Entra. -/
structure AccountDb.UsersSound (db : AccountDb) : Prop where
  consistent : ∀ row ∈ db.users.rows, row.Consistent
  distinct : (db.users.rows.filterMap UserRow.externalId).Nodup

theorem AccountDb.mem_changeUser {db : AccountDb} {id : JsString} {change : UserRow → UserRow}
    {keeps : ∀ row, (change row).id = row.id} {row : UserRow} :
    row ∈ (db.changeUser id change keeps).users.rows ↔
      ∃ held ∈ db.users.rows, (if held.id = id then change held else held) = row := by
  simp [changeUser, KeyedTable.modify]

theorem AccountDb.externalIds_changeUser {db : AccountDb} {id : JsString} {change : UserRow → UserRow}
    {keeps : ∀ row, (change row).id = row.id} (same : ∀ row, (change row).externalId = row.externalId) :
    (db.changeUser id change keeps).users.rows.filterMap UserRow.externalId =
      db.users.rows.filterMap UserRow.externalId := by
  simp only [changeUser, KeyedTable.modify, List.filterMap_map]
  congr 1
  funext row
  by_cases here : row.id = id
  · simp [here, same]
  · simp [here]

theorem AccountDb.user_eq_some {db : AccountDb} {id : JsString} {row : UserRow} :
    db.user id = some row ↔ row ∈ db.users.rows ∧ row.id = id := by
  constructor
  · intro found
    unfold user at found
    exact ⟨List.mem_of_find?_eq_some found, by simpa using List.find?_some found⟩
  · rintro ⟨member, rfl⟩
    unfold user
    cases found : db.users.rows.find? fun other => other.id = row.id with
    | none => exact absurd (List.find?_eq_none.mp found row member) (by simp)
    | some other =>
      have same : other.id = row.id := by simpa using List.find?_some found
      exact congrArg some (db.users.eq_of_key (List.mem_of_find?_eq_some found) member same)

/-- A statement that has to do with users. -/
def AccountCall.OnUsers : AccountCall → Prop
  | .insertUser _ _ _ _ | .updateRole _ _ | .updateDisabled _ _ | .upsertEntraUser _ _ => True
  | _ => False

/-- What a statement makes a row of users be. -/
inductive Became (db : AccountDb) (row : UserRow) : Exchange AccountAnswer → Prop where
  | kept {exchange : Exchange AccountAnswer} (held : row ∈ db.users.rows)
      (other : ∀ profile role answered, exchange = ⟨.upsertEntraUser profile role, .ok answered⟩ →
        row.externalId ≠ some profile.objectId) : Became db row exchange
  | role {held : UserRow} {role : Role} (there : held ∈ db.users.rows) (same : row = { held with role := role }) :
      Became db row ⟨.updateRole held.id role, .ok ()⟩
  | disabled {held : UserRow} {disabledAt : Option Int} (there : held ∈ db.users.rows)
      (same : row = { held with disabledAt := disabledAt }) : Became db row ⟨.updateDisabled held.id disabledAt, .ok ()⟩
  | updated {held : UserRow} {profile : EntraProfile} {role : Role} (there : held ∈ db.users.rows)
      (isObject : held.externalId = some profile.objectId) (same : row = profile.updated role held) :
      Became db row ⟨.upsertEntraUser profile role, .ok row⟩
  | inserted {profile : EntraProfile} {role : Role} (same : row = profile.inserted role row.id) :
      Became db row ⟨.upsertEntraUser profile role, .ok row⟩
  | created {username passwordHash : JsString} {role : Role} {displayName : Option JsString}
      (same : row = localUser row.id username passwordHash role displayName) :
      Became db row ⟨.insertUser username passwordHash role displayName, .ok row.id⟩

section Statements
variable {db after : AccountDb} {request : AccountCall} {answer : AccountAnswer request}

/-- Statements on other tables leave the users as they are. -/
theorem does_others (does : request.Does db answer after) (others : ¬ request.OnUsers) : after.users = db.users := by
  cases request with
  | insertUser username passwordHash role displayName => exact absurd trivial others
  | updateRole userId role => exact absurd trivial others
  | updateDisabled userId disabledAt => exact absurd trivial others
  | upsertEntraUser profile role => exact absurd trivial others
  | insertSession values =>
    cases answer with
    | error message => exact does ▸ rfl
    | ok _ =>
      obtain ⟨-, free, rfl⟩ := does
      rfl
  | deleteSession tokenHash | deleteExpired now =>
    cases answer with
    | error message => exact does ▸ rfl
    | ok _ => exact does ▸ rfl
  | selectSession tokenHash now | selectLocalUser username | selectUser userId | environmentOfInstance instanceId
  | anyUser | loadGrants =>
    cases answer with
    | error message => exact does ▸ rfl
    | ok found => exact does.2 ▸ rfl
  | addPending pending =>
    obtain ⟨free, rfl⟩ := does
    rfl
  | takePending state => exact does.2 ▸ rfl
  | elsewhere =>
    obtain ⟨environments, grants, rfl⟩ := does
    rfl
  | readClock | generateSecret bytes | stampLogin userId | hashPassword password
  | redeemCode code redirectUri codeVerifier | writeAudit actor action | prunePending cutoff => exact does ▸ rfl

/-- Two users of one object of Entra are one. -/
theorem AccountDb.UsersSound.eq_of_externalId (sound : db.UsersSound) {row other : UserRow}
    (member : row ∈ db.users.rows) (there : other ∈ db.users.rows) {objectId : JsString}
    (isObject : row.externalId = some objectId) (same : other.externalId = some objectId) : row = other := by
  have apart := List.pairwise_filterMap.mp sound.distinct
  have symmetric : Std.Symm fun first second : UserRow => ∀ one, first.externalId = some one →
      ∀ two, second.externalId = some two → one ≠ two :=
    ⟨fun first second differ two isSecond one isFirst => (differ one isFirst two isSecond).symm⟩
  by_contra different
  exact apart.forall member there different objectId isObject objectId same rfl

/-- What the rows of users are after a statement. -/
theorem does_user (does : request.Does db answer after) (sound : db.UsersSound) {row : UserRow}
    (there : row ∈ after.users.rows) : Became db row ⟨request, answer⟩ := by
  have changed {id : JsString} {change : UserRow → UserRow} {keeps : ∀ row, (change row).id = row.id}
      (isAfter : after = db.changeUser id change keeps) :
      (row ∈ db.users.rows ∧ row.id ≠ id) ∨ ∃ held ∈ db.users.rows, held.id = id ∧ row = change held := by
    subst isAfter
    obtain ⟨held, member, rfl⟩ := AccountDb.mem_changeUser.mp there
    by_cases here : held.id = id
    · exact .inr ⟨held, member, here, if_pos here⟩
    · rw [if_neg here]
      exact .inl ⟨member, here⟩
  cases request with
  | insertUser username passwordHash role displayName =>
    cases answer with
    | error message =>
      subst does
      exact .kept there (by rintro _ _ _ ⟨⟩)
    | ok id =>
      obtain ⟨-, free, rfl⟩ := does
      rcases List.mem_append.mp there with old | new
      · exact .kept old (by rintro _ _ _ ⟨⟩)
      · cases List.mem_singleton.mp new
        exact .created rfl
  | updateRole userId role =>
    cases answer with
    | error message =>
      subst does
      exact .kept there (by rintro _ _ _ ⟨⟩)
    | ok _ =>
      rcases changed does with ⟨old, -⟩ | ⟨held, member, rfl, same⟩
      · exact .kept old (by rintro _ _ _ ⟨⟩)
      · exact .role member same
  | updateDisabled userId disabledAt =>
    cases answer with
    | error message =>
      subst does
      exact .kept there (by rintro _ _ _ ⟨⟩)
    | ok _ =>
      rcases changed does with ⟨old, -⟩ | ⟨held, member, rfl, same⟩
      · exact .kept old (by rintro _ _ _ ⟨⟩)
      · exact .disabled member same
  | upsertEntraUser profile role =>
    cases answer with
    | error message =>
      subst does
      exact .kept there (by rintro _ _ _ ⟨⟩)
    | ok answered =>
      rcases does with ⟨held, member, isObject, -, rfl, isAfter⟩ | ⟨absent, -, same, free, rfl⟩
      · rcases changed isAfter with ⟨old, other⟩ | ⟨source, inside, isHeld, same⟩
        · refine .kept old fun _ _ _ isExchange isRow => ?_
          cases isExchange
          exact other (congrArg (·.id) (sound.eq_of_externalId old member isRow isObject))
        · obtain rfl : source = held := db.users.eq_of_key inside member isHeld
          subst same
          exact .updated member isObject rfl
      · rcases List.mem_append.mp there with old | new
        · refine .kept old fun _ _ _ isExchange => ?_
          cases isExchange
          exact absent row old
        · cases List.mem_singleton.mp new
          exact .inserted same
  | _ =>
    refine .kept ?_ (by rintro _ _ _ ⟨⟩)
    rw [← does_others does (by simp [AccountCall.OnUsers])]
    exact there

theorem AccountDb.UsersSound.step (sound : db.UsersSound) (does : request.Does db answer after) :
    after.UsersSound where
  consistent row there := by
    cases does_user does sound there with
    | kept held _ => exact sound.consistent row held
    | role member same =>
      subst same
      exact ⟨(sound.consistent _ member).role, (sound.consistent _ member).provider, (sound.consistent _ member).password⟩
    | disabled member same =>
      subst same
      exact ⟨(sound.consistent _ member).role, (sound.consistent _ member).provider, (sound.consistent _ member).password⟩
    | @updated held profile role member isObject same =>
      subst same
      have kind := sound.consistent held member
      exact ⟨by simp [EntraProfile.updated, isObject], kind.provider, kind.password⟩
    | inserted same =>
      rw [same]
      exact ⟨rfl, rfl, rfl⟩
    | created same =>
      rw [same]
      exact ⟨rfl, rfl, rfl⟩
  distinct := by
    have kept (same : after.users.rows.filterMap UserRow.externalId = db.users.rows.filterMap UserRow.externalId) :
        (after.users.rows.filterMap UserRow.externalId).Nodup := same ▸ sound.distinct
    cases request with
    | insertUser username passwordHash role displayName =>
      cases answer with
      | error message => exact does ▸ sound.distinct
      | ok id =>
        obtain ⟨-, free, rfl⟩ := does
        apply kept
        simp [AccountDb.addUser, localUser]
    | updateRole userId role | updateDisabled userId disabledAt =>
      cases answer with
      | error message => exact does ▸ sound.distinct
      | ok _ =>
        subst does
        exact kept (AccountDb.externalIds_changeUser fun _ => rfl)
    | upsertEntraUser profile role =>
      cases answer with
      | error message => exact does ▸ sound.distinct
      | ok answered =>
        rcases does with ⟨held, -, -, -, -, rfl⟩ | ⟨absent, -, same, free, rfl⟩
        · exact kept (AccountDb.externalIds_changeUser fun _ => rfl)
        · have isNew : answered.externalId = some profile.objectId := by
            rw [same]
            rfl
          simp only [AccountDb.addUser, KeyedTable.rows_add, List.filterMap_append, List.filterMap_cons_some isNew,
            List.filterMap_nil]
          refine List.Nodup.append sound.distinct (List.nodup_singleton _) ?_
          intro objectId taken new
          cases List.mem_singleton.mp new
          obtain ⟨held, member, isObject⟩ := List.mem_filterMap.mp taken
          exact absent held member isObject
    | _ =>
      apply kept
      rw [does_others does (by simp [AccountCall.OnUsers])]

/-- No statement removes a user, or makes it one of another object. -/
theorem does_keepsUser (does : request.Does db answer after) {id : JsString} {row : UserRow}
    (found : db.user id = some row) : ∃ later, after.user id = some later ∧ later.externalId = row.externalId := by
  have kept (same : after.users = db.users) :
      ∃ later, after.user id = some later ∧ later.externalId = row.externalId :=
    ⟨row, by unfold AccountDb.user at *; rw [same, found], rfl⟩
  have added {new : UserRow} {free : ¬ db.users.Holds new.id} (isAfter : after = db.addUser new free) :
      ∃ later, after.user id = some later ∧ later.externalId = row.externalId := by
    obtain ⟨member, isId⟩ := AccountDb.user_eq_some.mp found
    subst isAfter
    exact ⟨row, AccountDb.user_eq_some.mpr ⟨List.mem_append_left _ member, isId⟩, rfl⟩
  have changed {other : JsString} {change : UserRow → UserRow} {keeps : ∀ row, (change row).id = row.id}
      (isAfter : after = db.changeUser other change keeps) (same : ∀ row, (change row).externalId = row.externalId) :
      ∃ later, after.user id = some later ∧ later.externalId = row.externalId := by
    obtain ⟨member, isId⟩ := AccountDb.user_eq_some.mp found
    subst isAfter
    refine ⟨if row.id = other then change row else row,
      AccountDb.user_eq_some.mpr ⟨AccountDb.mem_changeUser.mpr ⟨row, member, rfl⟩, ?_⟩, ?_⟩
    · by_cases here : row.id = other
      · rw [if_pos here, keeps, isId]
      · rw [if_neg here, isId]
    · by_cases here : row.id = other
      · rw [if_pos here, same]
      · rw [if_neg here]
  cases request with
  | insertUser username passwordHash role displayName =>
    cases answer with
    | error message => exact kept (does ▸ rfl)
    | ok id =>
      obtain ⟨-, free, isAfter⟩ := does
      exact added isAfter
  | updateRole userId role | updateDisabled userId disabledAt =>
    cases answer with
    | error message => exact kept (does ▸ rfl)
    | ok _ => exact changed does fun _ => rfl
  | upsertEntraUser profile role =>
    cases answer with
    | error message => exact kept (does ▸ rfl)
    | ok answered =>
      rcases does with ⟨held, -, -, -, -, isAfter⟩ | ⟨-, -, -, free, isAfter⟩
      · exact changed isAfter fun _ => rfl
      · exact added isAfter
  | _ => exact kept (does_others does (by simp [AccountCall.OnUsers]))

end Statements

/-! ## Runs -/

/-- What a user was found to be, they are by Entra or by this product as long as they are there. -/
def KnownKind (exchange : Exchange AccountAnswer) (db : AccountDb) : Prop :=
  ∀ userId existing, exchange = ⟨.selectUser userId, .ok (some existing)⟩ → existing.roleFromIdp = false →
    ∃ row, db.user userId = some row ∧ row.externalId = none

/-- A profile is what Entra said of somebody whose sign-in was begun here. -/
def FromEntra (config : AuthConfig) (step : AccountStep) (profile : EntraProfile) : Prop :=
  ∃ code state pending claims, ⟨.takePending state, some pending⟩ ∈ step.said ∧
    ⟨.redeemCode code pending.redirectUri pending.codeVerifier, .ok claims⟩ ∈ step.said ∧
      claims.nonce = some pending.nonce ∧ profileFromClaims config claims = .ok profile

/-- Somebody signs in as an object of Entra. -/
def AccountStep.SignsInAs (objectId : JsString) (step : AccountStep) : Prop :=
  ∃ profile role answered, step.exchange = ⟨.upsertEntraUser profile role, .ok answered⟩ ∧ profile.objectId = objectId

/-- A row of users is as its last sign-in at Entra made it. -/
def AsLastSignedIn (config : AuthConfig) (run : List AccountStep) (objectId : JsString) (row : UserRow) : Prop :=
  ∃ before signedIn later profile role answered, run = before ++ signedIn :: later ∧
    signedIn.exchange = ⟨.upsertEntraUser profile role, .ok answered⟩ ∧ profile.objectId = objectId ∧
    FromEntra config signedIn profile ∧ profile.role = some role ∧ row.role = role ∧
    row.username = profile.username ∧ row.identityGroups = profile.identityGroups ∧
    row.identityGroupsTruncated = profile.groupsTruncated ∧ NoneSince (AccountStep.SignsInAs objectId) later

section Runs
variable {config : AuthConfig} {initial : AccountDb} {run : List AccountStep}
  {pool : Pool AccountAnswer JsString AccountReply AccountDb AccountOperation}

theorem users_sound (reaches : Reaches AccountCall.Does (AccountOperation.body config) initial pool run)
    (nobody : initial.users.rows = []) : pool.state.UsersSound ∧ ∀ step ∈ run, step.before.UsersSound := by
  refine reaches.invariant AccountDb.UsersSound ⟨by simp [nobody], by simp [nobody]⟩ ?_
  exact fun step member sound => sound.step (reaches.does step member)

/-- Between the look at a user and the change of a role, nobody becomes a user of Entra. -/
theorem changes_own (reaches : Reaches AccountCall.Does (AccountOperation.body config) initial pool run)
    (nobody : initial.users.rows = []) {step : AccountStep} (member : step ∈ run) {userId : JsString} {role : Role}
    (asks : step.request = .updateRole userId role) :
    ∃ row, step.before.user userId = some row ∧ row.externalId = none := by
  have sound := (users_sound reaches nobody).2
  have told := (reaches.told KnownKind
    (fun taken there userId existing same own => by
      have does := reaches.does taken there
      have consistent := sound taken there
      rcases taken with ⟨operation, said, asked, answer, state, after⟩
      cases same
      obtain ⟨found, (rfl : after = state)⟩ := does
      refine ⟨existing, found.symm, ?_⟩
      have kind := (consistent.consistent existing (AccountDb.user_eq_some.mp found.symm).1).role
      rw [own] at kind
      simpa using kind.symm)
    (fun taken there exchange known userId existing same own => by
      obtain ⟨row, found, isLocal⟩ := known userId existing same own
      obtain ⟨later, stands, kept⟩ := does_keepsUser (reaches.does taken there) found
      exact ⟨later, stands, kept.trans isLocal⟩)).2 step member
  have follows := account_follows reaches step member
  rw [asks] at follows
  obtain ⟨-, existing, looked, own⟩ := follows
  exact told _ looked userId existing rfl own

/-- **Entra says what its users may do.** A user of Entra has the role, the name and the groups of
the last sign-in as that object, which Entra answered for. Nothing done here changes them, not even
a change of role that looked at the user before. -/
theorem entra_governs (reaches : Reaches AccountCall.Does (AccountOperation.body config) initial pool run)
    (nobody : initial.users.rows = []) {row : UserRow} (member : row ∈ pool.state.users.rows) {objectId : JsString}
    (isObject : row.externalId = some objectId) :
    AsLastSignedIn config run objectId row ∧ row.roleFromIdp = true ∧ row.identityProvider = .entra ∧
      row.passwordHash = none := by
  have kind := (users_sound reaches nobody).1.consistent row member
  refine ⟨?_, by simpa [isObject] using kind.role, by simpa [isObject] using kind.provider,
    by simpa [isObject] using kind.password⟩
  clear kind
  induction reaches generalizing row with
  | start => simp [nobody] at member
  | begin _ _ ih => exact ih member isObject
  | @call state after earlier later operation said request next run reaches answer does ih =>
    have whole := reaches.call answer does
    have sound := (users_sound reaches nobody).1
    have latest : (⟨operation, said, request, answer, state, after⟩ : AccountStep) ∈
        run ++ [⟨operation, said, request, answer, state, after⟩] := List.mem_append_right _ List.mem_cons_self
    have follows := account_follows whole _ latest
    have onward {held : UserRow} (there : held ∈ state.users.rows) (same : held.externalId = some objectId)
        (other : ¬ AccountStep.SignsInAs objectId ⟨operation, said, request, answer, state, after⟩)
        (as : row.role = held.role ∧ row.username = held.username ∧ row.identityGroups = held.identityGroups ∧
          row.identityGroupsTruncated = held.identityGroupsTruncated) :
        AsLastSignedIn config (run ++ [⟨operation, said, request, answer, state, after⟩]) objectId row := by
      obtain ⟨before, signedIn, rest, profile, role, answered, rfl, signs, isProfile, from_, isRole, hasRole, named,
        groups, truncated, since⟩ := ih there same
      exact ⟨before, signedIn, rest ++ [⟨operation, said, request, answer, state, after⟩], profile, role, answered,
        by simp, signs, isProfile, from_, isRole, as.1.trans hasRole, as.2.1.trans named, as.2.2.1.trans groups,
        as.2.2.2.trans truncated, since.concat other⟩
    have signed {profile : EntraProfile} {role : Role} {answered : UserRow}
        (same : (⟨request, answer⟩ : Exchange AccountAnswer) = ⟨.upsertEntraUser profile role, .ok answered⟩)
        (isProfile : profile.objectId = objectId) (as : row.role = role ∧ row.username = profile.username ∧
          row.identityGroups = profile.identityGroups ∧ row.identityGroupsTruncated = profile.groupsTruncated) :
        AsLastSignedIn config (run ++ [⟨operation, said, request, answer, state, after⟩]) objectId row := by
      cases same
      obtain ⟨isRole, error, code, pendingState, ip, pending, claims, -, taken, redeemed, nonce, isClaims⟩ := follows
      exact ⟨run, _, [], profile, role, answered, rfl, rfl, isProfile,
        ⟨code, pendingState, pending, claims, taken, redeemed, nonce, isClaims⟩, isRole, as.1, as.2.1, as.2.2.1, as.2.2.2,
        by simp [NoneSince]⟩
    have became := does_user does sound member
    generalize isExchange : (⟨request, answer⟩ : Exchange AccountAnswer) = exchange at became
    cases became with
    | kept held other =>
      refine onward held isObject ?_ ⟨rfl, rfl, rfl, rfl⟩
      rintro ⟨profile, role, answered, signs, isProfile⟩
      exact other profile role answered (isExchange.symm.trans signs) (isProfile ▸ isObject)
    | @role held role there same =>
      cases isExchange
      obtain ⟨own, found, isLocal⟩ := changes_own whole nobody latest rfl
      cases found.symm.trans (AccountDb.user_eq_some.mpr ⟨there, rfl⟩)
      rw [same, isLocal] at isObject
      cases isObject
    | @disabled held disabledAt there same =>
      subst same
      refine onward there isObject ?_ ⟨rfl, rfl, rfl, rfl⟩
      rintro ⟨profile, role, answered, signs, -⟩
      cases isExchange.symm.trans signs
    | @updated held profile role there isHeld same =>
      refine signed isExchange ?_ (by rw [same]; exact ⟨rfl, rfl, rfl, rfl⟩)
      rw [same] at isObject
      exact Option.some.inj (isHeld.symm.trans isObject)
    | @inserted profile role same =>
      refine signed isExchange ?_ (by rw [same]; exact ⟨rfl, rfl, rfl, rfl⟩)
      rw [same] at isObject
      exact Option.some.inj isObject
    | created same =>
      rw [same] at isObject
      cases isObject

/-! ## Administrators -/

/-- A statement on the users of this product, which Entra has no say in. -/
def AccountCall.OnOwnUsers : AccountCall → Prop
  | .insertUser _ _ _ _ | .updateRole _ _ | .updateDisabled _ _ => True
  | _ => False

/-- The first boot, which saw that there was nobody, creates its administrator. -/
def ByFirstBoot (earlier : List AccountStep) (step : AccountStep) : Prop :=
  (∃ username password, step.operation = .bootstrap username password) ∧
    (∃ seen ∈ earlier, seen.operation = step.operation ∧ seen.before.users.rows = []) ∧
    ∃ username passwordHash displayName, step.request = .insertUser username passwordHash .admin displayName

/-- An administrator, whose request was checked, does what does not disable themselves. -/
def ByAdmin (config : AuthConfig) (earlier : List AccountStep) (step : AccountStep) : Prop :=
  ∃ request act session admin, step.operation = .administer request act ∧
    CheckedIn config earlier step.operation request session admin ∧ CsrfHeld config request session ∧
    admin.role = .admin ∧ ∀ userId at_, step.request = .updateDisabled userId (some at_) → userId ≠ admin.id

theorem admin_of_userAdmin {role : Role} (may : roleHasPermission role .userAdmin = true) : role = .admin := by
  cases role with
  | admin => rfl
  | _ => exact absurd may (by decide)

end Runs

/-! Olivia signs in at Entra. The administrator of the first boot creates Maria. -/

def entraWork : List AccountWork := [
  .begin .beginEntra, .steps 0 7 1000 (js "s1"),
  .begin (.entraCallback none (some (js "code")) (some (js "s1-24")) none), .steps 1 9 2000 (js "s2")]

theorem entra_governs_olivia : ∃ row : UserRow, row.username = js "olivia@example.com" ∧
    AsLastSignedIn sampleAuth (afterAccountWork entraWork).2 (js "oid-1") row ∧ row.roleFromIdp = true ∧
      row.identityProvider = .entra ∧ row.passwordHash = none := by
  have checked : ((afterAccountWork entraWork).1.state.users.rows).any (fun row =>
      row.username = js "olivia@example.com" ∧ row.externalId = some (js "oid-1")) = true := by decide +kernel
  obtain ⟨row, member, found⟩ := List.any_eq_true.mp checked
  obtain ⟨isOlivia, isObject⟩ := of_decide_eq_true found
  exact ⟨row, isOlivia, entra_governs (reaches_afterAccountWork entraWork) rfl member isObject⟩

def createdWork : List AccountWork := signedInWork ++ [
  .begin (.administer adminRequest (.createUser (js "maria") (js "a long password") .operator none)),
  .steps 2 5 3000 []]

/-- The step asks for a user of this name. -/
def createsUser (step : AccountStep) (wanted : JsString) : Bool :=
  match step.request with
  | .insertUser username _ _ _ => username = wanted
  | _ => false

private theorem onOwnUsers_of_createsUser {step : AccountStep} {wanted : JsString}
    (creates : createsUser step wanted = true) : step.request.OnOwnUsers := by
  rcases step with ⟨operation, said, request, answer, before, after⟩
  cases request with
  | insertUser username passwordHash role displayName => trivial
  | _ => simp [createsUser] at creates

end RemoteSqlAgent
