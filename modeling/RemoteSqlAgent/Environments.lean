import RemoteSqlAgent.CommandService
import RemoteSqlAgent.JsArray
import RemoteSqlAgent.JsCase
import Mathlib.Data.List.Dedup

/-! Environment grants. A grant raises the role of a principal within one
environment, and the resolver keeps the highest role of those that apply. Which
permissions a role has is settled by one number for each permission, so the
highest role has what any of them has. -/
namespace RemoteSqlAgent
open Js

/-! ## Roles -/

def ROLES : List Role := [.viewer, .operator, .editor, .admin]

def Role.text : Role → JsString
  | .viewer => js "Viewer"
  | .operator => js "Operator"
  | .editor => js "Editor"
  | .admin => js "Admin"

inductive Permission where
  | instanceRead
  | jobRead
  | historyRead
  | versionRead
  | jobToggle
  | jobRun
  | scheduleWrite
  | jobWrite
  | operatorWrite
  | commandApprove
  | workerAdmin
  | userAdmin
  | auditRead
  deriving DecidableEq

def Permission.text : Permission → JsString
  | .instanceRead => js "instance.read"
  | .jobRead => js "job.read"
  | .historyRead => js "history.read"
  | .versionRead => js "version.read"
  | .jobToggle => js "job.toggle"
  | .jobRun => js "job.run"
  | .scheduleWrite => js "schedule.write"
  | .jobWrite => js "job.write"
  | .operatorWrite => js "operator.write"
  | .commandApprove => js "command.approve"
  | .workerAdmin => js "worker.admin"
  | .userAdmin => js "user.admin"
  | .auditRead => js "audit.read"

def VIEWER : List Permission := [.instanceRead, .jobRead, .historyRead, .versionRead]

def OPERATOR : List Permission := VIEWER ++ [.jobToggle, .jobRun]

def EDITOR : List Permission := OPERATOR ++ [.scheduleWrite, .jobWrite]

def ADMIN : List Permission := EDITOR ++ [.operatorWrite, .commandApprove, .workerAdmin, .userAdmin, .auditRead]

def ROLE_PERMISSIONS : Role → List Permission
  | .viewer => VIEWER
  | .operator => OPERATOR
  | .editor => EDITOR
  | .admin => ADMIN

def roleHasPermission (role : Role) (permission : Permission) : Bool := permission ∈ ROLE_PERMISSIONS role

/-- `ROLE_RANK`. -/
def Role.rank (role : Role) : Nat := ROLES.idxOf role

/-- The more privileged of two roles. -/
def higher (a b : Role) : Role := if b.rank ≤ a.rank then a else b

/-- The rank from which a role has a permission. -/
def Permission.least (permission : Permission) : Nat :=
  if permission ∈ VIEWER then 0 else if permission ∈ OPERATOR then 1 else if permission ∈ EDITOR then 2 else 3

theorem roleHasPermission_iff (role : Role) (permission : Permission) :
    roleHasPermission role permission = true ↔ permission.least ≤ role.rank := by
  cases role <;> cases permission <;> decide

theorem Role.rank_injective : Function.Injective Role.rank := by
  intro a b same
  cases a <;> cases b <;> first | rfl | cases same

theorem le_rank_higher {a b : Role} {level : Nat} : level ≤ (higher a b).rank ↔ level ≤ a.rank ∨ level ≤ b.rank := by
  unfold higher
  split <;> omega

/-! ## Grants -/

inductive GrantSubjectKind where
  | entra_group
  | app_role
  | user
  deriving DecidableEq

def GrantSubjectKind.text : GrantSubjectKind → JsString
  | .entra_group => js "entra_group"
  | .app_role => js "app_role"
  | .user => js "user"

/-- A row of `environment_grants`, as the decision needs it. -/
structure EnvironmentGrant where
  subjectKind : GrantSubjectKind
  subjectKey : JsString
  environmentTag : JsString
  role : Role
  deriving DecidableEq

structure Principal where
  userId : JsString
  role : Role
  identityGroups : List JsString

def membershipKey (kind : GrantSubjectKind) (key : JsString) : JsString := kind.text ++ js ":" ++ key

def ALL_ENVIRONMENTS : JsString := js "*"

/-- Estate-wide permissions, which no grant confers. -/
def ESTATE_ONLY_PERMISSIONS : List Permission := [.workerAdmin, .userAdmin, .auditRead]

section Resolver
variable (table : CaseTable)

/-- `text.trim().toLowerCase()`. -/
def fold (text : JsString) : JsString := table.toLowerCase (trim text)

/-- A blank tag is none. -/
def normaliseTag (tag : Option JsString) : Option JsString := (tag.map (fold table)).filter fun trimmed => trimmed ≠ []

def appliesToSubject (grant : EnvironmentGrant) (principal : Principal) : Bool :=
  if grant.subjectKind = .user then grant.subjectKey = principal.userId
  else membershipKey grant.subjectKind grant.subjectKey ∈ principal.identityGroups

def appliesToEnvironment (grant : EnvironmentGrant) (environmentTag : Option JsString) : Bool :=
  if grant.environmentTag = ALL_ENVIRONMENTS then true
  else
    let target := normaliseTag table environmentTag
    target ≠ none ∧ normaliseTag table (some grant.environmentTag) = target

/-- One turn of the loop of `effectiveRole`. -/
def raise (principal : Principal) (environmentTag : Option JsString) (role : Role) (grant : EnvironmentGrant) : Role :=
  if ¬ appliesToSubject grant principal then role
  else if ¬ appliesToEnvironment table grant environmentTag then role
  else higher role grant.role

/-- The role of a principal in an environment. -/
def effectiveRole (principal : Principal) (grants : List EnvironmentGrant) (environmentTag : Option JsString) : Role :=
  grants.foldl (raise table principal environmentTag) principal.role

def canInEnvironment (principal : Principal) (grants : List EnvironmentGrant) (permission : Permission)
    (environmentTag : Option JsString) : Bool :=
  if roleHasPermission principal.role permission then true
  else if permission ∈ ESTATE_ONLY_PERMISSIONS then false
  else roleHasPermission (effectiveRole table principal grants environmentTag) permission

/-- Every permission of a principal in an environment. -/
def permissionsInEnvironment (principal : Principal) (grants : List EnvironmentGrant)
    (environmentTag : Option JsString) : List Permission :=
  let base := ROLE_PERMISSIONS principal.role
  let fromGrant := (ROLE_PERMISSIONS (effectiveRole table principal grants environmentTag)).filter
    fun permission => permission ∉ ESTATE_ONLY_PERMISSIONS
  (base ++ fromGrant).eraseDups

/-- The environments in which the grants of a principal confer a permission. -/
def grantedEnvironments (principal : Principal) (grants : List EnvironmentGrant) (permission : Permission) :
    List JsString :=
  let granting := grants.filter fun grant =>
    appliesToSubject grant principal && roleHasPermission grant.role permission
  sortBy compareDefault (granting.map (·.environmentTag)).eraseDups

/-! ## The guard of a route -/

/-- What a guard leaves behind: the environment for the audit record, and the
detail of a 403 if the request is refused. -/
structure Guarded where
  environmentTag : Option (Option JsString)
  forbidden : Option JsString

/-- The refusal in an environment says where else the principal has the permission. -/
def refusalIn (permission : Permission) (principal : Principal) (grants : List EnvironmentGrant)
    (environmentTag : Option JsString) : Option JsString :=
  if canInEnvironment table principal grants permission environmentTag then none
  else
    let elsewhere := grantedEnvironments principal grants permission
    if elsewhere.length > 0 then
      some (js "You can " ++ permission.text ++ js " in " ++ (js ", ").intercalate elsewhere ++ js ", but not in " ++
        environmentTag.getD (js "this untagged environment") ++ js ".")
    else
      some (js "Your role (" ++ principal.role.text ++ js ") cannot " ++ permission.text ++
        js ", and you hold no grant that allows it in " ++ environmentTag.getD (js "an untagged environment") ++ js ".")

/-- `requireInstancePermission`, for a request with a session. The instance is
looked up if it is named, and an error of the look-up is no answer. -/
def requireInstancePermission (permission : Permission) (principal : Principal) (instanceId : Option JsString)
    (environmentOfInstance : JsString → Except JsString (Option (Option JsString)))
    (grants : List EnvironmentGrant) : Guarded :=
  let named := instanceId.filter fun id => id ≠ []
  let environmentTag := named.bind fun id => (environmentOfInstance id).toOption.join
  let cannot := js "Your role (" ++ principal.role.text ++ js ") cannot " ++ permission.text
  { environmentTag
    forbidden :=
      if roleHasPermission principal.role permission then none
      else if named = none then
        some (cannot ++ js ", and this request does not name an instance to check a grant against.")
      else environmentTag.elim (some (cannot ++ js " here.")) (refusalIn table permission principal grants) }

end Resolver

/-! ## What the resolver keeps -/

section Resolution
variable {table : CaseTable} {principal : Principal} {grants : List EnvironmentGrant} {grant : EnvironmentGrant}
variable {permission : Permission} {tag : Option JsString} {level : Nat}

theorem normaliseTag_eq_some {name : JsString} :
    normaliseTag table tag = some name ↔ (∃ text, tag = some text ∧ fold table text = name) ∧ name ≠ [] := by
  cases tag <;> simp [normaliseTag, Option.filter_eq_some_iff]

theorem normaliseTag_eq_none : normaliseTag table tag = none ↔ ∀ text ∈ tag, fold table text = [] := by
  cases tag <;> simp [normaliseTag, Option.filter_eq_none_iff]

/-- What is stored as it is compared is compared as it is stored. -/
theorem normaliseTag_normaliseTag {name : JsString} (stored : normaliseTag table tag = some name) :
    normaliseTag table (some name) = some name := by
  obtain ⟨⟨text, -, same⟩, some_⟩ := normaliseTag_eq_some.mp stored
  refine normaliseTag_eq_some.mpr ⟨⟨name, rfl, ?_⟩, some_⟩
  rw [← same]
  exact CaseTable.fold_fold text

/-- A grant reaches every environment, or the one it names. -/
theorem appliesToEnvironment_iff :
    appliesToEnvironment table grant tag = true ↔ grant.environmentTag = ALL_ENVIRONMENTS ∨
      ∃ text, tag = some text ∧ fold table text ≠ [] ∧ fold table grant.environmentTag = fold table text := by
  unfold appliesToEnvironment
  split
  · rename_i all
    simp [all]
  · rename_i one
    simp only [one, false_or, decide_eq_true_eq]
    constructor
    · rintro ⟨target, same⟩
      obtain ⟨name, named⟩ := Option.ne_none_iff_exists'.mp target
      obtain ⟨⟨text, rfl, folded⟩, some_⟩ := normaliseTag_eq_some.mp named
      obtain ⟨⟨own, isOwn, equal⟩, -⟩ := normaliseTag_eq_some.mp (same.trans named)
      cases isOwn
      exact ⟨text, rfl, folded ▸ some_, equal.trans folded.symm⟩
    · rintro ⟨text, rfl, some_, equal⟩
      have named : normaliseTag table (some text) = some (fold table text) :=
        normaliseTag_eq_some.mpr ⟨⟨text, rfl, rfl⟩, some_⟩
      refine ⟨by simp [named], ?_⟩
      rw [named]
      exact normaliseTag_eq_some.mpr ⟨⟨_, rfl, equal⟩, some_⟩

/-- The grant applies to the principal in the environment. -/
def Applies (table : CaseTable) (principal : Principal) (tag : Option JsString) (grant : EnvironmentGrant) : Prop :=
  appliesToSubject grant principal = true ∧ appliesToEnvironment table grant tag = true

theorem le_rank_raise {role : Role} :
    level ≤ (raise table principal tag role grant).rank ↔
      level ≤ role.rank ∨ (Applies table principal tag grant ∧ level ≤ grant.role.rank) := by
  unfold raise Applies
  split
  · rename_i other
    simp [other]
  · rename_i subject
    split
    · rename_i other
      simp [other]
    · rename_i environment
      rw [le_rank_higher]
      simp only [not_not] at subject environment
      simp [subject, environment]

/-- The effective role is the highest of the base role and the grants that apply. -/
theorem le_rank_effectiveRole :
    level ≤ (effectiveRole table principal grants tag).rank ↔
      level ≤ principal.role.rank ∨ ∃ grant ∈ grants, Applies table principal tag grant ∧ level ≤ grant.role.rank := by
  have run : ∀ role : Role, level ≤ (grants.foldl (raise table principal tag) role).rank ↔
      level ≤ role.rank ∨ ∃ grant ∈ grants, Applies table principal tag grant ∧ level ≤ grant.role.rank := by
    induction grants with
    | nil => simp
    | cons grant rest ih =>
      intro role
      rw [List.foldl_cons, ih, le_rank_raise]
      simp only [List.mem_cons, exists_eq_or_imp, or_assoc]
  exact run principal.role

/-- The effective role depends only on which grants there are. -/
theorem effectiveRole_congr {others : List EnvironmentGrant} (same : ∀ grant, grant ∈ grants ↔ grant ∈ others) :
    effectiveRole table principal grants tag = effectiveRole table principal others tag := by
  refine Role.rank_injective (eq_of_forall_le_iff fun level => ?_)
  simp only [le_rank_effectiveRole, same]

theorem mem_permissionsInEnvironment :
    permission ∈ permissionsInEnvironment table principal grants tag ↔
      roleHasPermission principal.role permission = true ∨
      (roleHasPermission (effectiveRole table principal grants tag) permission = true ∧
        permission ∉ ESTATE_ONLY_PERMISSIONS) := by
  simp [permissionsInEnvironment, roleHasPermission]

theorem canInEnvironment_iff :
    canInEnvironment table principal grants permission tag = true ↔ roleHasPermission principal.role permission = true ∨
      (roleHasPermission (effectiveRole table principal grants tag) permission = true ∧
        permission ∉ ESTATE_ONLY_PERMISSIONS) := by
  unfold canInEnvironment
  split
  · rename_i base
    simp [base]
  · rename_i base
    split
    · rename_i estate
      simp [base, estate]
    · rename_i granted
      simp [base, granted]

/-- Grants confer what some grant that applies confers. -/
theorem can_iff_granted :
    canInEnvironment table principal grants permission tag = true ↔ roleHasPermission principal.role permission = true ∨
      (permission ∉ ESTATE_ONLY_PERMISSIONS ∧
        ∃ grant ∈ grants, Applies table principal tag grant ∧ roleHasPermission grant.role permission = true) := by
  rw [canInEnvironment_iff]
  simp only [roleHasPermission_iff, le_rank_effectiveRole]
  tauto

theorem appliesToSubject_mono {groups : List JsString} (more : principal.identityGroups ⊆ groups)
    (applies : appliesToSubject grant principal = true) :
    appliesToSubject grant { principal with identityGroups := groups } = true := by
  unfold appliesToSubject at applies ⊢
  split
  · rename_i user
    rwa [if_pos user] at applies
  · rename_i group
    rw [if_neg group, decide_eq_true_eq] at applies
    exact decide_eq_true (more applies)

theorem refusalIn_eq_none :
    refusalIn table permission principal grants tag = none ↔
      canInEnvironment table principal grants permission tag = true := by
  unfold refusalIn
  split
  · rename_i allowed
    simp [allowed]
  · rename_i denied
    simp only [denied]
    split <;> simp

/-- The guard lets a request through by the base role, or by a grant for an
environment that was found. -/
theorem requireInstancePermission_proceeds {instanceId : Option JsString}
    {environmentOfInstance : JsString → Except JsString (Option (Option JsString))} :
    (requireInstancePermission table permission principal instanceId environmentOfInstance grants).forbidden = none ↔
      roleHasPermission principal.role permission = true ∨ ∃ id tag, instanceId = some id ∧ id ≠ [] ∧
        environmentOfInstance id = .ok (some tag) ∧ canInEnvironment table principal grants permission tag = true := by
  unfold requireInstancePermission
  by_cases base : roleHasPermission principal.role permission = true
  · simp [base]
  · simp only [base, Bool.false_eq_true, if_false, false_or]
    cases instanceId with
    | none => simp
    | some id =>
      by_cases blank : id = []
      · simp [blank, Option.filter]
      · have named : (some id).filter (fun id => decide (id ≠ [])) = some id := by simp [Option.filter, blank]
        rw [named, if_neg (Option.some_ne_none id), Option.bind_some]
        cases answer : environmentOfInstance id with
        | error _ => simp [Except.toOption, answer]
        | ok found =>
          cases found with
          | none => simp [Except.toOption, answer]
          | some tag => simp [Except.toOption, answer, blank, refusalIn_eq_none]

end Resolution

/-- **A principal can do in an environment exactly what the base role allows or,
for a permission that is not estate-wide, what some grant allows whose subject it
is and whose environment is all or that one**. The list of permissions says the
same, an instance without a tag is reached by grants for all environments only,
and more grants or more groups never take a permission away. -/
theorem grants_add (table : CaseTable) (principal : Principal) (grants : List EnvironmentGrant)
    (tag : Option JsString) (permission : Permission) :
    (canInEnvironment table principal grants permission tag = true ↔
        permission ∈ permissionsInEnvironment table principal grants tag) ∧
      (canInEnvironment table principal grants permission tag = true ↔
        roleHasPermission principal.role permission = true ∨
          (permission ∉ [.workerAdmin, .userAdmin, .auditRead] ∧
            ∃ grant ∈ grants, appliesToSubject grant principal = true ∧
              (grant.environmentTag = js "*" ∨
                ∃ text, tag = some text ∧ fold table text ≠ [] ∧ fold table grant.environmentTag = fold table text) ∧
              roleHasPermission grant.role permission = true)) ∧
      (normaliseTag table tag = none →
        (canInEnvironment table principal grants permission tag = true ↔
          roleHasPermission principal.role permission = true ∨
            (permission ∉ [.workerAdmin, .userAdmin, .auditRead] ∧
              ∃ grant ∈ grants, appliesToSubject grant principal = true ∧ grant.environmentTag = js "*" ∧
                roleHasPermission grant.role permission = true))) ∧
      (canInEnvironment table principal grants permission tag = true →
        (∀ more : List EnvironmentGrant, grants ⊆ more → canInEnvironment table principal more permission tag = true) ∧
        ∀ groups : List JsString, principal.identityGroups ⊆ groups →
          canInEnvironment table { principal with identityGroups := groups } grants permission tag = true) := by
  refine ⟨canInEnvironment_iff.trans mem_permissionsInEnvironment.symm, ?_, ?_, ?_⟩
  · rw [can_iff_granted]
    simp only [Applies, appliesToEnvironment_iff, and_assoc]
    rfl
  · intro untagged
    rw [normaliseTag_eq_none] at untagged
    have only : ∀ grant : EnvironmentGrant,
        appliesToEnvironment table grant tag = true ↔ grant.environmentTag = js "*" := by
      intro grant
      refine appliesToEnvironment_iff.trans (or_iff_left ?_)
      rintro ⟨text, isText, some_, -⟩
      exact some_ (untagged text isText)
    rw [can_iff_granted]
    simp only [Applies, only, and_assoc]
    rfl
  · intro can
    rw [can_iff_granted] at can
    refine ⟨fun more included => ?_, fun groups included => ?_⟩
    · refine can_iff_granted.mpr (can.imp_right ?_)
      rintro ⟨grantable, grant, member, granted⟩
      exact ⟨grantable, grant, included member, granted⟩
    · refine can_iff_granted.mpr (can.imp_right ?_)
      rintro ⟨grantable, grant, member, ⟨subject, environment⟩, has⟩
      exact ⟨grantable, grant, member, ⟨appliesToSubject_mono included subject, environment⟩, has⟩

/-- A viewer whose group edits in production. -/
def samplePrincipal : Principal where
  userId := js "u1"
  role := .viewer
  identityGroups := [js "entra_group:g1"]

def sampleGrants : List EnvironmentGrant := [⟨.entra_group, js "g1", js "production", .editor⟩]

theorem sample_add :
    canInEnvironment basicTable samplePrincipal sampleGrants .jobWrite (some (js " Production ")) = true ∧
      canInEnvironment basicTable samplePrincipal sampleGrants .jobWrite none = false := by
  have named := (grants_add basicTable samplePrincipal sampleGrants (some (js " Production ")) .jobWrite).2.1
  have untagged := (grants_add basicTable samplePrincipal sampleGrants none .jobWrite).2.2.1 rfl
  refine ⟨named.mpr (.inr ?_), Bool.eq_false_iff.mpr fun can => ?_⟩
  · exact ⟨by decide, _, List.mem_singleton_self _, by decide, .inr ⟨_, rfl, by decide, by decide⟩, by decide⟩
  · obtain base | ⟨-, grant, member, -, all, -⟩ := untagged.mp can
    · cases base
    · cases List.mem_singleton.mp member
      exact absurd all (by decide)

end RemoteSqlAgent
