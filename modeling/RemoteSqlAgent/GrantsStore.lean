import RemoteSqlAgent.Environments
import RemoteSqlAgent.KeyedTable

/-! Editing `environment_grants`. Tags are stored as they are compared, so the
unique index leaves one row for each subject and tag however the tag was spelled.
What the table lists is then settled by the log of the calls: for each subject
and tag, the last save unless its row was deleted since. -/
namespace RemoteSqlAgent
open Js

/-! ## Rows -/

/-- What the unique index is on. -/
structure GrantKey where
  subjectKind : GrantSubjectKind
  subjectKey : JsString
  environmentTag : JsString
  deriving DecidableEq

def EnvironmentGrant.key (grant : EnvironmentGrant) : GrantKey where
  subjectKind := grant.subjectKind
  subjectKey := grant.subjectKey
  environmentTag := grant.environmentTag

structure EnvironmentGrantRow where
  id : JsString
  grant : EnvironmentGrant
  subjectLabel : Option JsString
  createdBy : Option JsString

def EnvironmentGrantRow.key (row : EnvironmentGrantRow) : GrantKey := row.grant.key

abbrev GrantTable := KeyedTable EnvironmentGrantRow.key

/-- Every grant, for the resolver. -/
def loadGrants (grants : GrantTable) : List EnvironmentGrant := grants.rows.map (·.grant)

structure GrantInput where
  subjectKind : GrantSubjectKind
  subjectKey : JsString
  subjectLabel : Option JsString
  environmentTag : JsString
  role : Role

/-- The grant a save stores under a tag. -/
def GrantInput.stored (input : GrantInput) (tag : JsString) : EnvironmentGrant where
  subjectKind := input.subjectKind
  subjectKey := input.subjectKey
  environmentTag := tag
  role := input.role

inductive GrantFailure where
  | grantError (statusCode : Nat) (code message : JsString)
  | databaseError

/-! ## The calls -/

/-- The update of `onConflictDoUpdate`, for the row that has the key. -/
def EnvironmentGrantRow.updateWith (given held : EnvironmentGrantRow) : EnvironmentGrantRow :=
  if held.key = given.key then
    { held with subjectLabel := given.subjectLabel, grant := { held.grant with role := given.grant.role } }
  else held

theorem EnvironmentGrantRow.key_updateWith (given held : EnvironmentGrantRow) :
    (given.updateWith held).key = held.key := by
  unfold EnvironmentGrantRow.updateWith
  split <;> rfl

/-- `INSERT … ON CONFLICT (…) DO UPDATE … RETURNING id`. A fresh row must have a
fresh id. -/
def upsertGrant (grants : GrantTable) (row : EnvironmentGrantRow) : Except GrantFailure (List JsString × GrantTable) :=
  if taken : grants.Holds row.key then
    let after := grants.modify row.updateWith row.key_updateWith
    .ok ((after.rows.filter (·.key = row.key)).map (·.id), after)
  else if row.id ∈ grants.rows.map (·.id) then .error .databaseError
  else .ok ([row.id], grants.add row taken)

/-- A grant to a user names one that exists. The database may fail to read the
key as an id. -/
def checkUser (users : JsString → Except GrantFailure Bool) (input : GrantInput) : Except GrantFailure Unit :=
  if input.subjectKind = .user then do
    let known ← users input.subjectKey
    unless known do
      throw (.grantError 400 (js "UnknownUser") (js "No user with that id."))
  else pure ()

/-- `saveGrant`. -/
def saveGrant (table : CaseTable) (users : JsString → Except GrantFailure Bool) (newId : JsString)
    (input : GrantInput) (createdBy : Option JsString) (grants : GrantTable) :
    Except GrantFailure (JsString × GrantTable) := do
  checkUser users input
  match normaliseTag table (some input.environmentTag) with
  | none => throw (.grantError 400 (js "EmptyEnvironmentTag") (js "An environment tag cannot be blank."))
  | some tag =>
    let (returned, after) ← upsertGrant grants ⟨newId, input.stored tag, input.subjectLabel, createdBy⟩
    match returned.head? with
    | none => throw (.grantError 500 (js "GrantNotSaved") (js "The grant could not be saved."))
    | some id => pure (id, after)

/-- `deleteGrant`. It tells whether there was a row. -/
def deleteGrant (grants : GrantTable) (id : JsString) : Bool × GrantTable :=
  (id ∈ grants.rows.map (·.id), grants.remove fun row => row.id = id)

/-! ## Runs of calls -/

/-- A call, with the users of the moment and the id the database would draw. -/
inductive GrantEdit where
  | save (users : JsString → Except GrantFailure Bool) (newId : JsString) (input : GrantInput)
      (createdBy : Option JsString)
  | delete (id : JsString)

/-- What a call achieved. -/
inductive GrantLog where
  | saved (input : GrantInput) (id : JsString)
  | refused (failure : GrantFailure)
  | deleted (id : JsString)

section Store
variable (table : CaseTable)

/-- One call, with its entry in the log. The latest entry is first. -/
def GrantEdit.perform (state : GrantTable × List GrantLog) : GrantEdit → GrantTable × List GrantLog
  | .save users newId input createdBy =>
    match saveGrant table users newId input createdBy state.1 with
    | .ok (id, after) => (after, .saved input id :: state.2)
    | .error failure => (state.1, .refused failure :: state.2)
  | .delete id => ((deleteGrant state.1 id).2, .deleted id :: state.2)

/-- The table and the log after some calls on an empty table. -/
def editGrants (edits : List GrantEdit) : GrantTable × List GrantLog :=
  edits.foldl (GrantEdit.perform table) (.empty, [])

/-- The save is for this subject and tag. -/
def GrantInput.Names (input : GrantInput) (key : GrantKey) : Prop :=
  input.subjectKind = key.subjectKind ∧ input.subjectKey = key.subjectKey ∧
    normaliseTag table (some input.environmentTag) = some key.environmentTag

/-- The grant is what the last save for its subject and tag gave, and the row of
that save was not deleted since. -/
def StillGranted (log : List GrantLog) (id : JsString) (grant : EnvironmentGrant) : Prop :=
  ∃ since input before, log = since ++ .saved input id :: before ∧
    input.Names table grant.key ∧ input.role = grant.role ∧
    (∀ other otherId, GrantLog.saved other otherId ∈ since → ¬ other.Names table grant.key) ∧
    GrantLog.deleted id ∉ since

end Store

section Lemmas
variable {table : CaseTable} {grants after : GrantTable} {row : EnvironmentGrantRow} {id other : JsString}
variable {grant : EnvironmentGrant} {input : GrantInput} {log : List GrantLog}

/-- Whom a grant is for, and where, is in its key. -/
theorem applies_of_key {principal : Principal} {tag : Option JsString} {held : EnvironmentGrant}
    (same : grant.key = held.key) (applies : Applies table principal tag grant) : Applies table principal tag held := by
  simp only [EnvironmentGrant.key, GrantKey.mk.injEq] at same
  obtain ⟨kind, subject, environment⟩ := same
  unfold Applies appliesToSubject appliesToEnvironment at applies ⊢
  rwa [← kind, ← subject, ← environment]

/-! ## What one call changes -/

/-- The table has this grant in the row with this id. -/
def Lists (grants : GrantTable) (id : JsString) (grant : EnvironmentGrant) : Prop :=
  ∃ row ∈ grants, row.id = id ∧ row.grant = grant

theorem mem_loadGrants : grant ∈ loadGrants grants ↔ ∃ id, Lists grants id grant := by
  simp only [loadGrants, List.mem_map, Lists]
  constructor
  · rintro ⟨row, member, same⟩
    exact ⟨row.id, row, member, rfl, same⟩
  · rintro ⟨-, row, member, -, same⟩
    exact ⟨row, member, same⟩

theorem EnvironmentGrantRow.updateWith_same {held : EnvironmentGrantRow} (same : held.key = row.key) :
    (row.updateWith held).id = held.id ∧ (row.updateWith held).grant = row.grant := by
  rw [EnvironmentGrantRow.updateWith, if_pos same]
  simp only [EnvironmentGrantRow.key, EnvironmentGrant.key, GrantKey.mk.injEq] at same
  obtain ⟨kind, subject, tag⟩ := same
  refine ⟨rfl, ?_⟩
  change (⟨held.grant.subjectKind, held.grant.subjectKey, held.grant.environmentTag,
    row.grant.role⟩ : EnvironmentGrant) = _
  rw [kind, subject, tag]

theorem EnvironmentGrantRow.updateWith_other {held : EnvironmentGrantRow} (another : held.key ≠ row.key) :
    row.updateWith held = held := if_neg another

/-- One row has the key afterwards, and it has the grant. -/
theorem lists_upsertGrant {returned : List JsString} (accepted : upsertGrant grants row = .ok (returned, after)) :
    ∃ id, returned = [id] ∧ ∀ other grant, Lists after other grant ↔
      (other = id ∧ grant = row.grant) ∨ (Lists grants other grant ∧ grant.key ≠ row.key) := by
  unfold upsertGrant at accepted
  split at accepted
  · rename_i taken
    obtain ⟨held, member, same⟩ := KeyedTable.holds_iff.mp taken
    obtain ⟨sameId, updated⟩ := EnvironmentGrantRow.updateWith_same same
    cases accepted
    refine ⟨held.id, ?_, fun other grant => ?_⟩
    · have there : row.updateWith held ∈ grants.modify row.updateWith row.key_updateWith :=
        KeyedTable.mem_modify.mpr ⟨held, member, rfl⟩
      have one := KeyedTable.filter_key there
      rw [row.key_updateWith, same] at one
      rw [one, List.map_singleton, sameId]
    · constructor
      · rintro ⟨found, foundIn, rfl, rfl⟩
        obtain ⟨before, beforeIn, rfl⟩ := KeyedTable.mem_modify.mp foundIn
        by_cases own : before.key = row.key
        · cases KeyedTable.eq_of_key beforeIn member (own.trans same.symm)
          exact .inl ⟨sameId, updated⟩
        · rw [EnvironmentGrantRow.updateWith_other own]
          exact .inr ⟨⟨before, beforeIn, rfl, rfl⟩, own⟩
      · rintro (⟨rfl, rfl⟩ | ⟨⟨before, beforeIn, rfl, rfl⟩, own⟩)
        · exact ⟨_, KeyedTable.mem_modify.mpr ⟨held, member, rfl⟩, sameId, updated⟩
        · refine ⟨_, KeyedTable.mem_modify.mpr ⟨before, beforeIn, rfl⟩, ?_⟩
          rw [EnvironmentGrantRow.updateWith_other own]
          exact ⟨rfl, rfl⟩
  · rename_i free
    split at accepted
    · cases accepted
    · cases accepted
      refine ⟨row.id, rfl, fun other grant => ?_⟩
      simp only [Lists, KeyedTable.mem_iff, KeyedTable.rows_add, List.mem_append, List.mem_singleton]
      constructor
      · rintro ⟨found, before | rfl, rfl, rfl⟩
        · refine .inr ⟨⟨found, before, rfl, rfl⟩, fun same => free ?_⟩
          exact same ▸ KeyedTable.holds_of_mem before
        · exact .inl ⟨rfl, rfl⟩
      · rintro (⟨rfl, rfl⟩ | ⟨⟨before, beforeIn, rfl, rfl⟩, -⟩)
        · exact ⟨row, .inr rfl, rfl, rfl⟩
        · exact ⟨before, .inl beforeIn, rfl, rfl⟩

theorem GrantInput.names_iff {tag : JsString} (normal : normaliseTag table (some input.environmentTag) = some tag)
    {key : GrantKey} : input.Names table key ↔ key = (input.stored tag).key := by
  cases key
  simp only [GrantInput.Names, GrantInput.stored, EnvironmentGrant.key, normal, Option.some.injEq, GrantKey.mk.injEq]
  constructor
  · rintro ⟨kind, subject, same⟩
    exact ⟨kind.symm, subject.symm, same.symm⟩
  · rintro ⟨kind, subject, same⟩
    exact ⟨kind.symm, subject.symm, same.symm⟩

theorem eq_stored_iff {tag : JsString} :
    grant = input.stored tag ↔ grant.key = (input.stored tag).key ∧ input.role = grant.role := by
  cases grant
  simp only [GrantInput.stored, EnvironmentGrant.key, EnvironmentGrant.mk.injEq, GrantKey.mk.injEq, and_assoc]
  rw [eq_comm (a := input.role)]

/-- A save puts its grant in the place of what was there for the subject and tag. -/
theorem lists_saveGrant {users : JsString → Except GrantFailure Bool} {newId : JsString} {createdBy : Option JsString}
    (accepted : saveGrant table users newId input createdBy grants = .ok (id, after)) :
    ∃ tag, normaliseTag table (some input.environmentTag) = some tag ∧
      ∀ other grant, Lists after other grant ↔
        (other = id ∧ grant = input.stored tag) ∨ (Lists grants other grant ∧ grant.key ≠ (input.stored tag).key) := by
  unfold saveGrant at accepted
  cases user : checkUser users input with
  | error failure =>
    rw [user] at accepted
    cases accepted
  | ok _ =>
    rw [user] at accepted
    cases normal : normaliseTag table (some input.environmentTag) with
    | none =>
      rw [normal] at accepted
      cases accepted
    | some tag =>
      rw [normal] at accepted
      cases upserted : upsertGrant grants ⟨newId, input.stored tag, input.subjectLabel, createdBy⟩ with
      | error failure =>
        simp only [bind, Except.bind, upserted] at accepted
        cases accepted
      | ok result =>
        obtain ⟨returned, kept⟩ := result
        obtain ⟨own, rfl, lists⟩ := lists_upsertGrant upserted
        simp only [bind, Except.bind, upserted] at accepted
        cases accepted
        exact ⟨tag, rfl, lists⟩

theorem lists_deleteGrant : Lists (deleteGrant grants id).2 other grant ↔ Lists grants other grant ∧ other ≠ id := by
  simp only [Lists, deleteGrant, KeyedTable.mem_remove, decide_eq_false_iff_not]
  constructor
  · rintro ⟨found, ⟨member, kept⟩, rfl, rfl⟩
    exact ⟨⟨found, member, rfl, rfl⟩, kept⟩
  · rintro ⟨⟨found, member, rfl, rfl⟩, kept⟩
    exact ⟨found, ⟨member, kept⟩, rfl, rfl⟩

/-! ## What one entry of the log changes -/

theorem stands_saved : StillGranted table (.saved input id :: log) other grant ↔
    (other = id ∧ input.Names table grant.key ∧ input.role = grant.role) ∨
      (StillGranted table log other grant ∧ ¬ input.Names table grant.key) := by
  constructor
  · rintro ⟨since, save, before, same, names, role, later, kept⟩
    rcases List.cons_eq_append_iff.mp same with ⟨rfl, first⟩ | ⟨rest, rfl, rfl⟩
    · cases first
      exact .inl ⟨rfl, names, role⟩
    · refine .inr ⟨⟨rest, save, before, rfl, names, role, fun save' id' member => ?_, fun gone => ?_⟩, ?_⟩
      · exact later save' id' (List.mem_cons_of_mem _ member)
      · exact kept (List.mem_cons_of_mem _ gone)
      · exact later input id List.mem_cons_self
  · rintro (⟨rfl, names, role⟩ | ⟨⟨since, save, before, rfl, names, role, later, kept⟩, another⟩)
    · exact ⟨[], input, log, rfl, names, role, fun _ _ member => absurd member List.not_mem_nil, List.not_mem_nil⟩
    · refine ⟨.saved input id :: since, save, before, rfl, names, role, fun save' id' member => ?_, fun gone => ?_⟩
      · rcases List.mem_cons.mp member with here | there
        · cases here
          exact another
        · exact later save' id' there
      · rcases List.mem_cons.mp gone with here | there
        · cases here
        · exact kept there

/-- An entry that is not a save lets a grant stand unless it deletes the row. -/
theorem stands_other {entry : GrantLog} (notSave : ∀ save id, entry ≠ .saved save id) :
    StillGranted table (entry :: log) other grant ↔ StillGranted table log other grant ∧ entry ≠ .deleted other := by
  constructor
  · rintro ⟨since, save, before, same, names, role, later, kept⟩
    rcases List.cons_eq_append_iff.mp same with ⟨rfl, first⟩ | ⟨rest, rfl, rfl⟩
    · exact absurd (List.cons.inj first).1.symm (notSave save other)
    · refine ⟨⟨rest, save, before, rfl, names, role, fun save' id' member => ?_, fun gone => ?_⟩, ?_⟩
      · exact later save' id' (List.mem_cons_of_mem _ member)
      · exact kept (List.mem_cons_of_mem _ gone)
      · rintro rfl
        exact kept List.mem_cons_self
  · rintro ⟨⟨since, save, before, rfl, names, role, later, kept⟩, another⟩
    refine ⟨entry :: since, save, before, rfl, names, role, fun save' id' member => ?_, fun gone => ?_⟩
    · rcases List.mem_cons.mp member with here | there
      · exact absurd here.symm (notSave save' id')
      · exact later save' id' there
    · rcases List.mem_cons.mp gone with here | there
      · exact another here.symm
      · exact kept there

/-! ## Runs -/

/-- The table lists what stands by the log. -/
theorem lists_iff_stands (edits : List GrantEdit) (id : JsString) (grant : EnvironmentGrant) :
    Lists (editGrants table edits).1 id grant ↔ StillGranted table (editGrants table edits).2 id grant := by
  induction edits using List.reverseRecOn generalizing id grant with
  | nil =>
    constructor
    · rintro ⟨row, member, -⟩
      exact absurd member KeyedTable.not_mem_empty
    · rintro ⟨since, save, before, same, -⟩
      exact absurd same (by simp [editGrants])
  | append_singleton edits edit ih =>
    have last : editGrants table (edits ++ [edit]) = edit.perform table (editGrants table edits) := by
      rw [editGrants, List.foldl_append]
      rfl
    rw [last]
    cases edit with
    | delete gone =>
      change Lists (deleteGrant (editGrants table edits).1 gone).2 id grant ↔ _
      rw [lists_deleteGrant, ih, GrantEdit.perform, stands_other fun _ _ => GrantLog.noConfusion]
      refine and_congr_right fun _ => ?_
      simp [eq_comm]
    | save users newId input createdBy =>
      cases answer : saveGrant table users newId input createdBy (editGrants table edits).1 with
      | error failure =>
        rw [GrantEdit.perform, answer]
        change Lists (editGrants table edits).1 id grant ↔ _
        rw [ih, stands_other fun _ _ => GrantLog.noConfusion]
        simp
      | ok result =>
        obtain ⟨given, after⟩ := result
        obtain ⟨tag, normal, lists⟩ := lists_saveGrant answer
        rw [GrantEdit.perform, answer]
        change Lists after id grant ↔ _
        rw [lists, ih, stands_saved, GrantInput.names_iff normal, eq_stored_iff]

/-- What is listed has a tag that is stored as it is compared. -/
theorem normal_of_lists {edits : List GrantEdit} (listed : Lists (editGrants table edits).1 id grant) :
    normaliseTag table (some grant.environmentTag) = some grant.environmentTag := by
  obtain ⟨since, save, before, -, ⟨-, -, normal⟩, -⟩ := (lists_iff_stands edits id grant).mp listed
  exact normaliseTag_normaliseTag normal

end Lemmas

/-- **However tags are spelled, there is one row for each subject and tag, and it
has what the last save gave unless it was deleted since**. So the effective role
depends on these saves only, and after a save the subject has the saved role in
the environment and no other. -/
theorem corrections_take_effect (table : CaseTable) (edits : List GrantEdit) :
    (∀ row ∈ (editGrants table edits).1, ∀ other ∈ (editGrants table edits).1,
        row.grant.subjectKind = other.grant.subjectKind → row.grant.subjectKey = other.grant.subjectKey →
        normaliseTag table (some row.grant.environmentTag) = normaliseTag table (some other.grant.environmentTag) →
          row = other) ∧
      (∀ grant, grant ∈ loadGrants (editGrants table edits).1 ↔
        ∃ id, StillGranted table (editGrants table edits).2 id grant) ∧
      (∀ others : List GrantEdit,
        (∀ grant, (∃ id, StillGranted table (editGrants table edits).2 id grant) ↔
          ∃ id, StillGranted table (editGrants table others).2 id grant) →
        ∀ principal tag, effectiveRole table principal (loadGrants (editGrants table edits).1) tag =
          effectiveRole table principal (loadGrants (editGrants table others).1) tag) ∧
      ∀ users newId input createdBy id after,
        saveGrant table users newId input createdBy (editGrants table edits).1 = .ok (id, after) →
        (∀ grant, grant ∈ loadGrants after ∧ input.Names table grant.key ↔
          input.Names table grant.key ∧ grant.role = input.role) ∧
        (∀ grant, ¬ input.Names table grant.key →
          (grant ∈ loadGrants after ↔ grant ∈ loadGrants (editGrants table edits).1)) ∧
        ∀ held ∈ loadGrants (editGrants table edits).1, input.Names table held.key → input.role.rank ≤ held.role.rank →
          ∀ principal tag, (effectiveRole table principal (loadGrants after) tag).rank ≤
            (effectiveRole table principal (loadGrants (editGrants table edits).1) tag).rank := by
  have listed : ∀ edits grant, grant ∈ loadGrants (editGrants table edits).1 ↔
      ∃ id, StillGranted table (editGrants table edits).2 id grant := by
    intro edits grant
    rw [mem_loadGrants]
    exact exists_congr fun id => lists_iff_stands edits id grant
  refine ⟨fun row member other there kind subject same => ?_, listed edits, fun others same principal tag => ?_, ?_⟩
  · rw [normal_of_lists ⟨row, member, rfl, rfl⟩, normal_of_lists ⟨other, there, rfl, rfl⟩, Option.some.injEq] at same
    refine KeyedTable.eq_of_key member there ?_
    rw [EnvironmentGrantRow.key, EnvironmentGrant.key, kind, subject, same]
    rfl
  · refine effectiveRole_congr fun grant => ?_
    rw [listed, listed, same]
  · intro users newId input createdBy id after accepted
    obtain ⟨tag, normal, lists⟩ := lists_saveGrant accepted
    have loads : ∀ grant, grant ∈ loadGrants after ↔ grant = input.stored tag ∨
        (grant ∈ loadGrants (editGrants table edits).1 ∧ ¬ input.Names table grant.key) := by
      intro grant
      simp only [mem_loadGrants, lists, GrantInput.names_iff normal, exists_or, exists_and_right]
      simp
    refine ⟨fun grant => ?_, fun grant another => ?_, fun held member own lower principal environment => ?_⟩
    · rw [loads, GrantInput.names_iff normal, eq_stored_iff]
      tauto
    · rw [loads, or_iff_right, and_iff_left another]
      rintro rfl
      exact another ((GrantInput.names_iff normal).mpr rfl)
    · refine le_rank_effectiveRole.mpr ((le_rank_effectiveRole.mp le_rfl).imp_right ?_)
      rintro ⟨grant, present, applies, high⟩
      rcases (loads grant).mp present with rfl | ⟨before, -⟩
      · have sameKey : (input.stored tag).key = held.key := ((GrantInput.names_iff normal).mp own).symm
        exact ⟨held, member, applies_of_key sameKey applies, high.trans lower⟩
      · exact ⟨grant, before, applies, high⟩

example :
    let save newId tag role := GrantEdit.save (fun _ => .ok true) newId ⟨.entra_group, js "g1", none, tag, role⟩ none
    loadGrants
      (editGrants basicTable [save (js "1") (js " Production ") .admin, save (js "2") (js "PRODUCTION") .viewer]).1 =
      [⟨.entra_group, js "g1", js "production", .viewer⟩] := by decide

end RemoteSqlAgent
