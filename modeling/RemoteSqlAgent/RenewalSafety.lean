import RemoteSqlAgent.RenewalRounds

/-! Whether renewal can lock a worker out. What a renewal revokes is chosen by the session
that asked for it, and what is installed by the key that the worker holds; a request that
comes late knows of neither. -/
namespace RemoteSqlAgent
open Js

/-! ## Certificates -/

section Credentials
variable {credentials : List MtlsCredential} {ids : List JsString} {id : JsString}

theorem mem_liveIds : id ∈ liveIds credentials ↔
    ∃ credential ∈ credentials, credential.id = id ∧ credential.revoked = false := by
  simp only [liveIds, List.mem_map, List.mem_filter, Bool.not_eq_true']
  constructor
  · rintro ⟨credential, ⟨member, valid⟩, same⟩
    exact ⟨credential, member, same, valid⟩
  · rintro ⟨credential, member, same, valid⟩
    exact ⟨credential, ⟨member, valid⟩, same⟩

theorem liveIds_append (first second : List MtlsCredential) :
    liveIds (first ++ second) = liveIds first ++ liveIds second := by
  simp [liveIds]

/-- What stays valid is what was not revoked. -/
theorem liveIds_revokeAll : liveIds (revokeAll ids credentials) = (liveIds credentials).filter (· ∉ ids) := by
  induction credentials with
  | nil => rfl
  | cons credential rest ih =>
    have split : liveIds (credential :: rest) = liveIds [credential] ++ liveIds rest := liveIds_append [credential] rest
    rw [split, List.filter_append, ← ih]
    by_cases revoked : credential.id ∈ ids
    · cases gone : credential.revoked <;> simp [revokeAll, liveIds, revoked, gone]
    · cases gone : credential.revoked <;> simp [revokeAll, liveIds, revoked, gone]

theorem mem_revokeAll {credential : MtlsCredential} (member : credential ∈ revokeAll ids credentials) :
    ∃ old ∈ credentials, old.id = credential.id ∧ old.privateKeyPem = credential.privateKeyPem ∧
      (old.id ∈ ids ∨ credential.revoked = old.revoked) := by
  obtain ⟨old, there, rfl⟩ := List.mem_map.mp member
  refine ⟨old, there, ?_⟩
  split
  · exact ⟨rfl, rfl, .inl ‹_›⟩
  · exact ⟨rfl, rfl, .inr rfl⟩

theorem map_id_revokeAll : (revokeAll ids credentials).map (·.id) = credentials.map (·.id) := by
  rw [revokeAll, List.map_map]
  refine List.map_congr_left fun credential _ => ?_
  simp only [Function.comp_apply]
  split <;> rfl

end Credentials

/-! ## The renewer -/

namespace Renewer
variable {renewer : Renewer} {plan : RenewalPlan} {generated : Option JsString} {accepted : Bool}

/-- A renewer that goes on holds what it held, or nothing, or a new key that it has sent. -/
inductive Moves (renewer : Renewer) (generated : Option JsString) (accepted : Bool) :
    Renewer × Option JsString → Prop where
  | rests {later : Renewer}
      (held : later.pendingPrivateKeyPem = none ∨ later.pendingPrivateKeyPem = renewer.pendingPrivateKeyPem) :
      Moves renewer generated accepted (later, none)
  | sends {later : Renewer} {key : JsString} (held : later.pendingPrivateKeyPem = some key) (new : generated = some key)
      (sent : accepted = true) : Moves renewer generated accepted (later, some key)

@[simp] theorem scheduleRetry_pending : renewer.scheduleRetry.pendingPrivateKeyPem = renewer.pendingPrivateKeyPem := by
  unfold scheduleRetry
  split <;> rfl

theorem moves_requestRenewal : Moves renewer generated accepted (renewer.requestRenewal generated accepted) := by
  unfold requestRenewal
  split
  · exact .rests (.inr rfl)
  · cases generated with
    | none => exact .rests (.inr scheduleRetry_pending)
    | some key =>
      cases accepted with
      | true => exact .sends rfl rfl rfl
      | false => exact .rests (.inr rfl)

/-- One that has forgotten its key moves as well. -/
theorem Moves.of_forgotten {moved : Renewer × Option JsString}
    (moves : Moves renewer.clearTimers.forget generated accepted moved) :
    Moves renewer generated accepted moved := by
  cases moves with
  | rests held => exact .rests (.inl (held.elim id fun same => same))
  | sends held new sent => exact .sends held new sent

theorem moves_onSessionReady : Moves renewer generated accepted (renewer.onSessionReady plan generated accepted) := by
  unfold onSessionReady
  split
  · exact .rests (.inr rfl)
  · cases plan with
    | unusable | later => exact .rests (.inl rfl)
    | due => exact moves_requestRenewal.of_forgotten

theorem responseTimedOut_pending : renewer.responseTimedOut.pendingPrivateKeyPem = none ∨
    renewer.responseTimedOut.pendingPrivateKeyPem = renewer.pendingPrivateKeyPem := by
  simp only [responseTimedOut]
  split
  · exact .inr rfl
  · exact .inl (by rw [scheduleRetry_pending]; rfl)

end Renewer

/-! ## The system -/

theorem mem_modify {Row : Type} {rows : List Row} {index : Nat} {change : Row → Row} {row : Row}
    (member : row ∈ rows.modify index change) : row ∈ rows ∨ ∃ old, rows[index]? = some old ∧ row = change old := by
  obtain ⟨position, found⟩ := List.mem_iff_getElem?.mp member
  rw [List.getElem?_modify] at found
  obtain ⟨old, there, rfl⟩ := Option.map_eq_some_iff.mp found
  split
  · rename_i same
    exact .inr ⟨old, same ▸ there, rfl⟩
  · exact .inl (List.mem_of_getElem? there)

namespace RenewalSystem
variable {system : RenewalSystem}

/-- Of a session of the system: its replies are of certificates there are, its transaction
spares what authenticated it, and its keys were generated. -/
structure Sound (system : RenewalSystem) (row : RenewalSession) : Prop where
  replies : ∀ id key, .issued id key ∈ row.replies →
    ∃ credential ∈ system.credentials, credential.id = id ∧ credential.privateKeyPem = key
  spared : ∀ key retired, row.renewal = some (key, retired) → row.credentialId ∉ retired ∧ key ∈ system.keys
  queued : ∀ key ∈ row.queue, key ∈ system.keys

/-- The worker's certificate is valid, and so is the one that it may install next. -/
structure Safe (system : RenewalSystem) : Prop where
  installed : system.installed ∈ system.live
  pending : ∀ key, system.renewer.pendingPrivateKeyPem = some key →
    ∀ credential ∈ system.credentials, credential.privateKeyPem = key → credential.revoked = false
  sessions : ∀ row ∈ system.sessions, system.Sound row
  known : ∀ credential ∈ system.credentials, credential.privateKeyPem ∈ system.keys
  distinct : (system.credentials.map (·.id)).Nodup

theorem Safe.updateSession (safe : system.Safe) {session : Nat} {change : RenewalSession → RenewalSession}
    (sound : ∀ row, system.sessions[session]? = some row → system.Sound row → system.Sound (change row)) :
    (system.updateSession session change).Safe where
  installed := safe.installed
  pending := safe.pending
  known := safe.known
  distinct := safe.distinct
  sessions row member := by
    rcases mem_modify member with old | ⟨old, found, rfl⟩
    · obtain ⟨replies, spared, queued⟩ := safe.sessions row old
      exact ⟨replies, spared, queued⟩
    · obtain ⟨replies, spared, queued⟩ := sound old found (safe.sessions old (List.mem_of_getElem? found))
      exact ⟨replies, spared, queued⟩

/-- The renewer may forget its key. -/
theorem Safe.rests (safe : system.Safe) {renewer : Renewer}
    (held : renewer.pendingPrivateKeyPem = none ∨ renewer.pendingPrivateKeyPem = system.renewer.pendingPrivateKeyPem)
    (current : Option Nat) : ({ system with renewer := renewer, current := current } : RenewalSystem).Safe where
  installed := safe.installed
  known := safe.known
  distinct := safe.distinct
  pending key holds := by
    rcases held with none | same
    · cases none.symm.trans holds
    · exact safe.pending key (same ▸ holds)
  sessions row member := by
    obtain ⟨replies, spared, queued⟩ := safe.sessions row member
    exact ⟨replies, spared, queued⟩

/-- What is valid may be installed. -/
theorem Safe.reinstalled (safe : system.Safe) {id : JsString} (valid : id ∈ system.live) :
    ({ system with installed := id } : RenewalSystem).Safe where
  installed := valid
  pending := safe.pending
  known := safe.known
  distinct := safe.distinct
  sessions row member := by
    obtain ⟨replies, spared, queued⟩ := safe.sessions row member
    exact ⟨replies, spared, queued⟩

/-- A key that was just generated is for no certificate yet. -/
theorem Safe.after (safe : system.Safe) {generated : Option JsString} {accepted : Bool}
    {moved : Renewer × Option JsString}
    (fresh : RenewalEvent.Fresh system generated accepted)
    (moves : Renewer.Moves system.renewer generated accepted moved) :
    (system.after moved).Safe := by
  cases moves with
  | @rests later held =>
    have rested := safe.rests held system.current
    cases current : system.current with
    | none =>
      simp only [RenewalSystem.after, current, Option.toList_none, List.append_nil]
      exact current ▸ rested
    | some session =>
      simp only [RenewalSystem.after, current, Option.toList_none, List.append_nil]
      rw [current] at rested
      exact rested.updateSession fun row _ sound => sound
  | @sends later key held new sent =>
    subst new
    obtain ⟨session, current⟩ := Option.isSome_iff_exists.mp (fresh.2 sent)
    have unknown : key ∉ system.keys := fresh.1 key rfl
    have extended : ({ system with renewer := later, keys := system.keys ++ [key] } : RenewalSystem).Safe := by
      refine ⟨safe.installed, fun other holds credential member same => ?_, fun row member => ?_,
        fun credential member => List.mem_append_left _ (safe.known credential member), safe.distinct⟩
      · cases held.symm.trans holds
        exact absurd (same ▸ safe.known credential member) unknown
      · obtain ⟨replies, spared, queued⟩ := safe.sessions row member
        exact ⟨replies, fun key retired renewal => ⟨(spared key retired renewal).1,
          List.mem_append_left _ (spared key retired renewal).2⟩, fun key member =>
            List.mem_append_left _ (queued key member)⟩
    unfold RenewalSystem.after
    simp only [current, Option.toList_some]
    rw [current] at extended
    refine extended.updateSession fun row _ sound => ⟨sound.replies, sound.spared, fun other member => ?_⟩
    rcases List.mem_append.mp member with old | newest
    · exact sound.queued other old
    · cases List.mem_singleton.mp newest
      exact List.mem_append_right _ List.mem_cons_self

/-- What is installed is the certificate of the key that is held. -/
theorem Safe.hear (safe : system.Safe) {reply : RenewalReply} (outcome : InstallOutcome)
    (there : ∀ id key, reply = .issued id key →
      ∃ credential ∈ system.credentials, credential.id = id ∧ credential.privateKeyPem = key) :
    (system.hear reply outcome).Safe := by
  have answered : system.renewer.answered.scheduleRetry.pendingPrivateKeyPem = none := by
    rw [Renewer.scheduleRetry_pending]
    rfl
  have retried : ({ system with renewer := system.renewer.answered.scheduleRetry } : RenewalSystem).Safe :=
    safe.rests (.inl answered) system.current
  unfold RenewalSystem.hear
  dsimp only
  split
  · exact safe
  · split
    · exact safe.rests (.inl rfl) system.current
    · exact retried
    · rename_i privateKeyPem id certified held
      split
      · exact retried
      · rename_i same
        have same := not_not.mp same
        obtain ⟨credential, member, rfl, key⟩ := there _ _ rfl
        have valid : credential.id ∈ system.live :=
          mem_liveIds.mpr ⟨credential, member, rfl,
            safe.pending _ (present_eq_some held) credential member (key.trans same)⟩
        cases outcome with
        | untouched => exact retried
        | unfinished => exact retried.reinstalled valid
        | done =>
          have left : ({ system with
              renewer := system.renewer.answered.onDisconnect, current := none } : RenewalSystem).Safe :=
            safe.rests (.inl rfl) none
          exact left.reinstalled valid

/-- A renewal spares what its session was authenticated with, which is what is installed;
and no certificate for the key that is held was there to be revoked. -/
theorem Safe.committed (safe : system.Safe) (replies : List RenewalReply) {session : Nat} {row : RenewalSession}
    {key id : JsString} {retired : List JsString} (found : system.sessions[session]? = some row)
    (renewal : row.renewal = some (key, retired)) (mine : row.credentialId = system.installed)
    (unissued : ∀ pending, system.renewer.pendingPrivateKeyPem = some pending →
      ∀ credential ∈ system.credentials, credential.privateKeyPem ≠ pending)
    (new : id ∉ system.credentials.map (·.id)) (said : ∀ other certified, .issued other certified ∈ replies →
      other = id ∧ certified = key) :
    ({ system.updateSession session fun row => { row with renewal := none, replies := row.replies ++ replies } with
        credentials := revokeAll retired system.credentials ++ [⟨id, key, false⟩] } : RenewalSystem).Safe := by
  obtain ⟨spared, known⟩ := (safe.sessions row (List.mem_of_getElem? found)).spared key retired renewal
  have kept : ∀ credential ∈ system.credentials, ∃ later ∈ revokeAll retired system.credentials ++ [⟨id, key, false⟩],
      later.id = credential.id ∧ later.privateKeyPem = credential.privateKeyPem := by
    intro credential member
    refine ⟨_, List.mem_append_left _ (List.mem_map_of_mem member), ?_⟩
    split <;> exact ⟨rfl, rfl⟩
  have sound : ∀ row ∈ system.sessions, (∀ other certified, .issued other certified ∈ row.replies →
      ∃ credential ∈ revokeAll retired system.credentials ++ [⟨id, key, false⟩],
        credential.id = other ∧ credential.privateKeyPem = certified) := by
    intro row member other certified issued
    obtain ⟨credential, there, rfl, rfl⟩ := (safe.sessions row member).replies other certified issued
    exact kept credential there
  refine ⟨?_, fun pending holds credential member same => ?_, fun row member => ?_, fun credential member => ?_, ?_⟩
  · rw [RenewalSystem.live, liveIds_append, liveIds_revokeAll]
    refine List.mem_append_left _ (List.mem_filter.mpr ⟨safe.installed, ?_⟩)
    rw [mine] at spared
    exact decide_eq_true spared
  · rcases List.mem_append.mp member with old | newest
    · obtain ⟨before, there, -, sameKey, -⟩ := mem_revokeAll old
      exact absurd (sameKey.trans same) (unissued pending holds before there)
    · cases List.mem_singleton.mp newest
      rfl
  · rcases mem_modify member with old | ⟨old, there, rfl⟩
    · obtain ⟨_, spared, queued⟩ := safe.sessions row old
      exact ⟨sound row old, spared, queued⟩
    · have inside := List.mem_of_getElem? there
      obtain ⟨_, spared, queued⟩ := safe.sessions old inside
      refine ⟨fun other certified issued => ?_, nofun, queued⟩
      rcases List.mem_append.mp issued with before | newest
      · exact sound old inside other certified before
      · obtain ⟨rfl, rfl⟩ := said other certified newest
        exact ⟨_, List.mem_append_right _ List.mem_cons_self, rfl, rfl⟩
  · rcases List.mem_append.mp member with old | newest
    · obtain ⟨before, there, -, same, -⟩ := mem_revokeAll old
      exact same ▸ safe.known before there
    · cases List.mem_singleton.mp newest
      exact known
  · rw [List.map_append, map_id_revokeAll]
    refine List.nodup_append.mpr ⟨safe.distinct, List.nodup_singleton _, ?_⟩
    intro other member newest there same
    have stored : other = id := same.trans (List.mem_singleton.mp there)
    exact new (stored ▸ member)

end RenewalSystem

namespace RenewalStep

/-- A renewal is stored for the certificate that is on the worker's disk, before there is
one for the key that the worker holds, and with no other renewal stored since it chose
what to revoke. -/
def Timely (step : RenewalStep) : Prop :=
  ∀ session id audited, step.event = .commit session id audited → ∀ row key retired,
    step.before.sessions[session]? = some row → row.renewal = some (key, retired) →
      row.credentialId = step.before.installed ∧
      (∀ pending, step.before.renewer.pendingPrivateKeyPem = some pending →
        ∀ credential ∈ step.before.credentials, credential.privateKeyPem ≠ pending) ∧
      retired = step.before.live.filter (· ≠ row.credentialId)

end RenewalStep

section Runs
variable {initial system : RenewalSystem} {run : List RenewalStep}

theorem Enrolled.safe (enrolled : Enrolled initial) : initial.Safe where
  installed := enrolled.installed
  pending key holds := by
    rw [enrolled.pending] at holds
    cases holds
  sessions row member := by
    rw [enrolled.sessions] at member
    cases member
  known := enrolled.keys
  distinct := enrolled.distinct

theorem RenewalSystem.Safe.on (safe : system.Safe) {event : RenewalEvent} (enabled : event.Enabled system)
    (timely : (⟨system, event, system.on event⟩ : RenewalStep).Timely) : (system.on event).Safe := by
  cases event with
  | connect =>
    refine ⟨safe.installed, safe.pending, fun row member => ?_, safe.known, safe.distinct⟩
    rcases List.mem_append.mp member with old | new
    · obtain ⟨replies, spared, queued⟩ := safe.sessions row old
      exact ⟨replies, spared, queued⟩
    · cases List.mem_singleton.mp new
      exact ⟨nofun, nofun, nofun⟩
  | ready plan generated accepted => exact safe.after enabled.2 Renewer.moves_onSessionReady
  | disconnect => exact safe.rests (.inl rfl) none
  | timerFired generated accepted => exact safe.after enabled.2 Renewer.moves_requestRenewal
  | responseTimedOut => exact safe.rests Renewer.responseTimedOut_pending system.current
  | begin session =>
    refine safe.updateSession fun row found sound =>
      ⟨sound.replies, fun key retired renewal => ?_, fun key member => ?_⟩
    · obtain ⟨first, next, same⟩ := Option.map_eq_some_iff.mp renewal
      cases same
      exact ⟨by simp, sound.queued _ (List.mem_of_head? next)⟩
    · exact sound.queued key (List.mem_of_mem_tail member)
  | commit session id audited =>
    obtain ⟨⟨row, found, some⟩, new⟩ := enabled
    obtain ⟨⟨key, retired⟩, renewal⟩ := Option.isSome_iff_exists.mp some
    obtain ⟨mine, unissued, -⟩ := timely session id audited rfl row key retired found renewal
    have committed := safe.committed [if audited then .issued id key else .refused] found renewal mine unissued new ?_
    · simp only [RenewalSystem.on, found, Option.bind_some, renewal]
      exact committed
    · intro other certified said
      cases audited with
      | true =>
        cases List.mem_singleton.mp said
        exact ⟨rfl, rfl⟩
      | false => cases List.mem_singleton.mp said
  | abort session =>
    refine safe.updateSession fun row found sound => ⟨fun id key said => ?_, nofun, sound.queued⟩
    rcases List.mem_append.mp said with old | new
    · exact sound.replies id key old
    · cases List.mem_singleton.mp new
  | refuse session =>
    refine safe.updateSession fun row found sound => ⟨fun id key said => ?_, sound.spared, fun key member =>
      sound.queued key (List.mem_of_mem_tail member)⟩
    rcases List.mem_append.mp said with old | new
    · exact sound.replies id key old
    · cases List.mem_singleton.mp new
  | receive outcome =>
    obtain ⟨session, row, current, found, some⟩ := enabled
    obtain ⟨reply, rest, replies⟩ := List.exists_cons_of_ne_nil some
    simp only [RenewalSystem.on, current, Option.bind_some, found, replies, List.head?_cons]
    have sound := safe.sessions row (List.mem_of_getElem? found)
    have read : (system.updateSession session fun row => { row with replies := row.replies.tail }).Safe :=
      safe.updateSession fun row _ sound =>
        ⟨fun id key said => sound.replies id key (List.mem_of_mem_tail said), sound.spared, sound.queued⟩
    refine read.hear outcome fun id key same => ?_
    · subst same
      exact sound.replies id key (by rw [replies]; exact List.mem_cons_self)
  | stop => exact safe.rests (.inl rfl) system.current

theorem Renews.safe (renews : Renews initial system run) (enrolled : Enrolled initial)
    (timely : ∀ step ∈ run, step.Timely) : system.Safe ∧ ∀ step ∈ run, step.before.Safe := by
  induction renews with
  | start => exact ⟨enrolled.safe, by simp⟩
  | event renews event enabled ih =>
    obtain ⟨here, past⟩ := ih fun step member => timely step (List.mem_append_left _ member)
    refine ⟨here.on enabled (timely _ (List.mem_append_right _ List.mem_cons_self)), fun step member => ?_⟩
    rcases List.mem_append.mp member with old | new
    · exact past step old
    · cases List.mem_singleton.mp new
      exact here

theorem Renews.of_mem (renews : Renews initial system run) {step : RenewalStep} (member : step ∈ run) :
    step.event.Enabled step.before ∧ step.after = step.before.on step.event := by
  induction renews with
  | start => cases member
  | event renews event enabled ih =>
    rcases List.mem_append.mp member with old | new
    · exact ih old
    · cases List.mem_singleton.mp new
      exact ⟨enabled, rfl⟩

/-- **Renewal locks no worker out, as long as every renewal is stored in time.** The
certificate on the worker's disk is never revoked; and after a renewal at most two are
valid: the new one, and the one that authenticated the session. -/
theorem installed_never_revoked (enrolled : Enrolled initial) (renews : Renews initial system run)
    (timely : ∀ step ∈ run, step.Timely) :
    system.installed ∈ system.live ∧ (∀ step ∈ run, step.before.installed ∈ step.before.live) ∧
    ∀ step ∈ run, ∀ session id audited, step.event = .commit session id audited →
      step.after.live.length ≤ 2 ∧ ∀ row, step.before.sessions[session]? = some row →
        ∀ valid ∈ step.after.live, valid = id ∨ valid = row.credentialId := by
  obtain ⟨last, past⟩ := renews.safe enrolled timely
  refine ⟨last.installed, fun step member => (past step member).installed, ?_⟩
  intro step member session id audited isCommit
  obtain ⟨enabled, happened⟩ := renews.of_mem member
  rw [isCommit] at enabled happened
  obtain ⟨⟨row, found, some⟩, new⟩ := enabled
  obtain ⟨⟨key, retired⟩, renewal⟩ := Option.isSome_iff_exists.mp some
  obtain ⟨-, -, chosen⟩ := timely step member session id audited isCommit row key retired found renewal
  have live : step.after.live = step.before.live.filter (· = row.credentialId) ++ [id] := by
    rw [happened]
    simp only [RenewalSystem.on, found, Option.bind_some, renewal, RenewalSystem.live]
    rw [liveIds_append, liveIds_revokeAll, chosen]
    congr 1
    refine List.filter_congr fun other there => ?_
    simp [RenewalSystem.live, there]
  have distinct : (step.before.live).Nodup :=
    ((past step member).distinct).sublist (List.filter_sublist.map _)
  constructor
  · have once : (step.before.live.filter (· = row.credentialId)).length ≤ 1 := by
      have count := List.nodup_iff_count_le_one.mp distinct row.credentialId
      simpa only [List.count_eq_length_filter, beq_eq_decide] using count
    rw [live, List.length_append, List.length_singleton]
    omega
  · intro other there valid inside
    cases found.symm.trans there
    rw [live] at inside
    rcases List.mem_append.mp inside with old | newest
    · exact .inr (of_decide_eq_true (List.mem_filter.mp old).2)
    · exact .inl (List.mem_singleton.mp newest)

end Runs

/-! ## Samples -/

section Samples

/-- The check of `Enabled`. -/
def checksEnabled (system : RenewalSystem) : RenewalEvent → Bool
  | .connect => system.current = none && system.installed ∈ system.live
  | .ready _ generated accepted => system.current.isSome && checksFresh generated accepted
  | .disconnect => system.current.isSome
  | .timerFired generated accepted => system.renewer.timer && checksFresh generated accepted
  | .responseTimedOut => system.renewer.responseTimer
  | .begin session | .refuse session =>
    (system.sessions[session]?).any fun row => !row.queue.isEmpty && row.renewal.isNone
  | .commit session id _ => (system.sessions[session]?).any (·.renewal.isSome) && id ∉ system.credentials.map (·.id)
  | .abort session => (system.sessions[session]?).any (·.renewal.isSome)
  | .receive _ => system.current.any fun session => (system.sessions[session]?).any fun row => !row.replies.isEmpty
  | .stop => true
where
  checksFresh (generated : Option JsString) (accepted : Bool) : Bool :=
    generated.all (· ∉ system.keys) && (!accepted || system.current.isSome)

theorem fresh_of_checks {system : RenewalSystem} {generated : Option JsString} {accepted : Bool}
    (checks : checksEnabled.checksFresh system generated accepted = true) :
    RenewalEvent.Fresh system generated accepted := by
  simp only [checksEnabled.checksFresh, Bool.and_eq_true, Option.all_eq_true, Bool.or_eq_true, Bool.not_eq_true',
    decide_eq_true_eq] at checks
  refine ⟨fun key member => checks.1 key member, fun sent => checks.2.resolve_left ?_⟩
  rw [sent]
  nofun

theorem enabled_of_checks {system : RenewalSystem} {event : RenewalEvent} (checks : checksEnabled system event = true) :
    event.Enabled system := by
  cases event with
  | connect =>
    simp only [checksEnabled, Bool.and_eq_true, decide_eq_true_eq] at checks
    exact checks
  | ready plan generated accepted =>
    obtain ⟨there, fresh⟩ := Bool.and_eq_true_iff.mp checks
    exact ⟨there, fresh_of_checks fresh⟩
  | timerFired generated accepted =>
    obtain ⟨due, fresh⟩ := Bool.and_eq_true_iff.mp checks
    exact ⟨due, fresh_of_checks fresh⟩
  | disconnect | responseTimedOut => exact checks
  | begin session | refuse session =>
    obtain ⟨row, found, row_checks⟩ := (Option.any_eq_true _ _).mp checks
    simp only [Bool.and_eq_true, Bool.not_eq_true', List.isEmpty_eq_false_iff, Option.isNone_iff_eq_none] at row_checks
    exact ⟨row, found, row_checks⟩
  | commit session id audited =>
    obtain ⟨working, new⟩ := Bool.and_eq_true_iff.mp checks
    obtain ⟨row, found, some⟩ := (Option.any_eq_true _ _).mp working
    exact ⟨⟨row, found, some⟩, of_decide_eq_true new⟩
  | abort session =>
    obtain ⟨row, found, some⟩ := (Option.any_eq_true _ _).mp checks
    exact ⟨row, found, some⟩
  | receive outcome =>
    obtain ⟨session, current, inner⟩ := (Option.any_eq_true _ _).mp checks
    obtain ⟨row, found, some⟩ := (Option.any_eq_true _ _).mp inner
    refine ⟨session, row, current, found, ?_⟩
    simpa using some
  | stop => trivial

/-- What events come to. One that cannot happen is left out. -/
def renewals (initial : RenewalSystem) (events : List RenewalEvent) : RenewalSystem × List RenewalStep :=
  events.foldl (fun (system, run) event =>
    if checksEnabled system event then (system.on event, run ++ [⟨system, event, system.on event⟩]) else (system, run))
    (initial, [])

theorem renews_renewals (initial : RenewalSystem) (events : List RenewalEvent) :
    Renews initial (renewals initial events).1 (renewals initial events).2 := by
  refine List.foldlRecOn (motive := fun renewed : RenewalSystem × List RenewalStep =>
    Renews initial renewed.1 renewed.2)
    events _ .start fun renewed renews event _ => ?_
  dsimp only
  split
  · exact .event renews event (enabled_of_checks ‹_›)
  · exact renews

/-- A worker that was enrolled with one certificate. -/
def enrolledSystem : RenewalSystem where
  credentials := [⟨js "a", js "key a", false⟩]
  sessions := []
  current := none
  renewer := { enabled := true, timer := false, responseTimer := false, pendingPrivateKeyPem := none, stopped := false }
  installed := js "a"
  keys := [js "key a"]

theorem enrolled_enrolledSystem : Enrolled enrolledSystem where
  sessions := rfl
  current := rfl
  pending := rfl
  installed := by decide
  distinct := by decide
  keys := by decide

/-- The check of `Timely`. -/
def checksTimely (step : RenewalStep) : Bool :=
  match step.event with
  | .commit session _ _ => (step.before.sessions[session]?).all fun row => row.renewal.all fun (_, retired) =>
    row.credentialId = step.before.installed &&
      (step.before.renewer.pendingPrivateKeyPem.all fun pending =>
        step.before.credentials.all fun credential => credential.privateKeyPem ≠ pending) &&
      retired = step.before.live.filter (· ≠ row.credentialId)
  | _ => true

theorem timely_of_checks {step : RenewalStep} (checks : checksTimely step = true) : step.Timely := by
  intro session id audited isCommit row key retired found renewal
  simp only [checksTimely, isCommit, found, Option.all_some, renewal, Bool.and_eq_true, decide_eq_true_eq] at checks
  refine ⟨checks.1.1, fun pending holds credential member => ?_, checks.2⟩
  have each := checks.1.2
  rw [holds, Option.all_some] at each
  exact of_decide_eq_true (List.all_eq_true.mp each credential member)

def promptEvents : List RenewalEvent :=
  [.connect, .ready .due (some (js "key b")) true, .begin 0, .commit 0 (js "b") true, .receive .done, .connect]

theorem installed_never_revoked_prompt : (renewals enrolledSystem promptEvents).1.installed = js "b" ∧
    (renewals enrolledSystem promptEvents).1.installed ∈ (renewals enrolledSystem promptEvents).1.live := by
  have checks : (renewals enrolledSystem promptEvents).2.all checksTimely = true := by decide +kernel
  exact ⟨by decide +kernel, (installed_never_revoked enrolled_enrolledSystem (renews_renewals _ promptEvents)
    fun step member => timely_of_checks (List.all_eq_true.mp checks step member)).1⟩

/-- Two requests, on the session that the worker left and on the next one. -/
def twoRequests : List RenewalEvent :=
  [.connect, .ready .due (some (js "key b")) true, .disconnect, .connect, .ready .due (some (js "key c")) true]

/-- The request on the session that the worker left is processed last: the certificate on
its disk is revoked. If the two are processed at once, three certificates stay valid. -/
theorem installed_revoked_late : Enrolled enrolledSystem ∧
    (∃ system run, Renews enrolledSystem system run ∧ system.installed = js "c" ∧ system.installed ∉ system.live) ∧
    ∃ system run, Renews enrolledSystem system run ∧ system.live = [js "a", js "b", js "c"] :=
  ⟨enrolled_enrolledSystem,
    ⟨_, _, renews_renewals _
      (twoRequests ++ [.begin 1, .commit 1 (js "c") true, .receive .done, .begin 0, .commit 0 (js "b") true]),
      by decide +kernel, by decide +kernel⟩,
    _, _, renews_renewals _ (twoRequests ++ [.begin 0, .begin 1, .commit 0 (js "b") true, .commit 1 (js "c") true]),
    by decide +kernel⟩

end Samples

end RemoteSqlAgent
