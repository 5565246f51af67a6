import RemoteSqlAgent.LinkRuns

/-! The column that says since when a worker is connected. A hello sets it before it
registers the session, and a teardown clears it after it has unregistered one, also if
it has unregistered none; nothing else writes it. -/
namespace RemoteSqlAgent
open Js CallProgram

namespace LinkStore

/-- A session of the process that runs is at a stage. -/
def Stands (store : LinkStore) (number : Nat) (workerId : JsString) (stage : SessionStage) : Prop :=
  store.standing number = some (workerId, store.process, stage)

/-- The flag of a worker is another session's matter: one is live, or between its hello
and its registration, or in its teardown. -/
def Shared (store : LinkStore) (number : Nat) (workerId : JsString) : Prop :=
  (store.registry workerId).isSome ∨ ∃ other stage, other ≠ number ∧ stage ≠ .settled ∧
    store.Stands other workerId stage

/-- A step keeps the flag. A teardown finds no other session of the worker live or about
to be; what a session leaves without clearing the flag, or sets in a hello that goes no
further, is another's matter; and there is no flag when the process ends. -/
def KeepsFlag (before : LinkStore) : Exchange LinkAnswer → Prop
  | ⟨.hub number (.recordWorkerHello workerId _ maxCapability _), .ok _⟩ =>
    maxCapability ∈ OBJECT_PROTOTYPE → before.Shared number workerId
  | ⟨.hub _ (.markWorkerDisconnected workerId), .ok _⟩ =>
    before.registry workerId = none ∧ ∀ number, ¬ before.Stands number workerId .greeting
  | ⟨.hub number (.markWorkerDisconnected workerId), .error _⟩ =>
    before.connectedAt workerId = none ∨ before.Shared number workerId
  | ⟨.hub number (.upsertInstance _ _), .error _⟩ | ⟨.hub number (.insertSyncState _), .error _⟩ =>
    ∀ workerId, before.Stands number workerId .greeting → before.Shared number workerId
  | ⟨.restart, _⟩ => ∀ workerId, before.connectedAt workerId = none
  | _ => True

/-- The flag is set for whoever is live or has said hello, and who has it set is live or
has said hello or is being torn down. -/
structure Flagged (store : LinkStore) : Prop where
  accounted : ∀ workerId, (store.connectedAt workerId).isSome → (store.registry workerId).isSome ∨
    ∃ number stage, stage ≠ .settled ∧ store.Stands number workerId stage
  told : ∀ workerId, (store.registry workerId).isSome ∨ (∃ number, store.Stands number workerId .greeting) →
    (store.connectedAt workerId).isSome

end LinkStore

section Steps
variable {runtime : Runtime} {store after : LinkStore}

/-- What a step that changes the stage of one session leaves of the others. -/
structure Restaged (store after : LinkStore) (number : Nat) (workerId : JsString)
    (stage next : SessionStage) : Prop where
  stands : store.Stands number workerId stage
  process : after.process = store.process
  standing : after.standing = Function.update store.standing number (some (workerId, store.process, next))

namespace Restaged
variable {number : Nat} {workerId : JsString} {stage next : SessionStage}

theorem self (restaged : Restaged store after number workerId stage next) : after.Stands number workerId next := by
  unfold LinkStore.Stands
  rw [restaged.standing, Function.update_self, restaged.process]

theorem elsewhere (restaged : Restaged store after number workerId stage next) {other : Nat}
    (different : other ≠ number)
    {owner : JsString} {place : SessionStage} : after.Stands other owner place ↔ store.Stands other owner place := by
  unfold LinkStore.Stands
  rw [restaged.standing, Function.update_of_ne different, restaged.process]

theorem here (restaged : Restaged store after number workerId stage next) {owner : JsString} {place : SessionStage}
    (stands : after.Stands number owner place) : owner = workerId ∧ place = next := by
  have same := stands.symm.trans restaged.self
  rw [Option.some.injEq, Prod.mk.injEq, Prod.mk.injEq] at same
  exact ⟨same.1, same.2.2⟩

theorem was (restaged : Restaged store after number workerId stage next) {owner : JsString} {place : SessionStage}
    (stands : store.Stands number owner place) : owner = workerId ∧ place = stage := by
  have same := stands.symm.trans restaged.stands
  rw [Option.some.injEq, Prod.mk.injEq, Prod.mk.injEq] at same
  exact ⟨same.1, same.2.2⟩

/-- A hello was recorded. -/
theorem flagged_record (restaged : Restaged store after number workerId stage .greeting) (flagged : store.Flagged)
    (now : Int) (connectedAt : after.connectedAt = Function.update store.connectedAt workerId (some now))
    (registry : after.registry = store.registry) : after.Flagged := by
  constructor
  · intro owner isSome
    rcases eq_or_ne owner workerId with rfl | different
    · exact .inr ⟨number, .greeting, by decide, restaged.self⟩
    · rw [connectedAt, Function.update_of_ne different] at isSome
      rw [registry]
      refine (flagged.accounted owner isSome).imp_right fun ⟨other, place, unsettled, stands⟩ => ?_
      refine ⟨other, place, unsettled, (restaged.elsewhere ?_).mpr stands⟩
      rintro rfl
      exact different (restaged.was stands).1
  · rintro owner known
    rw [connectedAt]
    rcases eq_or_ne owner workerId with rfl | different
    · rw [Function.update_self]
      rfl
    · rw [Function.update_of_ne different]
      refine flagged.told owner (known.imp (fun live => registry ▸ live) fun ⟨other, stands⟩ => ?_)
      refine ⟨other, (restaged.elsewhere ?_).mp stands⟩
      rintro rfl
      exact different (restaged.here stands).1

/-- A hello was recorded that goes no further, and the flag is another's. -/
theorem flagged_unread (restaged : Restaged store after number workerId stage stage) (flagged : store.Flagged)
    (now : Int) (connectedAt : after.connectedAt = Function.update store.connectedAt workerId (some now))
    (registry : after.registry = store.registry) (shared : store.Shared number workerId) : after.Flagged := by
  have kept : ∀ other owner place, store.Stands other owner place → after.Stands other owner place := by
    intro other owner place stands
    by_cases itself : other = number
    · subst itself
      obtain ⟨rfl, rfl⟩ := restaged.was stands
      exact restaged.self
    · exact (restaged.elsewhere itself).mpr stands
  constructor
  · intro owner isSome
    rw [registry]
    rcases eq_or_ne owner workerId with rfl | different
    · exact shared.imp_right fun ⟨other, place, _, unsettled, stands⟩ => ⟨other, place, unsettled, kept _ _ _ stands⟩
    · rw [connectedAt, Function.update_of_ne different] at isSome
      exact (flagged.accounted owner isSome).imp_right fun ⟨other, place, unsettled, stands⟩ =>
        ⟨other, place, unsettled, kept _ _ _ stands⟩
  · rintro owner known
    rw [connectedAt]
    rcases eq_or_ne owner workerId with rfl | different
    · rw [Function.update_self]
      rfl
    · rw [Function.update_of_ne different]
      refine flagged.told owner (known.imp (fun live => registry ▸ live) fun ⟨other, stands⟩ => ?_)
      refine ⟨other, (restaged.elsewhere ?_).mp stands⟩
      rintro rfl
      exact different (restaged.here stands).1

/-- A session settles and leaves the flag as it is. -/
theorem flagged_settle (restaged : Restaged store after number workerId stage .settled) (flagged : store.Flagged)
    (connectedAt : after.connectedAt = store.connectedAt) (registry : after.registry = store.registry)
    (left : stage = .settled ∨ store.connectedAt workerId = none ∨ store.Shared number workerId) : after.Flagged := by
  constructor
  · intro owner isSome
    rw [connectedAt] at isSome
    rw [registry]
    have apart : ∀ other place, other ≠ number → place ≠ .settled → store.Stands other owner place →
        (store.registry owner).isSome ∨ ∃ other place, place ≠ .settled ∧ after.Stands other owner place :=
      fun other place different unsettled stands =>
        .inr ⟨other, place, unsettled, (restaged.elsewhere different).mpr stands⟩
    rcases flagged.accounted owner isSome with live | ⟨other, place, unsettled, stands⟩
    · exact .inl live
    · by_cases itself : other = number
      · subst itself
        obtain ⟨rfl, rfl⟩ := restaged.was stands
        rcases left with settled | cleared | live | ⟨third, its, different, busy, elsewhere⟩
        · exact absurd settled unsettled
        · rw [cleared] at isSome
          cases isSome
        · exact .inl live
        · exact apart third its different busy elsewhere
      · exact apart other place itself unsettled stands
  · rintro owner known
    rw [connectedAt]
    refine flagged.told owner (known.imp (fun live => registry ▸ live) fun ⟨other, stands⟩ => ?_)
    refine ⟨other, (restaged.elsewhere ?_).mp stands⟩
    rintro rfl
    cases (restaged.here stands).2

/-- A session that said hello is registered. -/
theorem flagged_register (restaged : Restaged store after number workerId .greeting .settled) (flagged : store.Flagged)
    (connectedAt : after.connectedAt = store.connectedAt)
    (registry : after.registry = Function.update store.registry workerId (some number)) : after.Flagged := by
  constructor
  · intro owner isSome
    rw [registry]
    rcases eq_or_ne owner workerId with rfl | different
    · left
      rw [Function.update_self]
      rfl
    · rw [Function.update_of_ne different]
      rw [connectedAt] at isSome
      refine (flagged.accounted owner isSome).imp_right fun ⟨other, place, unsettled, stands⟩ => ?_
      refine ⟨other, place, unsettled, (restaged.elsewhere ?_).mpr stands⟩
      rintro rfl
      exact different (restaged.was stands).1
  · rintro owner known
    rw [connectedAt]
    rcases eq_or_ne owner workerId with rfl | different
    · exact flagged.told owner (.inr ⟨number, restaged.stands⟩)
    · rw [registry, Function.update_of_ne different] at known
      refine flagged.told owner (known.imp_right fun ⟨other, stands⟩ => ⟨other, (restaged.elsewhere ?_).mp stands⟩)
      rintro rfl
      cases (restaged.here stands).2

/-- A teardown begins, of the live session or of one that was superseded. -/
theorem flagged_unregister (restaged : Restaged store after number workerId .settled .leaving) (flagged : store.Flagged)
    (connectedAt : after.connectedAt = store.connectedAt)
    (registry : ∀ owner, after.registry owner = store.registry owner ∨ owner = workerId ∧ after.registry owner = none) :
    after.Flagged := by
  constructor
  · intro owner isSome
    rcases eq_or_ne owner workerId with rfl | different
    · exact .inr ⟨number, .leaving, by decide, restaged.self⟩
    · rw [connectedAt] at isSome
      rw [(registry owner).resolve_right fun ⟨same, _⟩ => different same]
      refine (flagged.accounted owner isSome).imp_right fun ⟨other, place, unsettled, stands⟩ => ?_
      refine ⟨other, place, unsettled, (restaged.elsewhere ?_).mpr stands⟩
      rintro rfl
      exact different (restaged.was stands).1
  · rintro owner known
    rw [connectedAt]
    refine flagged.told owner (known.imp (fun live => ?_) fun ⟨other, stands⟩ =>
      ⟨other, (restaged.elsewhere ?_).mp stands⟩)
    · rcases registry owner with same | ⟨-, gone⟩
      · exact same ▸ live
      · rw [gone] at live
        cases live
    · rintro rfl
      cases (restaged.here stands).2

/-- The flag is cleared, when nobody else of the worker is live or about to be. -/
theorem flagged_clear (restaged : Restaged store after number workerId .leaving .settled) (flagged : store.Flagged)
    (connectedAt : after.connectedAt = Function.update store.connectedAt workerId none)
    (registry : after.registry = store.registry) (offline : store.registry workerId = none)
    (noGreeting : ∀ other, ¬ store.Stands other workerId .greeting) : after.Flagged := by
  have back :
      ∀ owner other place, place ≠ .settled → after.Stands other owner place → store.Stands other owner place := by
    intro owner other place unsettled stands
    refine (restaged.elsewhere ?_).mp stands
    rintro rfl
    exact unsettled (restaged.here stands).2
  constructor
  · intro owner isSome
    rw [connectedAt] at isSome
    rcases eq_or_ne owner workerId with rfl | different
    · rw [Function.update_self] at isSome
      cases isSome
    · rw [Function.update_of_ne different] at isSome
      rw [registry]
      refine (flagged.accounted owner isSome).imp_right fun ⟨other, place, unsettled, stands⟩ => ?_
      refine ⟨other, place, unsettled, (restaged.elsewhere ?_).mpr stands⟩
      rintro rfl
      exact different (restaged.was stands).1
  · rintro owner known
    rcases eq_or_ne owner workerId with rfl | different
    · rcases known with live | ⟨other, stands⟩
      · rw [registry, offline] at live
        cases live
      · exact absurd (back owner other .greeting (by decide) stands) (noGreeting other)
    · rw [connectedAt, Function.update_of_ne different]
      exact flagged.told owner (known.imp (fun live => registry ▸ live) fun ⟨other, stands⟩ =>
        ⟨other, back owner other .greeting (by decide) stands⟩)

end Restaged

/-- A step that changes none of it. -/
theorem LinkStore.Flagged.same (flagged : store.Flagged) (connectedAt : after.connectedAt = store.connectedAt)
    (registry : after.registry = store.registry)
    (stands : ∀ number workerId stage, stage ≠ .settled →
      (after.Stands number workerId stage ↔ store.Stands number workerId stage)) :
    after.Flagged := by
  constructor
  · intro owner isSome
    rw [connectedAt] at isSome
    rw [registry]
    exact (flagged.accounted owner isSome).imp_right fun ⟨number, stage, unsettled, there⟩ =>
      ⟨number, stage, unsettled, (stands number owner stage unsettled).mpr there⟩
  · rintro owner known
    rw [connectedAt]
    exact flagged.told owner (known.imp (fun live => registry ▸ live) fun ⟨number, there⟩ =>
      ⟨number, (stands number owner .greeting (by decide)).mp there⟩)

/-- A statement of a session moves the session to the next stage. -/
theorem restaged_of_does {number : Nat} {statement : HubCall} {answer : HubAnswer statement} {workerId : JsString}
    {stage : SessionStage} (does : (LinkCall.hub number statement).Does runtime store answer after)
    (stands : store.Stands number workerId stage) :
    Restaged store after number workerId stage (stage.next ⟨statement, answer⟩) where
  stands := stands
  process := by
    obtain ⟨-, hub, now, -, -, rfl⟩ := does
    exact LinkStore.process_link number now _
  standing := by
    rw [does.standing_hub, stands, Option.map_some]

/-- Besides hellos and teardowns, statements leave the flag and the registry. -/
theorem LinkStore.link_quiet (number : Nat) (now : Int) (statement : HubCall) (answer : HubAnswer statement)
    (notHello : ∀ workerId version reported address, statement ≠ .recordWorkerHello workerId version reported address)
    (notRegister : ∀ workerId, statement ≠ .register workerId)
    (notUnregister : ∀ workerId, statement ≠ .unregister workerId)
    (notMark : ∀ workerId, statement ≠ .markWorkerDisconnected workerId) :
    (store.link number now ⟨statement, answer⟩).connectedAt = store.connectedAt ∧
      (store.link number now ⟨statement, answer⟩).registry = store.registry := by
  unfold LinkStore.link
  split
  · rename_i same
    exact absurd (congrArg Sigma.fst same) (notHello _ _ _ _)
  · rename_i same
    exact absurd (congrArg Sigma.fst same) (notRegister _)
  · rename_i same
    exact absurd (congrArg Sigma.fst same) (notUnregister _)
  · rename_i same
    exact absurd (congrArg Sigma.fst same) (notMark _)
  · unfold LinkStore.write
    split
    · exact ⟨rfl, rfl⟩
    · split <;> exact ⟨rfl, rfl⟩
  · exact ⟨rfl, rfl⟩

theorem flagged_hub {number : Nat} {statement : HubCall} {answer : HubAnswer statement} {workerId : JsString}
    {stage : SessionStage} (flagged : store.Flagged)
    (does : (LinkCall.hub number statement).Does runtime store answer after)
    (stands : store.Stands number workerId stage)
    (fits : statement.Fits workerId stage) (keeps : store.KeepsFlag ⟨.hub number statement, answer⟩) :
    after.Flagged := by
  have restaged := restaged_of_does does stands
  have leaves : ∀ {after : LinkStore} {place : SessionStage}, Restaged store after number workerId stage place →
      after.connectedAt = store.connectedAt → after.registry = store.registry → stage = place → after.Flagged := by
    intro after place restaged connectedAt registry stays
    subst stays
    refine flagged.same connectedAt registry fun other owner place _ => ?_
    by_cases itself : other = number
    · subst itself
      constructor
      · intro there
        obtain ⟨rfl, rfl⟩ := restaged.here there
        exact stands
      · intro there
        obtain ⟨rfl, rfl⟩ := restaged.was there
        exact restaged.self
    · exact restaged.elsewhere itself
  obtain ⟨-, hub, now, -, -, rfl⟩ := does
  cases statement with
  | recordWorkerHello owner version reported address =>
    cases fits
    cases answer with
    | error text => exact leaves restaged rfl rfl rfl
    | ok row =>
      by_cases inherited : reported ∈ OBJECT_PROTOTYPE
      · have same : stage.next ⟨.recordWorkerHello workerId version reported address, .ok row⟩ = stage :=
          if_pos inherited
        rw [same] at restaged
        exact restaged.flagged_unread flagged now rfl rfl (keeps inherited)
      · have greeting : stage.next ⟨.recordWorkerHello workerId version reported address, .ok row⟩ = .greeting :=
          if_neg inherited
        rw [greeting] at restaged
        exact restaged.flagged_record flagged now rfl rfl
  | upsertInstance owner name =>
    cases answer with
    | ok id => exact leaves restaged rfl rfl rfl
    | error text =>
      refine restaged.flagged_settle flagged rfl rfl ?_
      cases stage with
      | settled => exact .inl rfl
      | greeting => exact .inr (.inr (keeps workerId stands))
      | leaving => exact absurd rfl fits.2
  | insertSyncState id =>
    cases answer with
    | ok _ => exact leaves restaged rfl rfl rfl
    | error text =>
      refine restaged.flagged_settle flagged rfl rfl ?_
      cases stage with
      | settled => exact .inl rfl
      | greeting => exact .inr (.inr (keeps workerId stands))
      | leaving => exact absurd rfl fits
  | register owner =>
    obtain ⟨rfl, rfl⟩ := fits
    refine restaged.flagged_register flagged ?_ ?_
    · change (store.disconnect owner).connectedAt = _
      unfold LinkStore.disconnect
      split <;> rfl
    · change Function.update (store.disconnect owner).registry owner (some number) = _
      unfold LinkStore.disconnect
      split <;> rfl
  | unregister owner =>
    obtain ⟨rfl, rfl⟩ := fits
    refine restaged.flagged_unregister flagged ?_ fun other => ?_
    · change (if store.registry owner = some number then _ else store).connectedAt = _
      split <;> rfl
    · change (if store.registry owner = some number then _ else store).registry other = _ ∨
        _ ∧ (if store.registry owner = some number then _ else store).registry other = _
      split
      · rcases eq_or_ne other owner with rfl | different
        · exact .inr ⟨rfl, Function.update_self ..⟩
        · exact .inl (Function.update_of_ne different ..)
      · exact .inl rfl
  | markWorkerDisconnected owner =>
    obtain ⟨rfl, rfl⟩ := fits
    cases answer with
    | error text => exact restaged.flagged_settle flagged rfl rfl (.inr keeps)
    | ok _ => exact restaged.flagged_clear flagged rfl rfl keeps.1 keeps.2
  | command statement =>
    obtain ⟨connectedAt, registry⟩ := store.link_quiet number now _ answer
      (fun _ _ _ _ same => by cases same) (fun _ same => by cases same) (fun _ same => by cases same)
      fun _ same => by cases same
    exact leaves restaged connectedAt registry rfl
  | receive | job | readClock | recordCredentialKey | touchWorker | sendHelloAck | pushInstanceConfigs =>
    exact leaves restaged rfl rfl rfl

theorem flagged_step {call : LinkCall} {answer : LinkAnswer call} (flagged : store.Flagged)
    (does : call.Does runtime store answer after) (keeps : store.KeepsFlag ⟨call, answer⟩)
    (speaks : ∀ number statement, call = .hub number statement → ∃ workerId stage,
      store.standing number = some (workerId, store.process, stage) ∧
        statement.Fits workerId stage) : after.Flagged := by
  cases call with
  | accept number workerId =>
    obtain ⟨free, standing⟩ := does.standing_accept
    obtain ⟨-, rfl⟩ := does
    refine flagged.same rfl rfl fun other owner stage unsettled => ?_
    unfold LinkStore.Stands
    rw [standing]
    rcases eq_or_ne other number with rfl | different
    · rw [Function.update_self, free]
      constructor
      · rintro ⟨⟩
        exact absurd rfl unsettled
      · rintro ⟨⟩
    · rw [Function.update_of_ne different]
  | hub number statement =>
    obtain ⟨workerId, stage, stands, fits⟩ := speaks number statement rfl
    exact flagged_hub flagged does stands fits keeps
  | command process statement =>
    have standing := does.standing_other (fun _ _ same => by cases same) fun _ _ same => by cases same
    obtain ⟨-, commands, -, -, rfl⟩ := does
    obtain ⟨connectedAt, registry⟩ := store.link_quiet 0 0 (.command statement) answer
      (fun _ _ _ _ same => by cases same) (fun _ same => by cases same) (fun _ same => by cases same)
      fun _ same => by cases same
    refine flagged.same connectedAt registry fun other owner stage _ => ?_
    unfold LinkStore.Stands
    rw [standing]
    exact Iff.of_eq (congrArg (fun process => store.standing other = some (owner, process, stage))
      (LinkStore.process_link 0 0 ⟨HubCall.command statement, answer⟩))
  | close number =>
    cases does
    refine flagged.same rfl rfl fun other owner stage _ => ?_
    unfold LinkStore.Stands
    rw [LinkStore.standing_close]
    rfl
  | restart =>
    obtain ⟨process, fresh, rfl⟩ := does
    constructor
    · intro workerId isSome
      rw [keeps workerId] at isSome
      cases isSome
    · rintro workerId (live | ⟨number, stands⟩)
      · cases live
      · obtain ⟨stream, there, same⟩ := Option.map_eq_some_iff.mp stands
        obtain ⟨old, found, rfl⟩ := Option.map_eq_some_iff.mp there
        exact absurd (congrArg (·.2.1) same) (fresh number old found)

end Steps

/-! ## Runs -/

/-- Nothing is under way: a session waits to be opened or for a message, or has ended. -/
def waits : LinkProgram Unit → Bool
  | .done _ | .throw _ => true
  | .call (.accept _ _) _ | .call (.hub _ .receive) _ => true
  | .call _ _ => false

/-- All that was queued in the sessions of the process is done. -/
def WorkDone (pool : Pool LinkAnswer Unit Unit LinkStore LinkOperation) : Prop :=
  ∀ flight ∈ pool.flights, ∀ number worker remoteAddress work,
    flight.operation = .session number worker remoteAddress work → pool.state.Runs number → waits flight.program = true

section Runs
variable {runtime : Runtime} {config : HubConfig} {initial : LinkStore}
  {pool : Pool LinkAnswer Unit Unit LinkStore LinkOperation} {run : List LinkStep}

/-- Then every session is between two messages, or has ended. -/
theorem settled_of_workDone
    (reaches : Reaches (LinkCall.Does runtime) (LinkOperation.body config) initial pool run)
    (fresh : ∀ number, initial.streams number = none) (done : WorkDone pool) {number : Nat} {workerId : JsString}
    {stage : SessionStage} (stands : pool.state.Stands number workerId stage) : stage = .settled := by
  obtain ⟨tracked, -⟩ := tracked_of_reaches reaches fresh
  have isSome : (pool.state.standing number).isSome := by rw [stands]; rfl
  obtain ⟨flight, member, opened⟩ := List.mem_filterMap.mp (tracked.opened number isSome)
  obtain ⟨worker, remoteAddress, work, session, spoke⟩ : ∃ worker remoteAddress work,
      flight.operation = .session number worker remoteAddress work ∧ flight.said ≠ [] := by
    unfold openedBy at opened
    split at opened
    · rename_i isSession isSaid
      cases opened
      exact ⟨_, _, _, isSession, by simp [isSaid]⟩
    · cases opened
  obtain ⟨process, stood⟩ := tracked.standing flight member _ _ _ _ session spoke
  have same := stands.symm.trans stood
  rw [Option.some.injEq, Prod.mk.injEq, Prod.mk.injEq] at same
  rw [same.2.2]
  have live : pool.state.Runs number := by
    obtain ⟨stream, found, stream_stands⟩ := Option.map_eq_some_iff.mp stands
    exact ⟨stream, found, congrArg (·.2.1) stream_stands⟩
  have goes := reaches.goes (goes_linkBody config) flight member
  have waits := done flight member _ _ _ _ session live
  obtain ⟨operation, said, program⟩ := flight
  cases session
  cases goes with
  | done holds => exact holds
  | throw never => exact never.elim
  | @call _ request next allowed _ =>
    cases request with
    | accept other owner => exact absurd allowed.1 spoke
    | hub other statement =>
      cases statement with
      | receive => exact allowed.2
      | _ => cases waits
    | command | close | restart => exact allowed.elim

end Runs

/-- **The flag tells who is connected, as long as no session clears the flag of
another and no session is lost without clearing it.** Wherever in such a run all that was
queued is done, a worker has the flag if and only if a session of it is live. -/
theorem connectedAt_isSome_iff {runtime : Runtime} {config : HubConfig} {initial : LinkStore}
    {pool : Pool LinkAnswer Unit Unit LinkStore LinkOperation} {run : List LinkStep}
    (reaches : Reaches (LinkCall.Does runtime) (LinkOperation.body config) initial pool run)
    (noStreams : ∀ number, initial.streams number = none)
    (noneConnected : ∀ workerId, initial.connectedAt workerId = none)
    (noneLive : ∀ workerId, initial.registry workerId = none)
    (keeps : ∀ taken ∈ run, taken.before.KeepsFlag taken.exchange) (done : WorkDone pool) (workerId : JsString) :
    (pool.state.connectedAt workerId).isSome ↔ (pool.state.registry workerId).isSome := by
  obtain ⟨-, speaks⟩ := tracked_of_reaches reaches noStreams
  have first : initial.Flagged := by
    refine ⟨fun owner isSome => ?_, ?_⟩
    · rw [noneConnected] at isSome
      cases isSome
    · rintro owner (live | ⟨number, stands⟩)
      · rw [noneLive] at live
        cases live
      · simp [LinkStore.Stands, LinkStore.standing, noStreams] at stands
  obtain ⟨flagged, -⟩ := reaches.invariant LinkStore.Flagged first fun taken member before =>
    flagged_step before (reaches.does taken member) (keeps taken member) (speaks taken member)
  constructor
  · intro connected
    rcases flagged.accounted workerId connected with live | ⟨number, stage, unsettled, stands⟩
    · exact live
    · exact absurd (settled_of_workDone reaches noStreams done stands) unsettled
  · exact fun live => flagged.told workerId (.inl live)

/-! ## Samples -/

section Samples

def firstLink : LinkOperation := .session 0 sampleWorker (js "10.0.0.5") [.message, .teardown]

def secondLink : LinkOperation := .session 1 sampleWorker (js "10.0.0.5") [.message, .message]

theorem workDone_of_all {pool : Pool LinkAnswer Unit Unit LinkStore LinkOperation}
    (all : (pool.flights.all fun flight => waits flight.program) = true) : WorkDone pool :=
  fun flight member _ _ _ _ _ _ => List.all_eq_true.mp all flight member

/-- No flag is cleared or left behind in the exchange. -/
def leavesFlags : Exchange LinkAnswer → Bool
  | ⟨.hub _ (.recordWorkerHello _ _ maxCapability _), _⟩ => maxCapability ∉ OBJECT_PROTOTYPE
  | ⟨.hub _ (.markWorkerDisconnected _), _⟩ => false
  | ⟨.hub _ (.upsertInstance _ _), .error _⟩ => false
  | ⟨.hub _ (.insertSyncState _), .error _⟩ => false
  | ⟨.restart, _⟩ => false
  | _ => true

theorem keepsFlag_of_leavesFlags {before : LinkStore} {exchange : Exchange LinkAnswer}
    (leaves : leavesFlags exchange = true) : before.KeepsFlag exchange := by
  unfold LinkStore.KeepsFlag
  split
  · exact fun inherited => absurd inherited (of_decide_eq_true leaves)
  all_goals trivial

/-- A worker that connects has the flag. -/
theorem connectedAt_isSome_iff_hello : ∃ pool : Pool LinkAnswer Unit Unit LinkStore LinkOperation,
    pool = (afterLinkWork [.begin secondLink, .steps 0 10 sampleHello]).1 ∧
      (pool.state.registry (js "w1")).isSome ∧ (pool.state.connectedAt (js "w1")).isSome := by
  have quiet :
      ((afterLinkWork [.begin secondLink, .steps 0 10 sampleHello]).2.all fun taken => leavesFlags taken.exchange) =
      true := by decide +kernel
  refine ⟨_, rfl, by decide +kernel, ?_⟩
  refine (connectedAt_isSome_iff (reaches_afterLinkWork _) (fun _ => rfl) (fun _ => rfl) (fun _ => rfl) ?_
    (workDone_of_all (by decide +kernel)) _).mpr (by decide +kernel)
  exact fun taken member => keepsFlag_of_leavesFlags (List.all_eq_true.mp quiet taken member)

/-- A worker that connects again before its first session is torn down is live, and has
its flag cleared. -/
theorem connectedAt_superseded : ∃ pool run,
    Reaches (LinkCall.Does mirrorRuntime) (LinkOperation.body sampleHub) .empty pool run ∧ WorkDone pool ∧
      pool.state.connectedAt (js "w1") = none ∧ pool.state.registry (js "w1") = some 1 :=
  ⟨_, _, reaches_afterLinkWork [.begin firstLink, .begin secondLink, .steps 0 10 sampleHello, .steps 1 10 sampleHello,
    .steps 0 3 sampleHello], workDone_of_all (by decide +kernel), by decide +kernel, by decide +kernel⟩

end Samples

end RemoteSqlAgent
