import RemoteSqlAgent.LinkRules

/-! Runs of the links. Whatever runs side by side, the stream of a session tells where
the session is, and sessions have streams of their own. -/
namespace RemoteSqlAgent
open Js CallProgram

/-- Whose a stream is, in what process, and where its session is. -/
def LinkStream.standing (stream : LinkStream) : JsString × Nat × SessionStage :=
  (stream.workerId, stream.process, stream.stage)

namespace LinkStore
variable {store : LinkStore}

def standing (store : LinkStore) (number : Nat) : Option (JsString × Nat × SessionStage) :=
  (store.streams number).map (·.standing)

theorem standing_updateStream (number : Nat) (change : LinkStream → LinkStream)
    (next : JsString × Nat × SessionStage → JsString × Nat × SessionStage)
    (changes : ∀ stream, (change stream).standing = next stream.standing) :
    (store.updateStream number change).standing =
      Function.update store.standing number ((store.standing number).map next) := by
  funext other
  rcases eq_or_ne other number with rfl | different
  · cases found : store.streams other with
    | none => simp [standing, updateStream, found]
    | some stream => simp [standing, updateStream, found, changes]
  · simp [standing, updateStream, different]

@[simp] theorem standing_close (number : Nat) : (store.close number).standing = store.standing := by
  refine (standing_updateStream number (fun stream => { stream with writable := false }) id fun stream => rfl).trans ?_
  rw [Option.map_id, id, Function.update_eq_self]

@[simp] theorem standing_disconnect (workerId : JsString) : (store.disconnect workerId).standing = store.standing := by
  unfold disconnect
  split
  · rfl
  · exact standing_close _

@[simp] theorem standing_write (workerId : JsString) (command : Command) :
    (store.write workerId command).standing = store.standing := by
  unfold write
  split
  · rfl
  · split <;> rfl

@[simp] theorem standing_link (number : Nat) (now : Int) (exchange : Exchange HubAnswer) :
    (store.link number now exchange).standing = store.standing := by
  unfold link
  split
  · rfl
  · exact standing_disconnect _
  · split <;> rfl
  · rfl
  · exact standing_write _ _
  · rfl

@[simp] theorem process_link (number : Nat) (now : Int) (exchange : Exchange HubAnswer) :
    (store.link number now exchange).process = store.process := by
  unfold link
  split
  · rfl
  · unfold disconnect
    split <;> rfl
  · split <;> rfl
  · rfl
  · unfold write
    split
    · rfl
    · split <;> rfl
  · rfl

end LinkStore

/-! ## What a step does to the standing of sessions -/

section Does
variable {runtime : Runtime} {store after : LinkStore}

theorem LinkCall.Does.standing_accept {number : Nat} {workerId : JsString} {answer : Unit}
    (does : (LinkCall.accept number workerId).Does runtime store answer after) :
    store.standing number = none ∧
      after.standing = Function.update store.standing number (some (workerId, store.process, .settled)) := by
  obtain ⟨free, rfl⟩ := does
  refine ⟨by simp [LinkStore.standing, free], ?_⟩
  funext other
  rcases eq_or_ne other number with rfl | different
  · simp [LinkStore.standing, LinkStream.standing]
  · simp [LinkStore.standing, different]

theorem LinkCall.Does.standing_hub {number : Nat} {statement : HubCall} {answer : HubAnswer statement}
    (does : (LinkCall.hub number statement).Does runtime store answer after) :
    after.standing = Function.update store.standing number
      ((store.standing number).map fun standing =>
        (standing.1, standing.2.1, standing.2.2.next ⟨statement, answer⟩)) := by
  obtain ⟨-, hub, now, -, -, rfl⟩ := does
  change ((store.link number now ⟨statement, answer⟩).updateStream number _).standing = _
  rw [LinkStore.standing_updateStream number _
    (fun standing => (standing.1, standing.2.1, standing.2.2.next ⟨statement, answer⟩)) fun stream => rfl,
    LinkStore.standing_link]

/-- The stream of a session is not touched by what is not a session's. -/
theorem LinkCall.Does.standing_other {call : LinkCall} {answer : LinkAnswer call}
    (does : call.Does runtime store answer after) (notAccept : ∀ number workerId, call ≠ .accept number workerId)
    (notHub : ∀ number statement, call ≠ .hub number statement) : after.standing = store.standing := by
  cases call with
  | accept number workerId => exact absurd rfl (notAccept number workerId)
  | hub number statement => exact absurd rfl (notHub number statement)
  | command process statement =>
    obtain ⟨-, commands, -, -, rfl⟩ := does
    exact LinkStore.standing_link 0 0 _
  | close number =>
    cases does
    exact LinkStore.standing_close number
  | restart =>
    obtain ⟨process, -, rfl⟩ := does
    funext number
    simp [LinkStore.standing, LinkStream.standing, Function.comp_def]

end Does

/-! ## Sessions in a run -/

abbrev LinkFlight := Flight LinkAnswer Unit Unit LinkOperation

/-- The number of a session that was opened. -/
def openedBy (flight : LinkFlight) : Option Nat :=
  match flight.operation, flight.said with
  | .session number _ _ _, _ :: _ => some number
  | _, _ => none

/-- The stream of a session tells whose it is and where it is. -/
def Standing (store : LinkStore) (flight : LinkFlight) : Prop :=
  ∀ number worker remoteAddress work, flight.operation = .session number worker remoteAddress work → flight.said ≠ [] →
    ∃ process, store.standing number = some (worker.workerId, process, stageOf (flight.said.filterMap ofSession))

/-- Sessions have streams of their own, and streams are of sessions. -/
structure Tracked (store : LinkStore) (flights : List LinkFlight) : Prop where
  distinct : (flights.filterMap openedBy).Nodup
  standing : ∀ flight ∈ flights, Standing store flight
  opened : ∀ number, (store.standing number).isSome → number ∈ flights.filterMap openedBy

namespace Tracked
variable {runtime : Runtime} {store after : LinkStore} {earlier later flights : List LinkFlight}
  {flight moved : LinkFlight}

theorem number_mem {number : Nat} (member : flight ∈ flights) (opens : openedBy flight = some number) :
    number ∈ flights.filterMap openedBy :=
  List.mem_filterMap.mpr ⟨flight, member, opens⟩

theorem openedBy_session {number : Nat} {worker : AuthenticatedWorker} {remoteAddress : JsString}
    {work : List QueuedWork}
    (session : flight.operation = .session number worker remoteAddress work) (spoke : flight.said ≠ []) :
    openedBy flight = some number := by
  cases said : flight.said with
  | nil => exact absurd said spoke
  | cons _ _ => simp [openedBy, session, said]

/-- A step of a session that changes its own standing, and says so. -/
theorem advance (tracked : Tracked store (earlier ++ flight :: later)) {number : Nat} {worker : AuthenticatedWorker}
    {remoteAddress : JsString} {work : List QueuedWork}
    (session : flight.operation = .session number worker remoteAddress work) (spoke : flight.said ≠ [])
    (same : moved.operation = flight.operation) (more : moved.said ≠ [])
    (next : JsString × Nat × SessionStage → JsString × Nat × SessionStage)
    (changes : after.standing = Function.update store.standing number ((store.standing number).map next))
    (tells : ∀ process,
      store.standing number = some (worker.workerId, process, stageOf (flight.said.filterMap ofSession)) →
      next (worker.workerId, process, stageOf (flight.said.filterMap ofSession)) =
        (worker.workerId, process, stageOf (moved.said.filterMap ofSession))) :
    Tracked after (earlier ++ moved :: later) := by
  have mine := openedBy_session session spoke
  have still := openedBy_session (same.trans session) more
  have numbers : (earlier ++ moved :: later).filterMap openedBy = (earlier ++ flight :: later).filterMap openedBy := by
    simp only [List.filterMap_append, List.filterMap_cons_some mine, List.filterMap_cons_some still]
  have apart : ∀ other, other ∈ earlier ∨ other ∈ later → openedBy other ≠ some number := by
    have distinct := tracked.distinct
    simp only [List.filterMap_append, List.filterMap_cons_some mine] at distinct
    obtain ⟨alone, -⟩ := List.nodup_middle.mp distinct |> List.nodup_cons.mp
    rintro other (member | member) opens
    · exact alone (List.mem_append_left _ (number_mem member opens))
    · exact alone (List.mem_append_right _ (number_mem member opens))
  refine ⟨numbers ▸ tracked.distinct, fun other member => ?_, fun found isSome => numbers ▸ ?_⟩
  · have elsewhere : ∀ other, other ∈ earlier ∨ other ∈ later → Standing after other := by
      intro other member found theirs address items isSession talked
      have different : found ≠ number := by
        rintro rfl
        exact apart other member (openedBy_session isSession talked)
      have there : other ∈ earlier ++ flight :: later := by
        rcases member with before | behind
        · exact List.mem_append_left _ before
        · exact List.mem_append_right _ (List.mem_cons_of_mem _ behind)
      rw [changes, Function.update_of_ne different]
      exact tracked.standing other there found theirs address items isSession talked
    rcases List.mem_append.mp member with before | rest
    · exact elsewhere other (.inl before)
    · rcases List.mem_cons.mp rest with rfl | behind
      · intro found theirs address items isSession _
        cases (isSession.symm.trans (same.trans session))
        obtain ⟨process, stands⟩ :=
          tracked.standing flight (List.mem_append_right _ List.mem_cons_self) _ _ _ _ session spoke
        refine ⟨process, ?_⟩
        rw [changes, Function.update_self, stands, Option.map_some, tells process stands]
      · exact elsewhere other (.inr behind)
  · apply tracked.opened
    rw [changes] at isSome
    rcases eq_or_ne found number with rfl | different
    · rwa [Function.update_self, Option.isSome_map] at isSome
    · rwa [Function.update_of_ne different] at isSome

/-- A session is opened. -/
theorem accept (tracked : Tracked store (earlier ++ flight :: later)) {number : Nat} {worker : AuthenticatedWorker}
    {remoteAddress : JsString} {work : List QueuedWork}
    (session : flight.operation = .session number worker remoteAddress work) (silent : flight.said = [])
    (same : moved.operation = flight.operation) (more : moved.said ≠ [])
    (starts : moved.said.filterMap ofSession = []) (free : store.standing number = none)
    (changes : after.standing =
      Function.update store.standing number (some (worker.workerId, store.process, .settled))) :
    Tracked after (earlier ++ moved :: later) := by
  have before : openedBy flight = none := by simp [openedBy, session, silent]
  have now := openedBy_session (same.trans session) more
  have absent : ∀ other ∈ earlier ++ flight :: later, openedBy other ≠ some number := by
    intro other member opens
    unfold openedBy at opens
    split at opens
    · rename_i found theirs address items exchange rest isSession isSaid
      cases opens
      obtain ⟨process, stands⟩ := tracked.standing other member _ _ _ _ isSession (by simp [isSaid])
      cases free.symm.trans stands
    · cases opens
  refine ⟨?_, fun other member => ?_, fun found isSome => ?_⟩
  · have distinct := tracked.distinct
    simp only [List.filterMap_append, List.filterMap_cons_none before, List.filterMap_cons_some now] at distinct ⊢
    refine List.nodup_middle.mpr (List.nodup_cons.mpr ⟨fun there => ?_, distinct⟩)
    rw [← List.filterMap_append] at there
    obtain ⟨other, member, opens⟩ := List.mem_filterMap.mp there
    refine absent other ?_ opens
    rcases List.mem_append.mp member with front | behind
    · exact List.mem_append_left _ front
    · exact List.mem_append_right _ (List.mem_cons_of_mem _ behind)
  · intro found theirs address items isSession talked
    by_cases itself : other = moved
    · subst itself
      cases isSession.symm.trans (same.trans session)
      refine ⟨store.process, ?_⟩
      rw [changes, Function.update_self, starts]
      rfl
    · have there : other ∈ earlier ++ flight :: later := by
        rcases List.mem_append.mp member with front | rest
        · exact List.mem_append_left _ front
        · exact List.mem_append_right _ (List.mem_cons_of_mem _ ((List.mem_cons.mp rest).resolve_left itself))
      have different : found ≠ number := by
        rintro rfl
        exact absent other there (openedBy_session isSession talked)
      rw [changes, Function.update_of_ne different]
      exact tracked.standing other there found theirs address items isSession talked
  · simp only [List.filterMap_append, List.filterMap_cons_some now]
    rcases eq_or_ne found number with rfl | different
    · simp
    · rw [changes, Function.update_of_ne different] at isSome
      have there := tracked.opened found isSome
      simp only [List.filterMap_append, List.filterMap_cons_none before] at there
      simp only [List.mem_append, List.mem_cons] at there ⊢
      exact there.imp_right .inr

/-- A step of what is not a session. -/
theorem other (tracked : Tracked store (earlier ++ flight :: later)) (same : moved.operation = flight.operation)
    (notSession : ∀ number worker remoteAddress work, flight.operation ≠ .session number worker remoteAddress work)
    (stays : after.standing = store.standing) : Tracked after (earlier ++ moved :: later) := by
  have none_of : ∀ some : LinkFlight, some.operation = flight.operation → openedBy some = none := by
    intro some is
    unfold openedBy
    split
    · rename_i isSession _
      exact absurd (is.symm.trans isSession) (notSession _ _ _ _)
    · rfl
  have numbers : (earlier ++ moved :: later).filterMap openedBy = (earlier ++ flight :: later).filterMap openedBy := by
    simp only [List.filterMap_append, List.filterMap_cons_none (none_of flight rfl),
      List.filterMap_cons_none (none_of moved same)]
  refine ⟨numbers ▸ tracked.distinct, fun other member => ?_, fun number isSome => ?_⟩
  · intro found theirs address items isSession talked
    rw [stays]
    rcases List.mem_append.mp member with front | rest
    · exact tracked.standing other (List.mem_append_left _ front) found theirs address items isSession talked
    · rcases List.mem_cons.mp rest with rfl | behind
      · exact absurd (same.symm.trans isSession) (notSession _ _ _ _)
      · exact tracked.standing other (List.mem_append_right _ (List.mem_cons_of_mem _ behind)) found theirs
          address items
          isSession talked
  · rw [stays] at isSome
    exact numbers ▸ tracked.opened number isSome

end Tracked

/-! ## Runs -/

section Runs
variable {runtime : Runtime} {config : HubConfig} {initial : LinkStore}
  {pool : Pool LinkAnswer Unit Unit LinkStore LinkOperation} {run : List LinkStep}

/-- A session makes a statement that it can make where its stream is. -/
def Speaks (taken : LinkStep) : Prop :=
  ∀ number statement, taken.request = .hub number statement → ∃ workerId stage,
    taken.before.standing number = some (workerId, taken.before.process, stage) ∧ statement.Fits workerId stage

theorem Tracked.step {store after : LinkStore} {earlier later : List LinkFlight} {operation : LinkOperation}
    {said : List (Exchange LinkAnswer)} {request : LinkCall} {next : LinkAnswer request → LinkProgram Unit}
    (tracked : Tracked store (earlier ++ ⟨operation, said, .call request next⟩ :: later)) (answer : LinkAnswer request)
    (does : request.Does runtime store answer after) (follows : LinkFollows operation said request)
    (opens : Opens operation said request) :
    Tracked after (earlier ++ ⟨operation, said ++ [⟨request, answer⟩], next answer⟩ :: later) ∧
      Speaks ⟨operation, said, request, answer, store, after⟩ := by
  cases operation with
  | session number worker remoteAddress work =>
    cases request with
    | accept other workerId =>
      obtain ⟨rfl, rfl, rfl⟩ := follows
      obtain ⟨free, changes⟩ := does.standing_accept
      refine ⟨tracked.accept rfl rfl rfl (by simp) ?_ free changes, fun _ _ same => by cases same⟩
      simp [ofSession]
    | hub other statement =>
      obtain ⟨rfl, rule⟩ := follows
      have spoke : said ≠ [] := fun silent => by cases opens other worker remoteAddress work rfl silent
      constructor
      · refine tracked.advance rfl spoke rfl (by simp) _ does.standing_hub fun process _ => ?_
        simp [ofSession, stageOf_concat]
      · intro number made same
        cases same
        obtain ⟨process, stands⟩ := tracked.standing _ (List.mem_append_right _ List.mem_cons_self) _ _ _ _ rfl spoke
        obtain ⟨⟨stream, found, inside⟩, -⟩ := does
        rw [LinkStore.standing, found, Option.map_some] at stands
        refine ⟨worker.workerId, _, ?_, rule.fits⟩
        rw [LinkStore.standing, found, Option.map_some, stands, ← inside]
        exact congrArg _ (Prod.ext rfl (Prod.ext (congrArg (·.2.1) (Option.some.inj stands)).symm rfl))
    | command | close | restart => exact follows.elim
  | command process operation =>
    cases request with
    | command spoken statement =>
      refine ⟨tracked.other rfl (fun _ _ _ _ same => by cases same) ?_, fun _ _ same => by cases same⟩
      exact does.standing_other (fun _ _ same => by cases same) fun _ _ same => by cases same
    | _ => exact follows.elim
  | close number =>
    cases request with
    | close closed =>
      refine ⟨tracked.other rfl (fun _ _ _ _ same => by cases same) ?_, fun _ _ same => by cases same⟩
      exact does.standing_other (fun _ _ same => by cases same) fun _ _ same => by cases same
    | _ => exact follows.elim
  | restart =>
    cases request with
    | restart =>
      refine ⟨tracked.other rfl (fun _ _ _ _ same => by cases same) ?_, fun _ _ same => by cases same⟩
      exact does.standing_other (fun _ _ same => by cases same) fun _ _ same => by cases same
    | _ => exact follows.elim

/-- Whatever runs, the streams tell where the sessions are. -/
theorem tracked_of_reaches
    (reaches : Reaches (LinkCall.Does runtime) (LinkOperation.body config) initial pool run)
    (fresh : ∀ number, initial.streams number = none) :
    Tracked pool.state pool.flights ∧ ∀ taken ∈ run, Speaks taken := by
  induction reaches with
  | start =>
    exact ⟨⟨List.nodup_nil, by simp, fun number isSome => by simp [LinkStore.standing, fresh] at isSome⟩, by simp⟩
  | begin reaches operation ih =>
    obtain ⟨tracked, past⟩ := ih
    have silent : openedBy ⟨operation, [], operation.body config⟩ = none := by
      unfold openedBy
      split
      · rename_i isSaid
        cases isSaid
      · rfl
    refine ⟨⟨?_, fun flight member => ?_, fun number isSome => ?_⟩, past⟩
    · rw [List.filterMap_append, List.filterMap_cons_none silent, List.filterMap_nil, List.append_nil]
      exact tracked.distinct
    · rcases List.mem_append.mp member with there | new
      · exact tracked.standing flight there
      · cases List.mem_singleton.mp new
        exact fun _ _ _ _ _ spoke => absurd rfl spoke
    · rw [List.filterMap_append]
      exact List.mem_append_left _ (tracked.opened number isSome)
  | @call state after earlier later operation said request next run reaches answer does ih =>
    obtain ⟨tracked, past⟩ := ih
    have mine :
        (⟨operation, said, .call request next⟩ : LinkFlight) ∈ earlier ++
          ⟨operation, said, .call request next⟩ :: later :=
      List.mem_append_right _ List.mem_cons_self
    have follows : LinkFollows operation said request := by
      cases (reaches.goes (goes_linkBody config) _ mine) with
      | call allowed _ => exact allowed
    have opens : Opens operation said request := by
      cases (reaches.allowed Opens (obeys_opens config)).1 _ mine with
      | call allowed _ => exact allowed
    obtain ⟨next, speaks⟩ := tracked.step answer does follows opens
    refine ⟨next, fun taken member => ?_⟩
    rcases List.mem_append.mp member with before | last
    · exact past taken before
    · cases List.mem_singleton.mp last
      exact speaks

end Runs

/-! ## A sample -/

/-- What the registry has to say in place of an answer, if it has. -/
def LinkStore.heard (store : LinkStore) : (statement : HubCall) → HubAnswer statement → Option (HubAnswer statement)
  | .command (.isLive workerId), _ => some (store.registry workerId).isSome
  | .command (.send workerId _), answer => if (store.registry workerId).isSome then some answer else none
  | .register workerId, _ => some (store.registry workerId).isSome
  | _, answer => some answer

/-- A control plane on which everything works, where the next message is this one. -/
def linkAnswer (message : HubMessage) (store : LinkStore) : (call : LinkCall) → Option (LinkAnswer call × LinkStore)
  | .accept number workerId =>
    if (store.streams number).isNone then
      some ((), { store with
        streams := Function.update store.streams number (some ⟨workerId, store.process, true, .settled⟩) })
    else none
  | .hub number statement =>
    if (store.streams number).any fun stream => stream.process = store.process then
      let answered := hubAnswer message store.hub statement
      (store.heard statement answered.1).map fun answer =>
        (answer, { (store.link number 1000 ⟨statement, answer⟩).updateStream number fun stream =>
          { stream with stage := stream.stage.next ⟨statement, answer⟩ } with hub := answered.2 })
    else none
  | .command process statement =>
    if process = store.process then
      let answered := answerAt 1000 store.hub.commands statement
      (store.heard (.command statement) answered.1).map fun answer =>
        (answer, { store.link 0 0 ⟨.command statement, answer⟩ with hub := { store.hub with commands := answered.2 } })
    else none
  | .close number => some ((), store.close number)
  | .restart => none

theorem LinkStore.heard_answers {store : LinkStore} {runtime : Runtime} {hub : HubStore} {statement : HubCall}
    {answer told : HubAnswer statement} (does : statement.Does runtime store.hub answer hub)
    (heard : store.heard statement answer = some told) :
    statement.Does runtime store.hub told hub ∧ store.Answers ⟨statement, told⟩ := by
  have same (still : some answer = some told) (silent : store.Answers ⟨statement, answer⟩) :
      statement.Does runtime store.hub told hub ∧ store.Answers ⟨statement, told⟩ := by
    cases still
    exact ⟨does, silent⟩
  cases statement with
  | command statement =>
    cases statement with
    | isLive workerId =>
      cases heard
      exact ⟨does, rfl⟩
    | send workerId command =>
      simp only [LinkStore.heard, Option.ite_none_right_eq_some] at heard
      exact same heard.2 heard.1
    | _ => exact same heard trivial
  | register workerId =>
    cases heard
    exact ⟨does, rfl⟩
  | _ => exact same heard trivial

theorem linkAnswer_does {message : HubMessage} {store after : LinkStore} {call : LinkCall} {answer : LinkAnswer call}
    (answered : linkAnswer message store call = some (answer, after)) : call.Does mirrorRuntime store answer after := by
  cases call with
  | accept number workerId =>
    obtain ⟨free, same⟩ := Option.ite_none_right_eq_some.mp answered
    cases same
    exact ⟨Option.isNone_iff_eq_none.mp free, rfl⟩
  | hub number statement =>
    obtain ⟨here, mapped⟩ := Option.ite_none_right_eq_some.mp answered
    obtain ⟨told, heard, same⟩ := Option.map_eq_some_iff.mp mapped
    cases same
    obtain ⟨does, answers⟩ := LinkStore.heard_answers (hubAnswer_does message store.hub statement) heard
    obtain ⟨stream, found, same⟩ := (Option.any_eq_true _ _).mp here
    exact ⟨⟨stream, found, of_decide_eq_true same⟩, _, 1000, does, answers, rfl⟩
  | command process statement =>
    obtain ⟨here, mapped⟩ := Option.ite_none_right_eq_some.mp answered
    obtain ⟨told, heard, same⟩ := Option.map_eq_some_iff.mp mapped
    cases same
    have made : (HubCall.command statement).Does mirrorRuntime store.hub (answerAt 1000 store.hub.commands statement).1
        { store.hub with commands := (answerAt 1000 store.hub.commands statement).2 } :=
      ⟨_, answerAt_does 1000 store.hub.commands statement, rfl⟩
    obtain ⟨⟨commands, does, same⟩, answers⟩ := LinkStore.heard_answers made heard
    cases congrArg HubStore.commands same
    exact ⟨here, _, does, answers, rfl⟩
  | close number =>
    cases answered
    rfl
  | restart => cases answered

/-- Start an operation, or let one take so many steps, the first of which may
receive a message. -/
inductive LinkWork where
  | begin (operation : LinkOperation)
  | steps (index count : Nat) (message : HubMessage)

def LinkWork.moves : LinkWork → List (Move LinkAnswer LinkStore LinkOperation)
  | .begin operation => [.begin operation]
  | .steps index count message => List.replicate count (.step index (linkAnswer message))

def afterLinkWork (work : List LinkWork) : Pool LinkAnswer Unit Unit LinkStore LinkOperation × List LinkStep :=
  (work.flatMap LinkWork.moves).foldl (Pool.play (LinkOperation.body sampleHub)) (⟨.empty, []⟩, [])

theorem reaches_afterLinkWork (work : List LinkWork) :
    Reaches (LinkCall.Does mirrorRuntime) (LinkOperation.body sampleHub) .empty (afterLinkWork work).1
      (afterLinkWork work).2 := by
  refine reaches_play _ fun index world member store call answer after answered => ?_
  obtain ⟨part, -, inside⟩ := List.mem_flatMap.mp member
  cases part with
  | begin operation => simp [LinkWork.moves] at inside
  | steps other count message =>
    obtain ⟨-, same⟩ := List.mem_replicate.mp inside
    cases same
    exact linkAnswer_does answered

end RemoteSqlAgent
