import RemoteSqlAgent.AppliedOnce

/-! A worker that is sent anything. Nothing is assumed of what arrives here: commands may be
replayed, reordered, made up or issued again under an old id. What is applied was admitted, and an
id is applied a second time only after its record was pruned, or where applying it ended in a way
that leaves none. -/
namespace RemoteSqlAgent
open Js CallProgram

/-- The worker between two deliveries, with the deliveries it applied so far. -/
structure Handler where
  outbox : Outbox
  now : Int
  applied : List Delivery

/-- The delivery, if its command passes the gates. -/
def Delivery.passing (runtime : Runtime) (outbox : Outbox) (delivery : Delivery) : List Delivery :=
  if (gates runtime delivery.command delivery.context outbox delivery.clock.checkedAt).isNone then [delivery] else []

/-- Deliveries of a kind, heartbeats and restarts. The clock does not go back. -/
inductive Handler.Step (runtime : Runtime) (arrives : Delivery → Prop) : Handler → Handler → Prop where
  | deliver {handler : Handler} {outbox' : Outbox} (delivery : Delivery) (kind : arrives delivery)
      (clock : (handler.now :: delivery.clock.readings).Pairwise (· ≤ ·))
      (run : Runs (handleCommand runtime delivery.command delivery.context delivery.clock handler.outbox)
        delivery.transcript (.ok (delivery.result, outbox'))) :
      Handler.Step runtime arrives handler {
        outbox := outbox'
        now := delivery.clock.repliedAt
        applied := handler.applied ++ delivery.passing runtime handler.outbox }
  | heartbeat {handler : Handler} (now : Int) (clock : handler.now ≤ now) :
      Handler.Step runtime arrives handler { handler with
        outbox := handler.outbox.pruneAppliedCommands now APPLIED_COMMAND_RETENTION_MS
        now := now }
  | restart {handler : Handler} :
      Handler.Step runtime arrives handler { handler with outbox := handler.outbox.reopen }

def Handler.start (now : Int) : Handler where
  outbox := .empty
  now := now
  applied := []

def Handler.Reachable (runtime : Runtime) (arrives : Delivery → Prop) (handler : Handler) : Prop :=
  ∃ now, Relation.ReflTransGen (Handler.Step runtime arrives) (.start now) handler

/-- Applying ended in a way that leaves no record. -/
def Delivery.Unrecorded (delivery : Delivery) : Prop := ∃ failure, delivery.result = .error failure

/-- An application is on record, unless it left none or its record had to go. -/
def Delivery.Remembered (outbox : Outbox) (now : Int) (delivery : Delivery) : Prop :=
  delivery.Unrecorded ∨ delivery.clock.recordedAt + APPLIED_COMMAND_RETENTION_MS < now ∨
    ∃ row ∈ outbox.appliedCommands, row.command_id = delivery.command.id ∧ row.applied_at = delivery.clock.recordedAt

/-- A second application comes after the record of the first was due to be pruned. -/
def Delivery.WellBefore (first second : Delivery) : Prop :=
  first.command.id = second.command.id → first.Unrecorded ∨
    first.clock.recordedAt + APPLIED_COMMAND_RETENTION_MS < second.clock.checkedAt

/-- What holds between two deliveries. -/
structure Handler.Sound (runtime : Runtime) (arrives : Delivery → Prop) (handler : Handler) : Prop where
  admitted : ∀ delivery ∈ handler.applied, arrives delivery ∧
    Admitted runtime delivery.command delivery.context delivery.clock.checkedAt
  remembered : ∀ delivery ∈ handler.applied, delivery.Remembered handler.outbox handler.now
  apart : handler.applied.Pairwise Delivery.WellBefore

section Remembered
variable {outbox : Outbox} {now : Int} {delivery : Delivery}

theorem Delivery.Remembered.later {last : Int} (remembered : delivery.Remembered outbox now) (ordered : now ≤ last) :
    delivery.Remembered outbox last :=
  remembered.imp_right (.imp_left fun gone => gone.trans_le ordered)

theorem Delivery.Remembered.pruned {last : Int} (remembered : delivery.Remembered outbox now) (ordered : now ≤ last) :
    delivery.Remembered (outbox.pruneAppliedCommands last APPLIED_COMMAND_RETENTION_MS) last := by
  rcases remembered with unrecorded | gone | ⟨row, there, same, at_⟩
  · exact .inl unrecorded
  · exact .inr (.inl (gone.trans_le ordered))
  · rcases Int.lt_or_le row.applied_at (last - APPLIED_COMMAND_RETENTION_MS) with old | young
    · exact .inr (.inl (by omega))
    · exact .inr (.inr ⟨row, Outbox.mem_pruneAppliedCommands there young, same, at_⟩)

theorem Delivery.Remembered.beaten {times : List Int} (remembered : delivery.Remembered outbox now)
    (ordered : (now :: times).Pairwise (· ≤ ·)) {last : Int} (after : ∀ time ∈ now :: times, time ≤ last) :
    delivery.Remembered (outbox.afterHeartbeats times) last := by
  induction times generalizing outbox now with
  | nil => exact remembered.later (after now List.mem_cons_self)
  | cons first rest ih =>
    obtain ⟨before, sorted⟩ := List.pairwise_cons.mp ordered
    refine ih (remembered.pruned (before first List.mem_cons_self)) sorted fun time member => ?_
    exact after time (List.mem_cons_of_mem _ member)

end Remembered

/-- The order in which the clock is read around one delivery. -/
theorem Clock.order {clock : Clock} {now : Int} (ordered : (now :: clock.readings).Pairwise (· ≤ ·)) :
    now ≤ clock.checkedAt ∧ (now :: clock.heartbeats).Pairwise (· ≤ ·) ∧
      ∀ time ∈ now :: clock.heartbeats, time ≤ clock.repliedAt := by
  simp only [Clock.readings, List.cons_append, List.pairwise_cons, List.mem_cons, List.mem_append,
    List.not_mem_nil, or_false, List.pairwise_append] at ordered
  obtain ⟨start, -, beats, -, before⟩ := ordered
  refine ⟨start _ (.inl rfl), List.pairwise_cons.mpr ⟨fun time member => start time (.inr (.inl member)), beats⟩, ?_⟩
  intro time member
  rcases List.mem_cons.mp member with rfl | inside
  · exact start _ (.inr (.inr (.inr rfl)))
  · exact before time inside _ (.inr rfl)

section Runs
variable {runtime : Runtime} {arrives : Delivery → Prop} {handler : Handler}

/-- What concluding an application leaves behind. -/
theorem remembered_conclude {delivery : Delivery} {outbox' : Outbox} {applied : Except Failure ApplyOutcome}
    (fresh : handler.outbox.appliedCommandOutcome delivery.command.id = none)
    (same : (delivery.result, outbox') =
      ((conclude delivery.command delivery.clock handler.outbox applied).1.map
        (·.toResult delivery.command delivery.clock),
        (conclude delivery.command delivery.clock handler.outbox applied).2)) :
    delivery.Remembered outbox' delivery.clock.repliedAt ∧
      (handler.outbox.afterHeartbeats delivery.clock.heartbeats).appliedCommands ⊆ outbox'.appliedCommands := by
  have still : (handler.outbox.afterHeartbeats delivery.clock.heartbeats).appliedCommandOutcome delivery.command.id =
      none := Outbox.appliedCommandOutcome_afterHeartbeats fresh
  obtain ⟨result, rfl⟩ := Prod.mk.inj same
  have recorded : ∀ (success : Bool) (code : Option JsString),
      delivery.Remembered ((handler.outbox.afterHeartbeats delivery.clock.heartbeats).recordAppliedCommand
        delivery.command.id success code delivery.clock.recordedAt) delivery.clock.repliedAt ∧
      (handler.outbox.afterHeartbeats delivery.clock.heartbeats).appliedCommands ⊆
        ((handler.outbox.afterHeartbeats delivery.clock.heartbeats).recordAppliedCommand
          delivery.command.id success code delivery.clock.recordedAt).appliedCommands := by
    intro success code
    refine ⟨.inr (.inr ⟨_, (Outbox.mem_recordAppliedCommand still).mpr (.inr rfl), rfl, rfl⟩), ?_⟩
    exact fun row member => (Outbox.mem_recordAppliedCommand still).mpr (.inl member)
  cases applied with
  | ok outcome => exact recorded _ _
  | error failure =>
    cases failure with
    | sqlApply message number => exact recorded _ _
    | _ => exact ⟨.inl ⟨_, result⟩, List.Subset.refl _⟩

theorem Handler.Sound.deliver (sound : handler.Sound runtime arrives) {delivery : Delivery} {outbox' : Outbox}
    (kind : arrives delivery) (clock : (handler.now :: delivery.clock.readings).Pairwise (· ≤ ·))
    (run : Runs (handleCommand runtime delivery.command delivery.context delivery.clock handler.outbox)
      delivery.transcript (.ok (delivery.result, outbox'))) :
    Handler.Sound runtime arrives {
      outbox := outbox'
      now := delivery.clock.repliedAt
      applied := handler.applied ++ delivery.passing runtime handler.outbox } := by
  obtain ⟨checked, beats, replied⟩ := Clock.order clock
  rcases runs_handleCommand.mp run with ⟨early, closed, -, same⟩ | ⟨passed, applied, -, same⟩
  · -- A gate was closed, and nothing changes but the time.
    obtain ⟨-, rfl⟩ := Prod.mk.inj (Except.ok.inj same)
    have none_ : delivery.passing runtime handler.outbox = [] := by simp [Delivery.passing, closed]
    rw [none_, List.append_nil]
    exact ⟨sound.admitted, fun other member => (sound.remembered other member).later (replied _ List.mem_cons_self),
      sound.apart⟩
  · obtain ⟨admitted, unrecorded⟩ := gates_eq_none.mp passed
    obtain ⟨recorded, keeps⟩ := remembered_conclude unrecorded (Except.ok.inj same)
    have one : delivery.passing runtime handler.outbox = [delivery] := by simp [Delivery.passing, passed]
    rw [one]
    refine ⟨?_, ?_, ?_⟩
    · intro other member
      rcases List.mem_append.mp member with there | here
      · exact sound.admitted other there
      · cases List.mem_singleton.mp here
        exact ⟨kind, admitted⟩
    · intro other member
      rcases List.mem_append.mp member with there | here
      · rcases (sound.remembered other there).beaten beats replied with left | gone | ⟨row, stored, record⟩
        · exact .inl left
        · exact .inr (.inl gone)
        · exact .inr (.inr ⟨row, keeps stored, record⟩)
      · cases List.mem_singleton.mp here
        exact recorded
    · refine List.pairwise_append.mpr ⟨sound.apart, List.pairwise_singleton _ _, ?_⟩
      intro first there second here sameId
      cases List.mem_singleton.mp here
      rcases sound.remembered first there with left | gone | ⟨row, stored, isId, -⟩
      · exact .inl left
      · exact .inr (gone.trans_le checked)
      · -- Its record would have closed the gate.
        rw [Outbox.appliedCommandOutcome_eq_none] at unrecorded
        exact absurd (List.mem_map.mpr ⟨row, stored, isId.trans sameId⟩) unrecorded

theorem Handler.Reachable.sound (reached : handler.Reachable runtime arrives) : handler.Sound runtime arrives := by
  obtain ⟨now, run⟩ := reached
  induction run with
  | refl => exact ⟨by simp [Handler.start], by simp [Handler.start], List.Pairwise.nil⟩
  | tail _ step ih =>
    cases step with
    | deliver delivery kind clock run => exact ih.deliver kind clock run
    | heartbeat now clock => exact ⟨ih.admitted, fun delivery member => (ih.remembered delivery member).pruned clock, ih.apart⟩
    | restart => exact ⟨ih.admitted, ih.remembered, ih.apart⟩

end Runs

/-! The sample command is applied, and comes again with a new time of issue a day later. -/

def laterCommand : Command := { toggleCommand with issuedAt := some { seconds := 1700090000, nanos := 0 } }

def laterClock : Clock where
  checkedAt := 1700090003000
  heartbeats := []
  recordedAt := 1700090004000
  repliedAt := 1700090004000

def toggleDelivery : Delivery where
  command := toggleCommand
  context := toggleContext
  clock := toggleClock
  transcript := toggleTranscript (.ok [])
  result := .ok ((ok none).toResult toggleCommand toggleClock)

def laterDelivery : Delivery where
  command := laterCommand
  context := toggleContext
  clock := laterClock
  transcript := toggleTranscript (.ok [])
  result := .ok ((ok none).toResult laterCommand laterClock)

def prunedOutbox : Outbox := toggleOutbox.pruneAppliedCommands 1700090002000 APPLIED_COMMAND_RETENTION_MS

def toggledTwice : Handler where
  outbox := prunedOutbox.recordAppliedCommand (js "c1") true none laterClock.recordedAt
  now := laterClock.repliedAt
  applied := [toggleDelivery, laterDelivery]

theorem later_passes : gates toggleRuntime laterCommand toggleContext prunedOutbox laterClock.checkedAt = none := by
  decide +kernel

theorem toggledTwice_reachable : toggledTwice.Reachable toggleRuntime fun _ => True := by
  have first : Handler.Step toggleRuntime (fun _ => True) (.start 1700000000000)
      ⟨toggleOutbox, toggleClock.repliedAt, [] ++ toggleDelivery.passing toggleRuntime .empty⟩ :=
    .deliver toggleDelivery trivial (by decide) toggle_handled
  have beat : Handler.Step toggleRuntime (fun _ => True)
      ⟨toggleOutbox, toggleClock.repliedAt, [] ++ toggleDelivery.passing toggleRuntime .empty⟩
      ⟨prunedOutbox, 1700090002000, [] ++ toggleDelivery.passing toggleRuntime .empty⟩ :=
    .heartbeat 1700090002000 (by decide)
  have second : Handler.Step toggleRuntime (fun _ => True)
      ⟨prunedOutbox, 1700090002000, [] ++ toggleDelivery.passing toggleRuntime .empty⟩
      ⟨toggledTwice.outbox, laterClock.repliedAt,
        ([] ++ toggleDelivery.passing toggleRuntime .empty) ++ laterDelivery.passing toggleRuntime prunedOutbox⟩ := by
    refine .deliver laterDelivery trivial (by decide) (runs_handleCommand.mpr (.inr ⟨later_passes, .ok (ok none), ?_, rfl⟩))
    exact .call _ (.call _ (.call _ (.call _ (.call _ (.done _)))))
  have passing : toggleDelivery.passing toggleRuntime .empty = [toggleDelivery] := by
    simp [Delivery.passing, toggleDelivery, toggle_passes]
  have passingLater : laterDelivery.passing toggleRuntime prunedOutbox = [laterDelivery] := by
    simp [Delivery.passing, laterDelivery, later_passes]
  refine ⟨1700000000000, ?_⟩
  have whole := ((Relation.ReflTransGen.single first).tail beat).tail second
  rw [passing, passingLater] at whole
  exact whole

end RemoteSqlAgent
