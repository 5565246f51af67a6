import RemoteSqlAgent.OutboxQueue

/-! Draining the outbox of a worker into its session. Rows are read in batches, and acknowledged
batch by batch; that comes to serving the queue from the front until the session refuses a
message. -/
namespace RemoteSqlAgent
open Js

/-- How many rows a drain reads at once. -/
def OUTBOX_DRAIN_BATCH : Nat := 50

/-- What a drain needs of a session: whether it is connected, and whether it accepts a message. -/
structure DrainTarget (σ Message : Type) where
  connected : σ → Bool
  send : σ → Message → Bool × σ

/-- A session, and what it was handed since the drain began, with its answers. -/
structure Sending (σ Message : Type) where
  session : σ
  attempts : List (Message × Bool)

section Draining
variable {σ Message : Type} (parse : JsString → Option Message) (target : DrainTarget σ Message)

/-- Hand the rows of a batch to the session: the ids to acknowledge, and whether it stopped early.
A row that is not valid JSON is not handed over, and is acknowledged. -/
def sendBatch (sending : Sending σ Message) : List OutboxRow → List Int × Bool × Sending σ Message
  | [] => ([], false, sending)
  | row :: rest =>
    match parse row.payload with
    | none =>
      let (sent, stoppedEarly, after) := sendBatch sending rest
      (row.id :: sent, stoppedEarly, after)
    | some message =>
      let (accepted, session) := target.send sending.session message
      let handed : Sending σ Message := ⟨session, sending.attempts ++ [(message, accepted)]⟩
      if !accepted then ([], true, handed)
      else
        let (sent, stoppedEarly, after) := sendBatch handed rest
        (row.id :: sent, stoppedEarly, after)

/-- The loop of a drain, for so many rounds at most. -/
def drainLoop : Nat → OutboxQueue → Sending σ Message → Option (OutboxQueue × Sending σ Message)
  | 0, _, _ => none
  | rounds + 1, outbox, sending =>
    let batch := outbox.peek OUTBOX_DRAIN_BATCH
    if batch.length = 0 then some (outbox, sending)
    else
      let (sent, stoppedEarly, sending) := sendBatch parse target sending batch
      let outbox := outbox.acknowledge (sent.map some)
      if stoppedEarly then some (outbox, sending) else drainLoop rounds outbox sending

/-- Ship whatever is queued while the session can take it. -/
def drainOutbox (rounds : Nat) (outbox : OutboxQueue) (session : σ) : Option (OutboxQueue × Sending σ Message) :=
  if !target.connected session then some (outbox, ⟨session, []⟩) else drainLoop parse target rounds outbox ⟨session, []⟩

/-! ## Serving the queue -/

/-- Deal with one row: a message is handed over, anything else is dropped. -/
def deal (sending : Sending σ Message) (row : OutboxRow) : Bool × Sending σ Message :=
  match parse row.payload with
  | none => (true, sending)
  | some message =>
    let (accepted, session) := target.send sending.session message
    (accepted, ⟨session, sending.attempts ++ [(message, accepted)]⟩)

/-- The answers a session gives to messages, one after the other. -/
def DrainTarget.answers (session : σ) : List Message → List Bool × σ
  | [] => ([], session)
  | message :: rest =>
    let (accepted, session) := target.send session message
    let (later, session) := DrainTarget.answers session rest
    (accepted :: later, session)

/-- What a session was handed of rows that it let go. -/
def accepted (rows : List OutboxRow) : List (Message × Bool) :=
  rows.filterMap fun row => (parse row.payload).map fun message => (message, true)

variable {parse target} {sending : Sending σ Message} {queue : OutboxQueue} {rows : List OutboxRow}

open BoundedQueue

variable (parse target sending) in
/-- A batch is served from its front, and what was served is acknowledged. -/
theorem sendBatch_serves (batch : List OutboxRow) :
    ∃ done, done ++ (serve (deal parse target) sending batch).1 = batch ∧
    sendBatch parse target sending batch = (done.map (·.id),
      decide ((serve (deal parse target) sending batch).1 ≠ []), (serve (deal parse target) sending batch).2) := by
  induction batch generalizing sending with
  | nil => exact ⟨[], rfl, rfl⟩
  | cons row rest ih =>
    cases parsed : parse row.payload with
    | none =>
      obtain ⟨done, whole, sent⟩ := @ih sending
      refine ⟨row :: done, ?_, ?_⟩
      · simp [serve, deal, parsed, whole]
      · simp [sendBatch, serve, deal, parsed, sent]
    | some message =>
      cases taken : (target.send sending.session message).1 with
      | false => exact ⟨[], by simp [serve, deal, parsed, taken], by simp [sendBatch, serve, deal, parsed, taken]⟩
      | true =>
        obtain ⟨done, whole, sent⟩ :=
          @ih ⟨(target.send sending.session message).2, sending.attempts ++ [(message, true)]⟩
        refine ⟨row :: done, ?_, ?_⟩
        · simp [serve, deal, parsed, taken, whole]
        · simp [sendBatch, serve, deal, parsed, taken, sent]

/-- Acknowledging the rows at the front leaves the others. -/
theorem acknowledge_front {front back : List OutboxRow} (whole : queue.table.rows = front ++ back) :
    (queue.acknowledge ((front.map (·.id)).map some)).table.rows = back := by
  have ordered := queue.table.ordered
  rw [whole] at ordered
  have apart := (List.pairwise_append.mp ordered).2.2
  have bound : none ∉ (front.map (·.id)).map some := by simp
  rw [OutboxQueue.acknowledge_rows, whole, List.filter_append]
  have gone : front.filter (fun row => !OutboxQueue.Acknowledges ((front.map (·.id)).map some) row) = [] := by
    apply List.filter_eq_nil_iff.mpr
    intro row member
    have named : some row.id ∈ (front.map (·.id)).map some := List.mem_map_of_mem (List.mem_map_of_mem member)
    rw [OutboxQueue.Acknowledges, decide_eq_true bound, decide_eq_true named]
    simp
  have kept : back.filter (fun row => !OutboxQueue.Acknowledges ((front.map (·.id)).map some) row) = back := by
    apply List.filter_eq_self.mpr
    intro row member
    have unnamed : some row.id ∉ (front.map (·.id)).map some := by
      intro named
      obtain ⟨id, there, same⟩ := List.mem_map.mp named
      obtain ⟨earlier, before, rfl⟩ := List.mem_map.mp there
      exact absurd (Option.some.inj same) (ne_of_lt (apart earlier before row member))
    rw [OutboxQueue.Acknowledges, decide_eq_false unnamed]
    simp
  rw [gone, kept, List.nil_append]

/-- With a round for every row the loop comes to an end, and batches make no difference. -/
theorem drainLoop_serves (rounds : Nat) : ∀ (queue : OutboxQueue) (sending : Sending σ Message),
    queue.table.rows.length < rounds → ∃ after, drainLoop parse target rounds queue sending = some after ∧
      (after.1.table.rows, after.2) = serve (deal parse target) sending queue.table.rows := by
  induction rounds with
  | zero => intro queue sending enough; omega
  | succ rounds ih =>
    intro queue sending enough
    have split : queue.table.rows = queue.peek OUTBOX_DRAIN_BATCH ++ queue.table.rows.drop OUTBOX_DRAIN_BATCH :=
      (List.take_append_drop _ _).symm
    rw [drainLoop]
    by_cases empty : (queue.peek OUTBOX_DRAIN_BATCH).length = 0
    · have none_ : queue.table.rows = [] := by
        rw [OutboxQueue.peek, List.length_take, OUTBOX_DRAIN_BATCH] at empty
        apply List.eq_nil_of_length_eq_zero
        omega
      refine ⟨(queue, sending), if_pos empty, ?_⟩
      rw [none_]
      rfl
    · obtain ⟨done, batch, sent⟩ := sendBatch_serves parse target sending
        (queue.peek OUTBOX_DRAIN_BATCH)
      rw [if_neg empty, sent]
      by_cases whole : (serve (deal parse target) sending (queue.peek OUTBOX_DRAIN_BATCH)).1 = []
      · rw [whole, List.append_nil] at batch
        have acknowledged : (queue.acknowledge ((done.map (·.id)).map some)).table.rows =
            queue.table.rows.drop OUTBOX_DRAIN_BATCH := by
          apply acknowledge_front
          rw [batch]
          exact split
        have fewer : (queue.acknowledge ((done.map (·.id)).map some)).table.rows.length < rounds := by
          rw [OutboxQueue.peek, List.length_take] at empty
          rw [acknowledged, List.length_drop]
          omega
        obtain ⟨after, loop, same⟩ := ih _ (serve (deal parse target) sending (queue.peek OUTBOX_DRAIN_BATCH)).2 fewer
        refine ⟨after, by simpa [whole] using loop, ?_⟩
        rw [same, acknowledged]
        conv_rhs => rw [split]
        exact (serve_append whole _).symm
      · have acknowledged : (queue.acknowledge ((done.map (·.id)).map some)).table.rows =
            (serve (deal parse target) sending (queue.peek OUTBOX_DRAIN_BATCH)).1 ++
              queue.table.rows.drop OUTBOX_DRAIN_BATCH := by
          apply acknowledge_front
          rw [← List.append_assoc, batch]
          exact split
        refine ⟨(queue.acknowledge ((done.map (·.id)).map some),
          (serve (deal parse target) sending (queue.peek OUTBOX_DRAIN_BATCH)).2), by simp [whole], ?_⟩
        rw [acknowledged]
        conv_rhs => rw [split]
        exact (serve_append_of_refused whole _).symm

/-- More rounds make no difference to a loop that ends. -/
theorem drainLoop_more {rounds more : Nat} (le : rounds ≤ more) {queue : OutboxQueue} {sending : Sending σ Message}
    {after : OutboxQueue × Sending σ Message} (ends : drainLoop parse target rounds queue sending = some after) :
    drainLoop parse target more queue sending = some after := by
  induction rounds generalizing more queue sending with
  | zero => cases ends
  | succ rounds ih =>
    obtain ⟨more, rfl⟩ : ∃ fewer, more = fewer + 1 := ⟨more - 1, by omega⟩
    rw [drainLoop] at ends ⊢
    by_cases empty : (queue.peek OUTBOX_DRAIN_BATCH).length = 0
    · rwa [if_pos empty] at ends ⊢
    · rw [if_neg empty] at ends ⊢
      cases stopped : (sendBatch parse target sending (queue.peek OUTBOX_DRAIN_BATCH)).2.1 with
      | true => simpa [stopped] using ends
      | false =>
        simp only [stopped, Bool.false_eq_true, if_false] at ends ⊢
        exact ih (by omega) ends

/-- What serving hands to the session: a message for every row it lets go that holds one, and the
message that is refused. -/
theorem serve_deal (rows : List OutboxRow) : ∀ sending : Sending σ Message, ∃ removed handed,
    rows = removed ++ (serve (deal parse target) sending rows).1 ∧
      (serve (deal parse target) sending rows).2.attempts = sending.attempts ++ handed ∧
      target.answers sending.session (handed.map Prod.fst) =
        (handed.map Prod.snd, (serve (deal parse target) sending rows).2.session) ∧
      (((serve (deal parse target) sending rows).1 = [] ∧ handed = accepted parse removed) ∨
        ∃ row message later, (serve (deal parse target) sending rows).1 = row :: later ∧
          parse row.payload = some message ∧ handed = accepted parse removed ++ [(message, false)]) := by
  induction rows with
  | nil =>
    intro sending
    exact ⟨[], [], rfl, by simp [serve], rfl, .inl ⟨rfl, rfl⟩⟩
  | cons row rest ih =>
    intro sending
    cases parsed : parse row.payload with
    | none =>
      have same : serve (deal parse target) sending (row :: rest) = serve (deal parse target) sending rest := by
        simp [serve, deal, parsed]
      have unsent : ∀ rows, accepted parse (row :: rows) = accepted parse rows := by
        intro rows
        simp [accepted, parsed]
      obtain ⟨removed, handed, whole, attempts, answers, ends⟩ := ih sending
      refine ⟨row :: removed, handed, ?_, same ▸ attempts, same ▸ answers, ?_⟩
      · rw [same, List.cons_append, ← whole]
      · rw [same, unsent]
        exact ends
    | some message =>
      cases taken : (target.send sending.session message).1 with
      | false =>
        have same : serve (deal parse target) sending (row :: rest) =
            (row :: rest, ⟨(target.send sending.session message).2, sending.attempts ++ [(message, false)]⟩) := by
          simp [serve, deal, parsed, taken]
        refine ⟨[], [(message, false)], by simp [same], by rw [same], ?_, .inr ⟨row, message, rest, ?_, parsed, rfl⟩⟩
        · simp [same, DrainTarget.answers, taken]
        · rw [same]
      | true =>
        have same : serve (deal parse target) sending (row :: rest) = serve (deal parse target)
            ⟨(target.send sending.session message).2, sending.attempts ++ [(message, true)]⟩ rest := by
          simp [serve, deal, parsed, taken]
        have sent : ∀ rows, accepted parse (row :: rows) = (message, true) :: accepted parse rows := by
          intro rows
          simp [accepted, parsed]
        obtain ⟨removed, handed, whole, attempts, answers, ends⟩ :=
          ih ⟨(target.send sending.session message).2, sending.attempts ++ [(message, true)]⟩
        refine ⟨row :: removed, (message, true) :: handed, ?_, ?_, ?_, ?_⟩
        · rw [same, List.cons_append, ← whole]
        · rw [same, attempts, List.append_assoc]
          rfl
        · simp [same, DrainTarget.answers, taken, answers]
        · rw [same, sent]
          obtain ⟨empty, all⟩ | ⟨first, refused, later, left, holds, all⟩ := ends
          · exact .inl ⟨empty, by rw [all]⟩
          · exact .inr ⟨first, refused, later, left, holds, by rw [all]; rfl⟩

/-- **A drain removes what was sent.** With a session that is connected it comes to an end, and
takes rows from the front of the queue. Of these the session was handed each message once, in
order, and accepted it; rows that hold no message went without being sent. If rows are left, the
message of the first was refused, and nothing was handed over after it. -/
theorem drainOutbox_removes_sent (queue : OutboxQueue) (session : σ) (connected : target.connected session = true) :
    ∃ after : OutboxQueue × Sending σ Message, ∃ removed,
      (∀ rounds, queue.table.rows.length < rounds → drainOutbox parse target rounds queue session = some after) ∧
      queue.table.rows = removed ++ after.1.table.rows ∧
      target.answers session (after.2.attempts.map Prod.fst) = (after.2.attempts.map Prod.snd, after.2.session) ∧
      ((after.1.table.rows = [] ∧ after.2.attempts = accepted parse removed) ∨
        ∃ row message later, after.1.table.rows = row :: later ∧ parse row.payload = some message ∧
          after.2.attempts = accepted parse removed ++ [(message, false)]) := by
  obtain ⟨after, ends, served⟩ :=
    @drainLoop_serves _ _ parse target (queue.table.rows.length + 1) queue ⟨session, []⟩ (by omega)
  obtain ⟨rows, rest⟩ := Prod.ext_iff.mp served
  obtain ⟨removed, handed, whole, attempts, answers, left⟩ :=
    @serve_deal _ _ parse target queue.table.rows ⟨session, []⟩
  rw [← rows] at whole left
  rw [← rest] at attempts answers
  rw [List.nil_append] at attempts
  refine ⟨after, removed, fun rounds enough => ?_, whole, ?_, ?_⟩
  · rw [drainOutbox, connected]
    exact drainLoop_more enough ends
  · rw [attempts]
    exact answers
  · rw [attempts]
    exact left

end Draining

/-- A session with room for so many messages. -/
def roomyTarget : DrainTarget Nat JsString where
  connected _ := true
  send room _ := (decide (0 < room), room - 1)

/-- A message, a row that holds none, and two messages. -/
def mixedOutbox : OutboxQueue :=
  [[1], [], [2], [3]].foldl (fun queue payload => queue.enqueue .history [] payload 0) (.opened .empty 100)

/-- Text that is not empty, as itself. -/
def nonEmpty (payload : JsString) : Option JsString := if payload = [] then none else some payload

theorem drainOutbox_removes_sent_roomy :
    ((drainOutbox nonEmpty roomyTarget 5 mixedOutbox 2).map fun after =>
        (after.1.table.rows.map (·.id), after.2.attempts)) = some ([4], [([1], true), ([2], true), ([3], false)]) ∧
      ∃ after : OutboxQueue × Sending Nat JsString, ∃ removed,
        (∀ rounds, mixedOutbox.table.rows.length < rounds →
          drainOutbox nonEmpty roomyTarget rounds mixedOutbox 2 = some after) ∧
        mixedOutbox.table.rows = removed ++ after.1.table.rows := by
  refine ⟨by decide +kernel, ?_⟩
  obtain ⟨after, removed, ends, whole, -⟩ :=
    @drainOutbox_removes_sent Nat JsString nonEmpty roomyTarget mixedOutbox 2 rfl
  exact ⟨after, removed, ends, whole⟩

end RemoteSqlAgent
