import Mathlib.Data.Multiset.Lattice
import Mathlib.Order.Lattice.Nat
import Mathlib.Order.WithBot
import RemoteSqlAgent.AlertThrottle

/-! Which deliveries the fan-out of an event queues. The accumulated map holds, for each
channel that a matching rule names, the shortest window of those rules, so what is queued is
a join over the rules in any order. That is so as long as each channel that is named is
there: at one that is not the fan-out stops. -/
namespace RemoteSqlAgent
open Js CallProgram

section Windows
variable (table : CaseTable) (input : RecordEventInput)

/-- A rule that matches an event names a channel for it. -/
def NotificationRule.Names (rule : NotificationRule) (channelId : JsString) : Prop :=
  rule.Matches table input ∧ channelId ∈ rule.channelIds

instance (rule : NotificationRule) (channelId : JsString) : Decidable (rule.Names table input channelId) :=
  instDecidableAnd

/-- The window a rule gives a channel. A rule that does not name it gives none, which is the
longest. -/
def NotificationRule.window (rule : NotificationRule) (channelId : JsString) : WithTop ℕ :=
  if rule.Names table input channelId then rule.throttleMinutes else ⊤

/-- The shortest window that the rules give a channel. -/
def shortest (rules : List NotificationRule) (channelId : JsString) : WithTop ℕ :=
  ((rules : Multiset NotificationRule).map fun rule => rule.window table input channelId).inf

end Windows

/-- The window of a channel in the accumulated map. -/
def windowOf (targets : JsMap Target) (channelId : JsString) : WithTop ℕ :=
  (targets.get channelId).elim ⊤ fun target => (target.throttleMinutes : WithTop ℕ)

section Accumulating
variable {table : CaseTable} {input : RecordEventInput} {rule : NotificationRule} {rules fewer : List NotificationRule}
  {targets : JsMap Target} {channelId other : JsString}

theorem shortest_cons (rule : NotificationRule) (rules : List NotificationRule) (channelId : JsString) :
    shortest table input (rule :: rules) channelId =
      rule.window table input channelId ⊓ shortest table input rules channelId := by
  rw [shortest, ← Multiset.cons_coe, Multiset.map_cons, Multiset.inf_cons]
  rfl

theorem windowOf_addTarget (rule : NotificationRule) (targets : JsMap Target) (channelId other : JsString) :
    windowOf (addTarget rule targets channelId) other =
      windowOf targets other ⊓ if channelId = other then (rule.throttleMinutes : WithTop ℕ) else ⊤ := by
  by_cases same : channelId = other
  · subst same
    rw [if_pos rfl, addTarget, windowOf, windowOf]
    cases found : targets.get channelId with
    | none => simp
    | some existing =>
      dsimp only
      by_cases shorter : rule.throttleMinutes < existing.throttleMinutes
      · rw [if_pos shorter, JsMap.get_set, if_pos rfl]
        exact (inf_eq_right.mpr (WithTop.coe_le_coe.mpr shorter.le)).symm
      · rw [if_neg shorter, found]
        exact (inf_eq_left.mpr (WithTop.coe_le_coe.mpr (not_lt.mp shorter))).symm
  · rw [if_neg same, inf_top_eq, addTarget, windowOf, windowOf]
    cases targets.get channelId with
    | none =>
      dsimp only
      rw [JsMap.get_set, if_neg same]
    | some existing =>
      dsimp only
      split
      · rw [JsMap.get_set, if_neg same]
      · rfl

theorem windowOf_addTargets (rule : NotificationRule) (channelIds : List JsString) (targets : JsMap Target)
    (channelId : JsString) :
    windowOf (channelIds.foldl (addTarget rule) targets) channelId =
      windowOf targets channelId ⊓ if channelId ∈ channelIds then (rule.throttleMinutes : WithTop ℕ) else ⊤ := by
  induction channelIds generalizing targets with
  | nil => simp
  | cons first rest ih =>
    rw [List.foldl_cons, ih, windowOf_addTarget, inf_assoc]
    congr 1
    by_cases here : first = channelId
    · subst here
      by_cases again : first ∈ rest <;> simp [again]
    · simp [here, Ne.symm here]

/-- The map that the rules accumulate has the shortest window of each channel. -/
theorem windowOf_matchRules (rules : List NotificationRule) (channelId : JsString) :
    windowOf (matchRules table rules input) channelId = shortest table input rules channelId := by
  have run : ∀ targets : JsMap Target,
      windowOf (rules.foldl (fun targets rule =>
        if rule.Matches table input then rule.channelIds.foldl (addTarget rule) targets else targets) targets)
          channelId =
        windowOf targets channelId ⊓ shortest table input rules channelId := by
    induction rules with
    | nil =>
      intro targets
      exact (inf_top_eq _).symm
    | cons rule rest ih =>
      intro targets
      rw [List.foldl_cons, ih, shortest_cons, ← inf_assoc]
      congr 1
      by_cases matching : rule.Matches table input
      · rw [if_pos matching, windowOf_addTargets]
        simp only [NotificationRule.window, NotificationRule.Names, matching, true_and]
      · rw [if_neg matching]
        simp [NotificationRule.window, NotificationRule.Names, matching]
  exact (run []).trans (top_inf_eq _)

theorem shortest_le (member : rule ∈ rules) (names : rule.Names table input channelId) :
    shortest table input rules channelId ≤ rule.throttleMinutes := by
  have own : rule.window table input channelId = rule.throttleMinutes := if_pos names
  rw [← own]
  exact Multiset.inf_le (Multiset.mem_map_of_mem _ member)

/-- Where some rule names a channel, its shortest window is that of one of them. -/
theorem shortest_attained (rules : List NotificationRule) :
    shortest table input rules channelId = ⊤ ∨ ∃ rule ∈ rules, rule.Names table input channelId ∧
      shortest table input rules channelId = rule.throttleMinutes := by
  induction rules with
  | nil => exact .inl rfl
  | cons rule rest ih =>
    rw [shortest_cons]
    have later : shortest table input rest channelId = ⊤ ∨ ∃ other ∈ rule :: rest,
        other.Names table input channelId ∧ shortest table input rest channelId = other.throttleMinutes := by
      refine ih.imp_right ?_
      rintro ⟨other, member, names⟩
      exact ⟨other, List.mem_cons_of_mem _ member, names⟩
    by_cases names : rule.Names table input channelId
    · have own : rule.window table input channelId = rule.throttleMinutes := if_pos names
      rcases le_total (rule.window table input channelId) (shortest table input rest channelId) with first | second
      · rw [inf_eq_left.mpr first]
        exact .inr ⟨rule, List.mem_cons_self, names, own⟩
      · rw [inf_eq_right.mpr second]
        exact later
    · rw [NotificationRule.window, if_neg names, top_inf_eq]
      exact later

/-- The shortest window is the least of those of the rules that name the channel. -/
theorem shortest_eq_iff {minutes : ℕ} : shortest table input rules channelId = minutes ↔
    IsLeast {minutes | ∃ rule ∈ rules, rule.Names table input channelId ∧ rule.throttleMinutes = minutes} minutes := by
  constructor
  · intro same
    rcases shortest_attained rules with none_ | ⟨rule, member, names, attained⟩
    · exact absurd (none_.symm.trans same) (WithTop.top_ne_coe)
    · refine ⟨⟨rule, member, names, WithTop.coe_inj.mp (attained.symm.trans same)⟩, ?_⟩
      rintro _ ⟨other, there, also, rfl⟩
      have below := shortest_le there also
      rw [same] at below
      exact WithTop.coe_le_coe.mp below
  · rintro ⟨⟨rule, member, names, rfl⟩, least⟩
    have below := shortest_le member names
    rcases shortest_attained rules with none_ | ⟨other, there, also, attained⟩
    · rw [none_] at below
      exact absurd (top_le_iff.mp below) WithTop.coe_ne_top
    · rw [attained] at below ⊢
      exact WithTop.coe_inj.mpr (le_antisymm (WithTop.coe_le_coe.mp below) (least ⟨other, there, also, rfl⟩))

theorem nodup_addTarget (rule : NotificationRule) (distinct : targets.keys.Nodup) (channelId : JsString) :
    (addTarget rule targets channelId).keys.Nodup := by
  unfold addTarget
  split
  · exact JsMap.nodup_set distinct _ _
  · split
    · exact JsMap.nodup_set distinct _ _
    · exact distinct

theorem nodup_matchRules (rules : List NotificationRule) : (matchRules table rules input).keys.Nodup := by
  refine List.foldlRecOn (motive := fun targets : JsMap Target => targets.keys.Nodup) rules _ List.nodup_nil
    fun targets distinct rule _ => ?_
  split
  · exact List.foldlRecOn (motive := fun targets : JsMap Target => targets.keys.Nodup) rule.channelIds _ distinct
      fun targets distinct channelId _ => nodup_addTarget rule distinct channelId
  · exact distinct

end Accumulating

/-! ## What is queued -/

namespace AlertStore
variable {table : CaseTable} {store after : AlertStore} {input : RecordEventInput}
  {sends : NotificationChannel → RecordEventInput → Except Thrown Unit} {channelId throttleKey : JsString}

/-- Some longer window catches what a shorter one does. -/
theorem RecentlySent.mono {minutes longer : ℕ} (sent : store.RecentlySent channelId throttleKey minutes)
    (within : minutes ≤ longer) : store.RecentlySent channelId throttleKey longer := by
  obtain ⟨delivery, member, channel, key, isSent, sentAt, at_, recent⟩ := sent
  refine ⟨delivery, member, channel, key, isSent, sentAt, at_, le_trans ?_ recent⟩
  have wider : window minutes ≤ window longer := by
    unfold window
    omega
  omega

/-- A delivery that is queued is not sent yet. -/
theorem queued_add (eventId : ℕ) (delivery : NotificationDelivery) (free : ¬ store.deliveries.Holds delivery.key)
    (unsent : delivery.state ≠ .sent) (target : Target) :
    ({ store with deliveries := store.deliveries.add delivery free } : AlertStore).queued eventId throttleKey channelId
      target = store.queued eventId throttleKey channelId target := by
  have same : ({ store with deliveries := store.deliveries.add delivery free } : AlertStore).RecentlySent channelId
      throttleKey target.throttleMinutes ↔ store.RecentlySent channelId throttleKey target.throttleMinutes := by
    constructor
    · rintro ⟨other, member, channel, key, isSent, recent⟩
      rcases List.mem_append.mp member with before | new
      · exact ⟨other, before, channel, key, isSent, recent⟩
      · exact absurd (List.mem_singleton.mp new ▸ isSent) unsent
    · rintro ⟨other, member, rest⟩
      exact ⟨other, List.mem_append_left _ member, rest⟩
  simp only [queued, same]

theorem queued_unsent (store : AlertStore) (eventId : ℕ) (throttleKey channelId : JsString) (target : Target) :
    (store.queued eventId throttleKey channelId target).state ≠ .sent := by
  unfold queued
  dsimp only
  split
  · exact NotificationDeliveryState.noConfusion
  · exact NotificationDeliveryState.noConfusion

/-- One delivery is queued for each target, if the channels are there and have none. -/
theorem queueAll_rows (sends : NotificationChannel → RecordEventInput → Except Thrown Unit) {eventId : ℕ}
    {targets : JsMap Target} (wired : ∀ channelId ∈ targets.keys, store.HasChannel channelId)
    (distinct : targets.keys.Nodup) (free : ∀ channelId ∈ targets.keys, ¬ store.deliveries.Holds (eventId, channelId)) :
    (store.queueAll sends eventId throttleKey targets).2.deliveries.rows =
      store.deliveries.rows ++ targets.map fun target => store.queued eventId throttleKey target.1 target.2 := by
  induction targets generalizing store with
  | nil => exact (List.append_nil _).symm
  | cons target rest ih =>
    obtain ⟨fresh, distinct⟩ := List.nodup_cons.mp distinct
    have absent : ¬ store.deliveries.Holds (store.queued eventId throttleKey target.1 target.2).key :=
      free target.1 List.mem_cons_self
    have there : store.HasChannel (store.queued eventId throttleKey target.1 target.2).channelId :=
      wired target.1 List.mem_cons_self
    have inserted : store.insertDelivery (store.queued eventId throttleKey target.1 target.2) =
        (.ok (), { store with
          deliveries := store.deliveries.add (store.queued eventId throttleKey target.1 target.2) absent }) := by
      rw [insertDelivery, dif_neg absent, if_pos there]
    rw [queueAll_cons inserted, ih]
    · simp only [queued_add eventId _ absent (queued_unsent store _ _ _ _), KeyedTable.rows_add, List.map_cons,
        List.append_assoc, List.singleton_append]
    · exact fun channelId member => wired channelId (List.mem_cons_of_mem _ member)
    · exact distinct
    · intro channelId member held
      rcases (KeyedTable.holds_add absent).mp held with before | new
      · exact free channelId (List.mem_cons_of_mem _ member) before
      · have same : channelId = target.1 := (Prod.mk.inj new).2
        exact fresh (same ▸ member)

/-- The channels that an event is queued for, with the states its deliveries get. -/
def queuedFor (table : CaseTable) (sends : NotificationChannel → RecordEventInput → Except Thrown Unit)
    (store : AlertStore) (input : RecordEventInput) : Set (JsString × NotificationDeliveryState) :=
  {entry | ∃ delivery ∈ (perform (respond sends) store (recordEvent table input)).2.deliveries,
    delivery.eventId = store.events.rows.length ∧ (delivery.channelId, delivery.state) = entry}

/-- The state of a delivery whose shortest window is this long. -/
def stateFor (store : AlertStore) (channelId throttleKey : JsString) (minutes : ℕ) : NotificationDeliveryState :=
  if 0 < minutes ∧ store.RecentlySent channelId throttleKey minutes then .suppressed else .pending

/-- The rules that are enabled. -/
def enabledRules (store : AlertStore) : List NotificationRule := store.rules.filter (·.enabled)

theorem wired_iff : store.Wired table input ↔
    ∀ rule ∈ store.enabledRules, ∀ channelId, rule.Names table input channelId → store.HasChannel channelId := by
  unfold Wired
  simp only [targets, mem_matchRules]
  constructor
  · intro wired rule member channelId names
    exact wired channelId ⟨rule, member, names⟩
  · rintro wired channelId ⟨rule, member, names⟩
    exact wired rule member channelId names

/-- Whatever is queued, is queued for a channel that is there. -/
theorem hasChannel_of_queued (sends : NotificationChannel → RecordEventInput → Except Thrown Unit) {eventId : ℕ}
    {targets : JsMap Target}
    (fine : ∀ channelId, store.deliveries.Holds (eventId, channelId) → store.HasChannel channelId)
    (held : (store.queueAll sends eventId throttleKey targets).2.deliveries.Holds (eventId, channelId)) :
    store.HasChannel channelId := by
  induction targets generalizing store with
  | nil => exact fine channelId held
  | cons target rest ih =>
    have holds := holds_insertDelivery store (store.queued eventId throttleKey target.1 target.2)
    have records := records_insertDelivery store (store.queued eventId throttleKey target.1 target.2)
    cases inserted : store.insertDelivery (store.queued eventId throttleKey target.1 target.2) with
    | mk ended after =>
      rw [inserted] at holds records
      have still : ∀ channelId, after.deliveries.Holds (eventId, channelId) → store.HasChannel channelId := by
        intro channelId isHeld
        rcases (holds _).mp isHeld with before | ⟨same, there⟩
        · exact fine channelId before
        · have own : channelId = target.1 := (Prod.mk.inj same).2
          exact own ▸ there
      cases ended with
      | error thrown =>
        rw [queueAll_cons_error inserted] at held
        exact still channelId held
      | ok =>
        rw [queueAll_cons inserted] at held
        exact records.hasChannel.mp (ih (fun channelId isHeld => records.hasChannel.mpr (still channelId isHeld)) held)

/-- The deliveries of a new event, if the channels that are named are there. -/
theorem mem_queuedFor (sends : NotificationChannel → RecordEventInput → Except Thrown Unit)
    (fresh : ¬ store.events.Holds input.dedupeKey) (referenced : store.Referenced) (wired : store.Wired table input)
    {state : NotificationDeliveryState} : (channelId, state) ∈ store.queuedFor table sends input ↔
      ∃ minutes : ℕ, shortest table input store.enabledRules channelId = minutes ∧
        store.stateFor channelId input.throttleKey minutes = state := by
  have distinct : (store.targets table input).keys.Nodup := nodup_matchRules store.enabledRules
  have unused : ∀ delivery ∈ store.deliveries, delivery.eventId ≠ store.events.rows.length :=
    fun delivery member => (referenced delivery member).ne
  have free : ∀ channelId ∈ (store.targets table input).keys,
      ¬ (store.withEvent input fresh).deliveries.Holds (store.events.rows.length, channelId) := by
    intro channelId _ held
    obtain ⟨delivery, member, same⟩ := KeyedTable.holds_iff.mp held
    exact unused delivery member (Prod.mk.inj same).1
  have rows : ((store.withEvent input fresh).queueAll sends store.events.rows.length input.throttleKey
      (store.targets table input)).2.deliveries.rows = _ := queueAll_rows sends wired distinct free
  have windows : ∀ minutes : ℕ, shortest table input store.enabledRules channelId = minutes ↔
      ∃ target, (channelId, target) ∈ store.targets table input ∧ target.throttleMinutes = minutes := by
    intro minutes
    rw [← windowOf_matchRules, windowOf]
    simp only [JsMap.mem_iff_get distinct]
    change ((store.targets table input).get channelId).elim ⊤ _ = _ ↔ _
    cases (store.targets table input).get channelId with
    | none => simp
    | some target => simp
  simp only [queuedFor, Set.mem_ofPred_eq, perform_recordEvent_new fresh, KeyedTable.mem_iff, rows, List.mem_append,
    windows]
  constructor
  · rintro ⟨delivery, old | new, own, same⟩
    · exact absurd own (unused delivery old)
    · obtain ⟨target, member, rfl⟩ := List.mem_map.mp new
      obtain ⟨isChannel, isState⟩ := Prod.mk.inj same
      exact ⟨_, ⟨target.2, isChannel ▸ member, rfl⟩, isChannel ▸ isState⟩
  · rintro ⟨_, ⟨target, member, rfl⟩, rfl⟩
    exact ⟨_, .inr (List.mem_map_of_mem member), rfl, rfl⟩

/-! ## The join -/

def withRules (store : AlertStore) (rules : List NotificationRule) : AlertStore := { store with rules := rules }

/-- The same rules in some order, each with its channels in some order. -/
def Reordered (rules others : List NotificationRule) : Prop :=
  ∃ shuffled, rules.Perm shuffled ∧ List.Forall₂ (fun rule other : NotificationRule =>
    ∃ channelIds, rule.channelIds.Perm channelIds ∧ other = { rule with channelIds := channelIds }) shuffled others

/-- What an event is queued for is a join over the rules. -/
structure JoinsRules (table : CaseTable) (sends : NotificationChannel → RecordEventInput → Except Thrown Unit)
    (store : AlertStore) (input : RecordEventInput) : Prop where
  unordered : ∀ rules, Reordered store.rules rules →
    (store.withRules rules).queuedFor table sends input = store.queuedFor table sends input
  states : ∀ entry ∈ store.queuedFor table sends input, entry.2 = .pending ∨ entry.2 = .suppressed
  one : ∀ channelId, (∃! delivery, delivery ∈ (perform (respond sends) store (recordEvent table input)).2.deliveries ∧
      delivery.eventId = store.events.rows.length ∧ delivery.channelId = channelId) ↔
    ∃ rule ∈ store.enabledRules, rule.Names table input channelId
  suppressed : ∀ channelId minutes, IsLeast {minutes | ∃ rule ∈ store.enabledRules,
      rule.Names table input channelId ∧ rule.throttleMinutes = minutes} minutes →
    ((channelId, .suppressed) ∈ store.queuedFor table sends input ↔
      0 < minutes ∧ store.RecentlySent channelId input.throttleKey minutes)
  added : ∀ rule fewer, store.rules.Perm (rule :: fewer) → ∀ channelId,
    (channelId, .pending) ∈ (store.withRules fewer).queuedFor table sends input →
      (channelId, .pending) ∈ store.queuedFor table sends input

theorem shortest_perm {rules others : List NotificationRule} (perm : rules.Perm others) (channelId : JsString) :
    shortest table input rules channelId = shortest table input others channelId := by
  rw [shortest, shortest, Multiset.coe_eq_coe.mpr perm]

theorem names_reordered {rule : NotificationRule} {channelIds : List JsString} (perm : rule.channelIds.Perm channelIds)
    (channelId : JsString) :
    ({ rule with channelIds := channelIds } : NotificationRule).Names table input channelId ↔
      rule.Names table input channelId :=
  and_congr Iff.rfl perm.symm.mem_iff

/-- The shortest windows do not depend on the order of the rules or of their channels. -/
theorem shortest_reordered {rules : List NotificationRule} (reordered : Reordered store.rules rules)
    (channelId : JsString) :
    shortest table input (store.withRules rules).enabledRules channelId =
      shortest table input store.enabledRules channelId := by
  obtain ⟨shuffled, perm, each⟩ := reordered
  refine Eq.trans ?_ (shortest_perm (perm.filter _) channelId).symm
  unfold enabledRules withRules
  dsimp only
  clear perm
  induction each with
  | nil => rfl
  | @cons rule other rest others same _ ih =>
    obtain ⟨channelIds, perm, rfl⟩ := same
    have window : ({ rule with channelIds := channelIds } : NotificationRule).window table input channelId =
        rule.window table input channelId := by
      simp only [NotificationRule.window, names_reordered perm]
    rw [List.filter_cons, List.filter_cons]
    split
    · rw [shortest_cons, shortest_cons, ih, window]
    · exact ih

theorem wired_of_names {others : List NotificationRule} (wired : store.Wired table input)
    (named : ∀ channelId, shortest table input (store.withRules others).enabledRules channelId ≠ ⊤ →
      shortest table input store.enabledRules channelId ≠ ⊤) :
    (store.withRules others).Wired table input := by
  rw [wired_iff] at wired ⊢
  intro rule member channelId names
  have below := shortest_le member names
  have finite : shortest table input store.enabledRules channelId ≠ ⊤ := named channelId fun none_ => by
    rw [none_] at below
    exact WithTop.coe_ne_top (top_le_iff.mp below)
  rcases shortest_attained store.enabledRules with none_ | ⟨other, there, also, -⟩
  · exact absurd none_ finite
  · exact wired other there channelId also

/-- A shorter window suppresses nothing that a longer one lets through. -/
theorem stateFor_pending {minutes shorter : ℕ} (within : shorter ≤ minutes)
    (isPending : store.stateFor channelId throttleKey minutes = .pending) :
    store.stateFor channelId throttleKey shorter = .pending := by
  unfold stateFor at isPending ⊢
  rw [if_neg]
  rintro ⟨positive, sent⟩
  rw [if_pos ⟨positive.trans_le within, sent.mono within⟩] at isPending
  cases isPending

section Wired
variable (sends : NotificationChannel → RecordEventInput → Except Thrown Unit)
  (fresh : ¬ store.events.Holds input.dedupeKey) (referenced : store.Referenced)
include fresh referenced

theorem queuedFor_reordered (wired : store.Wired table input) {rules : List NotificationRule}
    (reordered : Reordered store.rules rules) :
    (store.withRules rules).queuedFor table sends input = store.queuedFor table sends input := by
  have same : ∀ channelId, shortest table input (store.withRules rules).enabledRules channelId = _ :=
    fun channelId => shortest_reordered reordered channelId
  have still : (store.withRules rules).Wired table input :=
    wired_of_names wired fun channelId finite => same channelId ▸ finite
  ext ⟨channelId, state⟩
  rw [mem_queuedFor sends fresh referenced wired, ← same]
  exact @mem_queuedFor table (store.withRules rules) input channelId sends fresh referenced still state

/-- A channel has one delivery of a new event if a rule names it. -/
theorem one_iff_named (wired : store.Wired table input) (channelId : JsString) :
    (∃! delivery, delivery ∈ (perform (respond sends) store (recordEvent table input)).2.deliveries ∧
      delivery.eventId = store.events.rows.length ∧ delivery.channelId = channelId) ↔
    ∃ rule ∈ store.enabledRules, rule.Names table input channelId := by
  constructor
  · rintro ⟨delivery, ⟨member, own, same⟩, -⟩
    obtain ⟨minutes, window, -⟩ := (mem_queuedFor sends fresh referenced wired).mp
      (show (channelId, delivery.state) ∈ store.queuedFor table sends input from
        ⟨delivery, member, own, by rw [same]⟩)
    obtain ⟨rule, there, names, -⟩ := (shortest_eq_iff.mp window).1
    exact ⟨rule, there, names⟩
  · rintro ⟨rule, there, names⟩
    have finite : shortest table input store.enabledRules channelId ≠ ⊤ :=
      ne_top_of_le_ne_top WithTop.coe_ne_top (shortest_le there names)
    obtain ⟨minutes, window⟩ := WithTop.ne_top_iff_exists.mp finite
    obtain ⟨delivery, member, own, same⟩ :=
      (mem_queuedFor sends fresh referenced wired).mpr ⟨minutes, window.symm, rfl⟩
    have isChannel := (Prod.mk.inj same).1
    refine ⟨delivery, ⟨member, own, isChannel⟩, ?_⟩
    rintro other ⟨also, alsoOwn, alsoChannel⟩
    exact KeyedTable.eq_of_key also member (Prod.ext (alsoOwn.trans own.symm) (alsoChannel.trans isChannel.symm))

theorem suppressed_iff (wired : store.Wired table input) {minutes : ℕ}
    (window : shortest table input store.enabledRules channelId = minutes) :
    (channelId, .suppressed) ∈ store.queuedFor table sends input ↔
      0 < minutes ∧ store.RecentlySent channelId input.throttleKey minutes := by
  rw [mem_queuedFor sends fresh referenced wired]
  constructor
  · rintro ⟨other, isOther, state⟩
    have same : minutes = other := WithTop.coe_inj.mp (window.symm.trans isOther)
    subst same
    by_contra through
    rw [stateFor, if_neg through] at state
    cases state
  · exact fun throttled => ⟨minutes, window, if_pos throttled⟩

theorem pending_of_fewer (wired : store.Wired table input) {rule : NotificationRule} {fewer : List NotificationRule}
    (perm : store.rules.Perm (rule :: fewer))
    (isPending : (channelId, .pending) ∈ (store.withRules fewer).queuedFor table sends input) :
    (channelId, .pending) ∈ store.queuedFor table sends input := by
  have sublist : (store.withRules fewer).enabledRules.Sublist ((rule :: fewer).filter (·.enabled)) :=
    (List.sublist_cons_self rule fewer).filter _
  have inside : ∀ other ∈ (store.withRules fewer).enabledRules, other ∈ store.enabledRules :=
    fun other member => (perm.filter _).mem_iff.mpr (sublist.subset member)
  have still : (store.withRules fewer).Wired table input := by
    rw [wired_iff] at wired ⊢
    exact fun other member => wired other (inside other member)
  obtain ⟨minutes, window, state⟩ :=
    (@mem_queuedFor table (store.withRules fewer) input channelId sends fresh referenced still .pending).mp isPending
  obtain ⟨other, there, names, rfl⟩ := (shortest_eq_iff.mp window).1
  have below := shortest_le (inside other there) names
  obtain ⟨shorter, isShorter⟩ := WithTop.ne_top_iff_exists.mp (ne_top_of_le_ne_top WithTop.coe_ne_top below)
  refine (mem_queuedFor sends fresh referenced wired).mpr ⟨shorter, isShorter.symm, ?_⟩
  rw [← isShorter] at below
  exact stateFor_pending (WithTop.coe_le_coe.mp below) state

end Wired

/-- **Rule fan-out is a join over the rules, exactly if each channel that a matching rule
names is there.** -/
theorem fanOut_joins_iff (sends : NotificationChannel → RecordEventInput → Except Thrown Unit)
    (fresh : ¬ store.events.Holds input.dedupeKey) (referenced : store.Referenced) :
    store.JoinsRules table sends input ↔ store.Wired table input := by
  constructor
  · intro joins
    rw [wired_iff]
    intro rule member channelId names
    obtain ⟨delivery, ⟨held, own, rfl⟩, -⟩ := (joins.one channelId).mpr ⟨rule, member, names⟩
    rw [perform_recordEvent_new fresh] at held
    have unused : ∀ channelId, (store.withEvent input fresh).deliveries.Holds (store.events.rows.length, channelId) →
        (store.withEvent input fresh).HasChannel channelId := by
      intro channelId isHeld
      obtain ⟨other, there, same⟩ := KeyedTable.holds_iff.mp isHeld
      exact absurd (Prod.mk.inj same).1 (referenced other there).ne
    have isQueued : ((store.withEvent input fresh).queueAll sends store.events.rows.length input.throttleKey
        (store.targets table input)).2.deliveries.Holds (store.events.rows.length, delivery.channelId) :=
      KeyedTable.holds_iff.mpr ⟨delivery, held, Prod.ext own rfl⟩
    exact @hasChannel_of_queued (store.withEvent input fresh) _ _ sends _ _ unused isQueued
  · intro wired
    refine ⟨fun rules reordered => queuedFor_reordered sends fresh referenced wired reordered, ?_,
      one_iff_named sends fresh referenced wired,
      fun channelId minutes least => suppressed_iff sends fresh referenced wired (shortest_eq_iff.mpr least),
      fun rule fewer perm channelId isPending => pending_of_fewer sends fresh referenced wired perm isPending⟩
    rintro ⟨channelId, state⟩ member
    obtain ⟨minutes, -, rfl⟩ := (mem_queuedFor sends fresh referenced wired).mp member
    unfold stateFor
    split
    · exact .inr rfl
    · exact .inl rfl

end AlertStore

theorem fanOut_joins_alert : alertStore.JoinsRules basicTable delivered (burst 1) :=
  (AlertStore.fanOut_joins_iff delivered (by decide) fun _ member => absurd member List.not_mem_nil).mpr (by decide)

/-- One rule with a channel that was deleted, and then one that is there. -/
def deletedStore : AlertStore where
  mirror := .empty
  instanceName _ := js "MSSQLSERVER"
  hostName _ := js "sqlprod01"
  rules := [⟨js "r1", true, [.job_failed], [], none, [js "c2", js "c1"], 0⟩]
  channels := [⟨js "c1", true, none, none, none⟩]
  events := .empty
  deliveries := .empty
  clock := 1700001000000

/-- **Counterexample.** The channel that is there gets its delivery in one order only. -/
theorem deleted_channel_stops :
    let reordered := deletedStore.withRules [⟨js "r1", true, [.job_failed], [], none, [js "c1", js "c2"], 0⟩]
    (perform (AlertStore.respond delivered) deletedStore (recordEvent basicTable (burst 1))).2.deliveries.rows = [] ∧
      (perform (AlertStore.respond delivered) reordered (recordEvent basicTable (burst 1))).2.deliveries.rows.map
        (fun delivery => (delivery.channelId, delivery.state)) = [(js "c1", .pending)] ∧
      ¬ ∀ store : AlertStore, ¬ store.events.Holds (burst 1).dedupeKey → store.Referenced →
        store.JoinsRules basicTable delivered (burst 1) := by
  refine ⟨by decide, by decide, fun always => ?_⟩
  have referenced : deletedStore.Referenced := fun _ member => absurd member List.not_mem_nil
  have wired := (AlertStore.fanOut_joins_iff delivered (by decide) referenced).mp
    (always deletedStore (by decide) referenced)
  exact absurd wired (by decide)

end RemoteSqlAgent
