import RemoteSqlAgent.JsDate
import RemoteSqlAgent.JsScalars
import RemoteSqlAgent.WorkerStream

/-! How the log of the agent is followed. A poll bookmarks the time of the newest entry it
sent, and the next one takes what is later; the control plane stores an entry under a hash
of its time and texts. Neither can tell some entries of one time apart. -/

namespace Js

/-- A bar parts a text for good. -/
theorem toWellFormed_bar (s rest : JsString) :
    toWellFormed (s ++ js "|" ++ rest) = toWellFormed s ++ js "|" ++ toWellFormed rest := by
  have bar : js "|" = [Fin.ofNat _ 0x7C] := rfl
  have parted : toScalars (s ++ Fin.ofNat _ 0x7C :: rest) = _ := toScalars_append_cons rfl rfl s rest
  rw [bar, List.append_assoc, List.singleton_append, toWellFormed, parted, ofScalars_append, ← List.singleton_append,
    ofScalars_append, List.append_assoc]
  rfl

theorem zeroPadded_wellFormed (width n : Nat) : IsWellFormed (zeroPadded width n) := by
  have zeros : ∀ count : Nat, IsWellFormed (List.replicate count (digitUnit 0)) := by
    intro count
    induction count with
    | zero => rfl
    | succ count ih =>
      have zero : IsWellFormed [digitUnit 0] := wellFormed_unit rfl rfl
      exact zero.append ih
  exact (zeros _).append (ofScalars_wellFormed _)

theorem toISOString_wellFormed (time : Int) : IsWellFormed (toISOString time) := by
  have year : ∀ year, IsWellFormed (isoYear year) := by
    intro year
    unfold isoYear
    split
    · exact (js_wellFormed _).append (zeroPadded_wellFormed _ _)
    · split
      · exact zeroPadded_wellFormed _ _
      · exact (js_wellFormed _).append (zeroPadded_wellFormed _ _)
  have piece : ∀ {s : JsString} (text : String) (width n : Nat), IsWellFormed s →
      IsWellFormed (s ++ js text ++ zeroPadded width n) :=
    fun text width n wellFormed => (wellFormed.append (js_wellFormed text)).append (zeroPadded_wellFormed width n)
  exact (piece _ _ _ (piece _ _ _ (piece _ _ _ (piece _ _ _ (piece _ _ _ (piece _ _ _ (year _))))))).append
    (js_wellFormed _)

end Js

namespace RemoteSqlAgent
open Js CallProgram

/-! ## Reading -/

/-- A row of `xp_readerrorlog`. Its date is one that a date can be. -/
structure ErrorLogRow where
  LogDate : Int
  ProcessInfo : Option JsString
  Text : Option JsString
  valid : LogDate.natAbs ≤ 8640000000000000

structure AgentLogRecord where
  loggedAt : Int
  severity : JsString
  message : JsString
  processInfo : JsString

/-- What `\w` matches under the flags `iu`. Two letters fold to one of ASCII. -/
def isWordUnit (unit : CodeUnit) : Bool :=
  isDigit unit || (0x41 ≤ unit.val && unit.val ≤ 0x5A) || (0x61 ≤ unit.val && unit.val ≤ 0x7A) ||
    unit.val = 0x5F || unit.val = 0x17F || unit.val = 0x212A

/-- Case folding, as far as it comes to a letter of ASCII. -/
def foldUnit (unit : CodeUnit) : CodeUnit :=
  if 0x41 ≤ unit.val ∧ unit.val ≤ 0x5A then Fin.ofNat _ (unit.val + 0x20)
  else if unit.val = 0x17F then Fin.ofNat _ 0x73
  else if unit.val = 0x212A then Fin.ofNat _ 0x6B
  else unit

/-- Whether a text starts with a word, in letters of either case. -/
def startsWith (word text : JsString) : Bool := (text.take word.length).map foldUnit = word

/-- `/\bword\b/iu.test(text)`. The first argument says if a letter comes before. -/
def testWord (word : JsString) : Bool → JsString → Bool
  | _, [] => false
  | inWord, unit :: rest =>
    (!inWord && startsWith word (unit :: rest) && !((unit :: rest).drop word.length).head?.any isWordUnit) ||
      testWord word (isWordUnit unit) rest

/-- `/word/iu.test(text)`. -/
def testText (word : JsString) : JsString → Bool
  | [] => false
  | unit :: rest => startsWith word (unit :: rest) || testText word rest

def classifySeverity (text : JsString) : JsString :=
  if testWord (js "error") false text || testWord (js "failed") false text then js "error"
  else if testWord (js "warning") false text then js "warning"
  else js "info"

inductive AgentLogError where
  | unavailable (message : JsString)
  | query (message : JsString)

def ErrorLogRow.record (row : ErrorLogRow) : AgentLogRecord where
  loggedAt := row.LogDate
  severity := classifySeverity (row.Text.getD [])
  message := row.Text.getD []
  processInfo := row.ProcessInfo.getD []

/-- The answer of a server whose log has these rows. The start date is included. -/
def xp_readerrorlog (log : List ErrorLogRow) (startDate : Option Int) : Except JsString (List ErrorLogRow) :=
  .ok (match startDate with
    | none => log
    | some startDate => log.filter (startDate ≤ ·.LogDate))

/-- Read the log of a server from a date on. A login without the right to is told apart. -/
def readAgentErrorLog (server : Option Int → Except JsString (List ErrorLogRow)) (since : Option Int) :
    Except AgentLogError (List AgentLogRecord) :=
  match server since with
  | .ok rows => .ok (rows.map (·.record))
  | .error message =>
    if testText (js "permission") message || testText (js "denied") message || testText (js "execute") message then
      .error (.unavailable message)
    else .error (.query message)

/-! ## Polling -/

/-- What a poll of the log looks at: whether the log can be read, and the bookmark in
`sync_state`, where the instance may have no row, or one without a bookmark. -/
structure AgentLogPoller where
  agentLogSupported : Bool
  mark : Option (Option Int)

namespace AgentLogPoller

/-- A bookmark of 0 is none. -/
def getAgentLogHighWaterMark (poller : AgentLogPoller) : Option Int := (poller.mark.getD none).filter (· ≠ 0)

def setAgentLogHighWaterMark (poller : AgentLogPoller) (value : Int) : AgentLogPoller :=
  { poller with mark := some (some (poller.mark.elim value fun mark => max (mark.getD 0) value)) }

end AgentLogPoller

def AgentLogRecord.toRow (record : AgentLogRecord) : AgentLogRow where
  loggedAt := some (toTimestamp record.loggedAt)
  severity := record.severity
  message := record.message
  processInfo := record.processInfo

/-- Read the log from the bookmark on, send what is later, and move the bookmark to the
newest: the batches, and what is left to the next poll. -/
def pollAgentLog (instanceName : JsString) (server : Option Int → Except JsString (List ErrorLogRow))
    (poller : AgentLogPoller) : Except JsString (List AgentLogBatch × AgentLogPoller) :=
  if !poller.agentLogSupported then .ok ([], poller)
  else
    let since := poller.getAgentLogHighWaterMark
    match readAgentErrorLog server since with
    | .error (.unavailable _) => .ok ([], { poller with agentLogSupported := false })
    | .error (.query message) => .error message
    | .ok records =>
      let fresh := match since with
        | none => records
        | some since => records.filter (since < ·.loggedAt)
      match fresh with
      | [] => .ok ([], poller)
      | first :: rest =>
        let newest := rest.foldl (fun a b => if b.loggedAt < a.loggedAt then a else b) first
        .ok ([⟨instanceName, (first :: rest).map (·.toRow)⟩], poller.setAgentLogHighWaterMark newest.loggedAt)

/-- The log of an instance, its poller, and what was sent. -/
structure AgentLogTail where
  log : List ErrorLogRow
  poller : AgentLogPoller
  emitted : List AgentLogBatch

namespace AgentLogTail

/-- Some entries are logged, and then there is a poll. -/
def next (instanceName : JsString) (tail : AgentLogTail) (logged : List ErrorLogRow) : AgentLogTail :=
  let log := tail.log ++ logged
  match pollAgentLog instanceName (xp_readerrorlog log) tail.poller with
  | .error _ => { tail with log := log }
  | .ok (batches, poller) => { log := log, poller := poller, emitted := tail.emitted ++ batches }

/-- Follow a log from the start. Before each poll these entries are logged. -/
def follow (instanceName : JsString) (poller : AgentLogPoller) (schedule : List (List ErrorLogRow)) : AgentLogTail :=
  schedule.foldl (next instanceName) { log := [], poller := poller, emitted := [] }

/-- The rows that were sent. -/
def sent (tail : AgentLogTail) : List AgentLogRow := tail.emitted.flatMap (·.rows)

end AgentLogTail

def ErrorLogRow.toRow (row : ErrorLogRow) : AgentLogRow := row.record.toRow

/-! ## What a poll sends -/

namespace AgentLogPoller
variable {poller : AgentLogPoller} {value : Int}

/-- The rows that are later than the bookmark. -/
def fresh (poller : AgentLogPoller) (log : List ErrorLogRow) : List ErrorLogRow :=
  match poller.getAgentLogHighWaterMark with
  | none => log
  | some since => log.filter (since < ·.LogDate)

theorem mem_fresh {log : List ErrorLogRow} {row : ErrorLogRow} :
    row ∈ poller.fresh log ↔ row ∈ log ∧ ∀ since, poller.getAgentLogHighWaterMark = some since → since < row.LogDate := by
  unfold fresh
  split
  · rename_i none_
    simp [none_]
  · rename_i since found
    simp [found, List.mem_filter]

theorem fresh_append (first second : List ErrorLogRow) :
    poller.fresh (first ++ second) = poller.fresh first ++ poller.fresh second := by
  unfold fresh
  split
  · rfl
  · exact List.filter_append ..

theorem fresh_eq_self {log : List ErrorLogRow}
    (later : ∀ since, poller.getAgentLogHighWaterMark = some since → ∀ row ∈ log, since < row.LogDate) :
    poller.fresh log = log := by
  unfold fresh
  split
  · rfl
  · rename_i since found
    exact List.filter_eq_self.mpr fun row member => decide_eq_true (later since found row member)

theorem fresh_sublist (log : List ErrorLogRow) : (poller.fresh log).Sublist log := by
  unfold fresh
  split
  · exact List.Sublist.refl _
  · exact List.filter_sublist

theorem getAgentLogHighWaterMark_eq {since : Int} :
    poller.getAgentLogHighWaterMark = some since ↔ poller.mark = some (some since) ∧ since ≠ 0 := by
  rw [getAgentLogHighWaterMark, Option.filter_eq_some_iff, decide_eq_true_eq]
  cases poller.mark with
  | none => simp
  | some mark => simp

/-- The bookmark is where it was put, unless that counts as none, or it was later before. -/
theorem getAgentLogHighWaterMark_set {since : Int}
    (found : (poller.setAgentLogHighWaterMark value).getAgentLogHighWaterMark = some since) :
    since = value ∨ poller.getAgentLogHighWaterMark = some since := by
  rw [getAgentLogHighWaterMark_eq] at found ⊢
  obtain ⟨raised, nonzero⟩ := found
  have raised := Option.some.inj (Option.some.inj raised)
  cases kept : poller.mark with
  | none =>
    rw [kept] at raised
    exact .inl raised.symm
  | some mark =>
    have highest : max (mark.getD 0) value = since := by
      rw [kept] at raised
      exact raised
    rcases le_total (mark.getD 0) value with before | after
    · exact .inl (by rw [← highest, max_eq_right before])
    · rw [max_eq_left after] at highest
      cases mark with
      | none => exact absurd highest.symm nonzero
      | some hwm => exact .inr ⟨congrArg (some ∘ some) highest, nonzero⟩

/-- After 1970 the bookmark is where it was put, if it was no later before. -/
theorem getAgentLogHighWaterMark_set_of_pos (positive : 0 < value)
    (later : ∀ since, poller.getAgentLogHighWaterMark = some since → since ≤ value) :
    (poller.setAgentLogHighWaterMark value).getAgentLogHighWaterMark = some value := by
  refine getAgentLogHighWaterMark_eq.mpr ⟨congrArg (some ∘ some) ?_, positive.ne'⟩
  cases kept : poller.mark with
  | none => rfl
  | some mark =>
    refine max_eq_right ?_
    cases mark with
    | none => exact positive.le
    | some hwm =>
      by_cases zero : hwm = 0
      · rw [Option.getD_some, zero]
        exact positive.le
      · exact later hwm (getAgentLogHighWaterMark_eq.mpr ⟨kept, zero⟩)

end AgentLogPoller

/-- Of the records the fold keeps one, and none is newer. -/
theorem newest_isGreatest (first : AgentLogRecord) (rest : List AgentLogRecord) :
    IsGreatest {time | ∃ record ∈ first :: rest, record.loggedAt = time}
      (rest.foldl (fun a b => if b.loggedAt < a.loggedAt then a else b) first).loggedAt := by
  induction rest generalizing first with
  | nil => exact ⟨⟨first, List.mem_cons_self, rfl⟩, by simp [upperBounds]⟩
  | cons second rest ih =>
    rw [List.foldl_cons]
    obtain ⟨⟨kept, member, same⟩, bound⟩ := ih (if second.loggedAt < first.loggedAt then first else second)
    have picked : (if second.loggedAt < first.loggedAt then first else second) ∈ [first, second] := by
      split <;> simp
    have highest : first.loggedAt ≤ (if second.loggedAt < first.loggedAt then first else second).loggedAt ∧
        second.loggedAt ≤ (if second.loggedAt < first.loggedAt then first else second).loggedAt := by
      split <;> constructor <;> omega
    have top := bound ⟨_, List.mem_cons_self, rfl⟩
    refine ⟨⟨kept, ?_, same⟩, ?_⟩
    · rcases List.mem_cons.mp member with rfl | later
      · exact List.mem_append_left rest picked
      · exact List.mem_cons_of_mem _ (List.mem_cons_of_mem _ later)
    · rintro time ⟨record, there, rfl⟩
      rcases List.mem_cons.mp there with rfl | there
      · exact highest.1.trans top
      · rcases List.mem_cons.mp there with rfl | later
        · exact highest.2.trans top
        · exact bound ⟨record, List.mem_cons_of_mem _ later, rfl⟩

/-- What a poll does that reads the log. -/
structure Polled (log : List ErrorLogRow) (before : AgentLogPoller) (batches : List AgentLogBatch)
    (after : AgentLogPoller) : Prop where
  sent : batches.flatMap (·.rows) = (before.fresh log).map (·.toRow)
  supported : after.agentLogSupported = true
  mark : (before.fresh log = [] ∧ after = before) ∨ ∃ newest ∈ before.fresh log,
    (∀ row ∈ before.fresh log, row.LogDate ≤ newest.LogDate) ∧ after = before.setAgentLogHighWaterMark newest.LogDate

theorem pollAgentLog_polled (instanceName : JsString) (log : List ErrorLogRow) {poller : AgentLogPoller}
    (supported : poller.agentLogSupported = true) :
    ∃ batches after, pollAgentLog instanceName (xp_readerrorlog log) poller = .ok (batches, after) ∧
      Polled log poller batches after := by
  have read : ∃ records, readAgentErrorLog (xp_readerrorlog log) poller.getAgentLogHighWaterMark = .ok records ∧
      (match poller.getAgentLogHighWaterMark with
        | none => records
        | some since => records.filter (since < ·.loggedAt)) = (poller.fresh log).map (·.record) := by
    unfold readAgentErrorLog xp_readerrorlog AgentLogPoller.fresh
    cases poller.getAgentLogHighWaterMark with
    | none => exact ⟨_, rfl, rfl⟩
    | some since =>
      refine ⟨_, rfl, ?_⟩
      dsimp only
      rw [List.filter_map, List.filter_filter]
      congr 1
      refine List.filter_congr fun row _ => ?_
      simp only [Function.comp_apply, ErrorLogRow.record, Bool.and_eq_left_iff_imp, decide_eq_true_eq]
      exact le_of_lt
  obtain ⟨records, read, same⟩ := read
  unfold pollAgentLog
  simp only [supported, read, same, Bool.not_true, Bool.false_eq_true, ↓reduceIte]
  cases rows : poller.fresh log with
  | nil => exact ⟨[], poller, rfl, ⟨by rw [rows]; rfl, supported, .inl ⟨rows, rfl⟩⟩⟩
  | cons first rest =>
    refine ⟨_, _, rfl, ⟨?_, supported, .inr ?_⟩⟩
    · rw [List.flatMap_singleton, rows, List.map_cons, List.map_cons, List.map_map]
      rfl
    · obtain ⟨⟨record, member, isNewest⟩, bound⟩ := newest_isGreatest first.record (rest.map (·.record))
      rw [← List.map_cons] at member
      obtain ⟨newest, there, rfl⟩ := List.mem_map.mp member
      rw [← isNewest]
      refine ⟨newest, rows ▸ there, fun row isRow => ?_, rfl⟩
      rw [rows] at isRow
      exact (bound ⟨row.record, List.mem_map_of_mem isRow, rfl⟩).trans_eq isNewest.symm

/-! ## What following a log sends -/

/-- No poll comes between two entries of one time. -/
def Unsplit (schedule : List (List ErrorLogRow)) : Prop :=
  schedule.Pairwise fun earlier later => ∀ a ∈ earlier, ∀ b ∈ later, a.LogDate < b.LogDate

namespace AgentLogTail
variable {instanceName : JsString} {poller : AgentLogPoller} {schedule : List (List ErrorLogRow)}
  {logged : List ErrorLogRow} {tail : AgentLogTail}

/-- What holds after each poll. -/
structure Followed (schedule : List (List ErrorLogRow)) (tail : AgentLogTail) : Prop where
  log : tail.log = schedule.flatten
  supported : tail.poller.agentLogSupported = true
  known : ∀ row ∈ tail.sent, ∃ entry ∈ tail.log, entry.toRow = row
  mark : ∀ since, tail.poller.getAgentLogHighWaterMark = some since → ∃ entry ∈ tail.log, entry.LogDate = since

/-- One step, if the log could be read before. -/
theorem next_polled (instanceName : JsString) (logged : List ErrorLogRow)
    (supported : tail.poller.agentLogSupported = true) :
    ∃ batches, (tail.next instanceName logged).emitted = tail.emitted ++ batches ∧
      (tail.next instanceName logged).log = tail.log ++ logged ∧
      Polled (tail.log ++ logged) tail.poller batches (tail.next instanceName logged).poller := by
  obtain ⟨batches, after, ran, polled⟩ := pollAgentLog_polled instanceName (tail.log ++ logged) supported
  have step : tail.next instanceName logged = ⟨tail.log ++ logged, after, tail.emitted ++ batches⟩ := by
    unfold next
    simp only [ran]
  rw [step]
  exact ⟨batches, rfl, rfl, polled⟩

theorem sent_next {batches : List AgentLogBatch}
    (emitted : (tail.next instanceName logged).emitted = tail.emitted ++ batches)
    (polled : Polled (tail.log ++ logged) tail.poller batches (tail.next instanceName logged).poller) :
    (tail.next instanceName logged).sent = tail.sent ++ (tail.poller.fresh (tail.log ++ logged)).map (·.toRow) := by
  rw [sent, emitted, List.flatMap_append, polled.sent]
  rfl

theorem Followed.next (followed : Followed schedule tail) (instanceName : JsString) (logged : List ErrorLogRow) :
    Followed (schedule ++ [logged]) (tail.next instanceName logged) := by
  obtain ⟨batches, emitted, log, polled⟩ := next_polled instanceName logged followed.supported
  refine ⟨?_, polled.supported, ?_, ?_⟩
  · rw [log, followed.log, List.flatten_concat]
  · intro row member
    rw [sent_next emitted polled] at member
    rcases List.mem_append.mp member with before | now
    · obtain ⟨entry, there, same⟩ := followed.known row before
      exact ⟨entry, log ▸ List.mem_append_left _ there, same⟩
    · obtain ⟨entry, there, same⟩ := List.mem_map.mp now
      exact ⟨entry, log ▸ (AgentLogPoller.mem_fresh.mp there).1, same⟩
  · intro since found
    have before : tail.poller.getAgentLogHighWaterMark = some since →
        ∃ entry ∈ (tail.next instanceName logged).log, entry.LogDate = since := by
      intro found
      obtain ⟨entry, there, same⟩ := followed.mark since found
      exact ⟨entry, log ▸ List.mem_append_left _ there, same⟩
    rcases polled.mark with ⟨-, same⟩ | ⟨newest, member, -, moved⟩
    · exact before (same ▸ found)
    · rw [moved] at found
      rcases AgentLogPoller.getAgentLogHighWaterMark_set found with isNewest | still
      · exact ⟨newest, log ▸ (AgentLogPoller.mem_fresh.mp member).1, isNewest.symm⟩
      · exact before still

theorem follow_concat (schedule : List (List ErrorLogRow)) (logged : List ErrorLogRow) :
    follow instanceName poller (schedule ++ [logged]) = (follow instanceName poller schedule).next instanceName logged :=
  List.foldl_concat ..

theorem followed (instanceName : JsString) (supported : poller.agentLogSupported = true)
    (unmarked : poller.getAgentLogHighWaterMark = none) (schedule : List (List ErrorLogRow)) :
    Followed schedule (follow instanceName poller schedule) := by
  induction schedule using List.reverseRecOn with
  | nil =>
    refine ⟨rfl, supported, fun row member => absurd member List.not_mem_nil, fun since found => ?_⟩
    cases unmarked.symm.trans found
  | append_singleton schedule logged ih =>
    rw [follow_concat]
    exact ih.next instanceName logged

/-- If no poll splits a group of entries of one time, everything is sent. -/
theorem sent_of_unsplit (supported : poller.agentLogSupported = true)
    (unmarked : poller.getAgentLogHighWaterMark = none) (unsplit : Unsplit schedule) :
    (schedule.flatten.map (·.toRow)).Sublist (follow instanceName poller schedule).sent := by
  induction schedule using List.reverseRecOn with
  | nil => exact List.nil_sublist _
  | append_singleton schedule logged ih =>
    obtain ⟨earlier, -, cross⟩ := List.pairwise_append.mp unsplit
    have before := followed instanceName supported unmarked schedule
    obtain ⟨batches, emitted, -, polled⟩ := next_polled instanceName logged before.supported
    rw [follow_concat, sent_next emitted polled, List.flatten_concat, List.map_append]
    refine (ih earlier).append (List.Sublist.map _ ?_)
    have all : (follow instanceName poller schedule).poller.fresh logged = logged := by
      refine AgentLogPoller.fresh_eq_self fun since found row member => ?_
      obtain ⟨entry, there, same⟩ := before.mark since found
      obtain ⟨group, isGroup, within⟩ := List.mem_flatten.mp (before.log ▸ there)
      rw [← same]
      exact cross group isGroup logged (List.mem_singleton_self _) entry within row member
    rw [AgentLogPoller.fresh_append, all]
    exact List.sublist_append_right _ _

/-- After 1970 the bookmark is at the newest entry. -/
theorem mark_newest (supported : poller.agentLogSupported = true)
    (unmarked : poller.getAgentLogHighWaterMark = none) (positive : ∀ row ∈ schedule.flatten, 0 < row.LogDate) :
    ∀ row ∈ schedule.flatten, ∃ since,
      (follow instanceName poller schedule).poller.getAgentLogHighWaterMark = some since ∧ row.LogDate ≤ since := by
  induction schedule using List.reverseRecOn with
  | nil => exact fun row member => absurd member List.not_mem_nil
  | append_singleton schedule logged ih =>
    rw [List.flatten_concat] at positive
    rw [List.flatten_concat, follow_concat]
    have earlier := ih fun row member => positive row (List.mem_append_left _ member)
    have before := followed instanceName supported unmarked schedule
    obtain ⟨batches, -, -, polled⟩ := next_polled instanceName logged before.supported
    rw [before.log] at polled
    intro row member
    by_cases isFresh : row ∈ (follow instanceName poller schedule).poller.fresh (schedule.flatten ++ logged)
    · rcases polled.mark with ⟨none_, -⟩ | ⟨newest, there, bound, moved⟩
      · exact absurd isFresh (none_ ▸ List.not_mem_nil)
      · obtain ⟨inside, later⟩ := AgentLogPoller.mem_fresh.mp there
        refine ⟨newest.LogDate, ?_, bound row isFresh⟩
        rw [moved]
        exact AgentLogPoller.getAgentLogHighWaterMark_set_of_pos (positive newest inside)
          fun since found => (later since found).le
    · have marked : ∃ since, (follow instanceName poller schedule).poller.getAgentLogHighWaterMark = some since ∧
          row.LogDate ≤ since := by
        by_contra none_
        push Not at none_
        exact isFresh (AgentLogPoller.mem_fresh.mpr ⟨member, none_⟩)
      obtain ⟨since, found, below⟩ := marked
      rcases polled.mark with ⟨-, same⟩ | ⟨newest, there, -, moved⟩
      · exact ⟨since, same ▸ found, below⟩
      · obtain ⟨inside, later⟩ := AgentLogPoller.mem_fresh.mp there
        refine ⟨newest.LogDate, ?_, below.trans (later since found).le⟩
        rw [moved]
        exact AgentLogPoller.getAgentLogHighWaterMark_set_of_pos (positive newest inside)
          fun since found => (later since found).le

/-- After 1970 nothing is sent twice, so what a poll splits off is lost. -/
theorem unsplit_of_sent (supported : poller.agentLogSupported = true)
    (unmarked : poller.getAgentLogHighWaterMark = none) (positive : ∀ row ∈ schedule.flatten, 0 < row.LogDate) :
    (follow instanceName poller schedule).sent.length ≤ schedule.flatten.length ∧
      (schedule.flatten.length ≤ (follow instanceName poller schedule).sent.length → Unsplit schedule) := by
  induction schedule using List.reverseRecOn with
  | nil => exact ⟨le_rfl, fun _ => List.Pairwise.nil⟩
  | append_singleton schedule logged ih =>
    rw [List.flatten_concat] at positive
    have earlier : ∀ row ∈ schedule.flatten, 0 < row.LogDate := fun row member =>
      positive row (List.mem_append_left _ member)
    obtain ⟨few, unsplit⟩ := ih earlier
    have before := followed instanceName supported unmarked schedule
    obtain ⟨batches, emitted, -, polled⟩ := next_polled instanceName logged before.supported
    have newest : ∀ row ∈ schedule.flatten, ∃ since,
        (follow instanceName poller schedule).poller.getAgentLogHighWaterMark = some since ∧ row.LogDate ≤ since :=
      mark_newest supported unmarked earlier
    have old : (follow instanceName poller schedule).poller.fresh schedule.flatten = [] := by
      refine List.eq_nil_iff_forall_not_mem.mpr fun row isFresh => ?_
      obtain ⟨member, later⟩ := AgentLogPoller.mem_fresh.mp isFresh
      obtain ⟨since, found, below⟩ := newest row member
      exact absurd (later since found) (not_lt.mpr below)
    have fewer : ((follow instanceName poller schedule).poller.fresh logged).length ≤ logged.length :=
      (AgentLogPoller.fresh_sublist logged).length_le
    rw [follow_concat, sent_next emitted polled, before.log, AgentLogPoller.fresh_append, old, List.nil_append,
      List.length_append, List.length_map, List.flatten_concat, List.length_append]
    refine ⟨by omega, fun many => ?_⟩
    have all : (follow instanceName poller schedule).poller.fresh logged = logged :=
      (AgentLogPoller.fresh_sublist logged).eq_of_length_le (by omega)
    refine List.pairwise_append.mpr ⟨unsplit (by omega), List.pairwise_singleton _ _, ?_⟩
    intro group isGroup last isLast a memberA b memberB
    obtain rfl := List.mem_singleton.mp isLast
    obtain ⟨since, found, below⟩ := newest a (List.mem_flatten.mpr ⟨group, isGroup, memberA⟩)
    exact below.trans_lt ((AgentLogPoller.mem_fresh.mp (all ▸ memberB)).2 since found)

end AgentLogTail
/-! ## Telling entries apart -/

namespace ErrorLogRow

def message (row : ErrorLogRow) : JsString := row.record.message

def processInfo (row : ErrorLogRow) : JsString := row.record.processInfo

/-- Two entries with the same time, process info and message. -/
def Alike (a b : ErrorLogRow) : Prop := a.LogDate = b.LogDate ∧ a.processInfo = b.processInfo ∧ a.message = b.message

instance (a b : ErrorLogRow) : Decidable (a.Alike b) := instDecidableAnd

/-- Two entries of one time with the same text around the bars: as UTF-8 has them they are
alike, or a part of the process info of one is where the message of the other begins. -/
def Confusable (a b : ErrorLogRow) : Prop :=
  a.LogDate = b.LogDate ∧
    ((toWellFormed a.processInfo = toWellFormed b.processInfo ∧ toWellFormed a.message = toWellFormed b.message) ∨
      ∃ shared, toWellFormed a.processInfo = toWellFormed b.processInfo ++ js "|" ++ shared ∧
        toWellFormed b.message = shared ++ js "|" ++ toWellFormed a.message)

/-- The key an entry is stored under. -/
def dedupeKey (config : StreamConfig) (row : ErrorLogRow) : JsString :=
  agentLogDedupeKey config row.LogDate row.message row.processInfo

end ErrorLogRow

/-- Where the first of two texts with a bar may end. -/
theorem bar_eq_iff {p m q n : JsString} : p ++ js "|" ++ m = q ++ js "|" ++ n ↔
    (p = q ∧ m = n) ∨ (∃ shared, p = q ++ js "|" ++ shared ∧ n = shared ++ js "|" ++ m) ∨
      ∃ shared, q = p ++ js "|" ++ shared ∧ m = shared ++ js "|" ++ n := by
  have bar : js "|" = [Fin.ofNat _ 0x7C] := rfl
  simp only [bar, List.append_assoc, List.singleton_append]
  constructor
  · intro same
    rcases List.append_eq_append_iff.mp same with ⟨between, left, right⟩ | ⟨between, left, right⟩
    · cases between with
      | nil => exact .inl ⟨by rw [left, List.append_nil], (List.cons.inj right).2⟩
      | cons unit shared =>
        obtain ⟨rfl, rest⟩ := List.cons.inj right
        exact .inr (.inr ⟨shared, left, rest⟩)
    · cases between with
      | nil => exact .inl ⟨by rw [left, List.append_nil], (List.cons.inj right).2.symm⟩
      | cons unit shared =>
        obtain ⟨rfl, rest⟩ := List.cons.inj right
        exact .inr (.inl ⟨shared, left, rest⟩)
  · rintro (⟨rfl, rfl⟩ | ⟨shared, rfl, rfl⟩ | ⟨shared, rfl, rfl⟩)
    · rfl
    · rw [List.append_assoc, List.cons_append]
    · rw [List.append_assoc, List.cons_append]

section Keys
variable {config : StreamConfig} (iso : config.toISOString = toISOString)
  (injective : Function.Injective config.hub.runtime.crypto.sha256)
include iso injective

/-- Two entries have one key if and only if they can be confused. -/
theorem dedupeKey_eq_iff {a b : ErrorLogRow} :
    a.dedupeKey config = b.dedupeKey config ↔ a.Confusable b ∨ b.Confusable a := by
  have hashed : a.dedupeKey config = b.dedupeKey config ↔
      toWellFormed (toISOString a.LogDate ++ js "|" ++ a.processInfo ++ js "|" ++ a.message) =
        toWellFormed (toISOString b.LogDate ++ js "|" ++ b.processInfo ++ js "|" ++ b.message) := by
    rw [← utf8_eq_iff, ErrorLogRow.dedupeKey, ErrorLogRow.dedupeKey, agentLogDedupeKey, agentLogDedupeKey, hashCanonical,
      hashCanonical, iso]
    exact ⟨fun same => injective (js_injective same), fun same => by rw [same]⟩
  have parted : ∀ row : ErrorLogRow,
      toWellFormed (toISOString row.LogDate ++ js "|" ++ row.processInfo ++ js "|" ++ row.message) =
        toISOString row.LogDate ++ (js "|" ++ (toWellFormed row.processInfo ++ js "|" ++ toWellFormed row.message)) := by
    intro row
    rw [toWellFormed_bar, toWellFormed_bar, toWellFormed_of_wellFormed (toISOString_wellFormed _)]
    simp only [List.append_assoc]
  rw [hashed, parted, parted]
  constructor
  · intro same
    obtain ⟨time, rest⟩ := split_toISOString same
    rcases bar_eq_iff.mp (List.append_cancel_left rest) with texts | later | earlier
    · exact .inl ⟨time, .inl texts⟩
    · exact .inl ⟨time, .inr later⟩
    · exact .inr ⟨time.symm, .inr earlier⟩
  · rintro (⟨time, texts | later⟩ | ⟨time, texts | later⟩)
    · rw [time, texts.1, texts.2]
    · rw [time, bar_eq_iff.mpr (.inr (.inl later))]
    · rw [time, texts.1, texts.2]
    · rw [time, bar_eq_iff.mpr (.inr (.inr later))]

end Keys

/-! ## What is stored -/

section Storing
variable (config : StreamConfig) (instanceId : JsString)

/-- The table of the entries once a batch is taken in. -/
def ingested (table : KeyedTable AgentLogEntry.key) (batch : AgentLogBatch) : KeyedTable AgentLogEntry.key :=
  match (batch.rows.filterMap (agentLogValue config instanceId)).mapM id with
  | .error _ => table
  | .ok values => (table.insertNew values).1

/-- The table once all that was sent is taken in. -/
def AgentLogTail.stored (tail : AgentLogTail) : KeyedTable AgentLogEntry.key :=
  tail.emitted.foldl (ingested config instanceId) .empty

/-- The entry that is made of a row of the log. -/
def ErrorLogRow.entry (row : ErrorLogRow) : AgentLogEntry where
  instanceId := instanceId
  loggedAt := row.LogDate
  severity := orNull (classifySeverity row.message)
  message := row.message
  processInfo := orNull row.processInfo
  dedupeKey := row.dedupeKey config

theorem agentLogValue_toRow (row : ErrorLogRow) :
    agentLogValue config instanceId row.toRow = some (.ok (row.entry config instanceId)) := by
  have time : fromTimestamp row.toRow.loggedAt = some (some row.LogDate) := by
    have whole : (toTimestamp row.LogDate).seconds * 1000 + ((toTimestamp row.LogDate).nanos + 500000) / 1000000 =
        row.LogDate := by
      simp only [toTimestamp]
      omega
    refine congrArg some (Eq.trans (congrArg timeClip whole) ?_)
    rw [timeClip, if_pos row.valid]
  rw [agentLogValue, time]
  rfl

variable {config instanceId}

/-- What a batch of rows of the log puts in. -/
theorem ingested_toRow {table : KeyedTable AgentLogEntry.key} {batch : AgentLogBatch} {rows : List ErrorLogRow}
    (made : batch.rows = rows.map (·.toRow)) :
    ingested config instanceId table batch = (table.insertNew (rows.map (·.entry config instanceId))).1 := by
  have values : (batch.rows.filterMap (agentLogValue config instanceId)).mapM id =
      .ok (rows.map (·.entry config instanceId)) := by
    rw [made]
    clear made
    induction rows with
    | nil => rfl
    | cons row rest ih =>
      rw [List.map_cons, List.filterMap_cons_some (agentLogValue_toRow config instanceId row), List.mapM_cons, ih]
      rfl
  rw [ingested, values]

/-- The entries that are stored are those of rows that were sent, and each of these has its key there. -/
theorem stored_spec {log : List ErrorLogRow} {batches : List AgentLogBatch} (table : KeyedTable AgentLogEntry.key)
    (known : ∀ row ∈ batches.flatMap (·.rows), ∃ entry ∈ log, entry.toRow = row) :
    (∀ value ∈ batches.foldl (ingested config instanceId) table,
        value ∈ table ∨ ∃ row ∈ log, value = row.entry config instanceId) ∧
      ∀ row : ErrorLogRow, table.Holds (row.entry config instanceId).key ∨ row.toRow ∈ batches.flatMap (·.rows) →
        (batches.foldl (ingested config instanceId) table).Holds (row.entry config instanceId).key := by
  induction batches generalizing table with
  | nil => exact ⟨fun value member => .inl member, fun row held => held.resolve_right List.not_mem_nil⟩
  | cons batch rest ih =>
    have here : ∀ row ∈ batch.rows, ∃ entry ∈ log, entry.toRow = row := fun row member =>
      known row (List.mem_flatMap.mpr ⟨batch, List.mem_cons_self, member⟩)
    have chosen : ∃ rows : List ErrorLogRow, (∀ row ∈ rows, row ∈ log) ∧ batch.rows = rows.map (·.toRow) := by
      clear ih known
      generalize batch.rows = sent at here
      induction sent with
      | nil => exact ⟨[], fun row member => absurd member List.not_mem_nil, rfl⟩
      | cons first later ih =>
        obtain ⟨entry, there, rfl⟩ := here first List.mem_cons_self
        obtain ⟨rows, inside, same⟩ := ih fun row member => here row (List.mem_cons_of_mem _ member)
        refine ⟨entry :: rows, List.forall_mem_cons.mpr ⟨there, inside⟩, ?_⟩
        rw [same, List.map_cons]
    obtain ⟨rows, inside, made⟩ := chosen
    obtain ⟨only, every⟩ := ih (ingested config instanceId table batch) fun row member =>
      known row (List.flatMap_cons ▸ List.mem_append_right _ member)
    rw [List.foldl_cons]
    refine ⟨fun value member => ?_, fun row held => every row ?_⟩
    · rcases only value member with before | found
      · rw [ingested_toRow made] at before
        rcases KeyedTable.mem_insertNew.mp before with old | new
        · exact .inl old
        · obtain ⟨row, isRow, rfl⟩ := List.mem_map.mp (KeyedTable.mem_of_inserted new).1
          exact .inr ⟨row, inside row isRow, rfl⟩
      · exact .inr found
    · rw [ingested_toRow made, KeyedTable.holds_insertNew]
      rcases held with before | member
      · exact .inl (.inl before)
      · rw [List.flatMap_cons, List.mem_append] at member
        rcases member with now | later
        · rw [made] at now
          obtain ⟨same, isRow, alike⟩ := List.mem_map.mp now
          have value := agentLogValue_toRow config instanceId same
          rw [alike, agentLogValue_toRow] at value
          refine .inl (.inr (List.mem_map.mpr ⟨_, List.mem_map_of_mem isRow, ?_⟩))
          rw [Except.ok.inj (Option.some.inj value)]
        · exact .inr later

end Storing

/-! ## The log is kept -/

/-- No two different entries can be confused. -/
def ToldApart (log : List ErrorLogRow) : Prop := ∀ a ∈ log, ∀ b ∈ log, ¬ a.Alike b → ¬ a.Confusable b

/-- A log is sent as it is, and stored with every different entry once. -/
structure LogKept (config : StreamConfig) (instanceId : JsString) (log : List ErrorLogRow) (tail : AgentLogTail) :
    Prop where
  sent : (log.map (·.toRow)).Sublist tail.sent
  distinct : ∀ a ∈ log, ∀ b ∈ log, ¬ a.Alike b → a.dedupeKey config ≠ b.dedupeKey config
  stored : ∀ row ∈ log, ∃! entry, entry ∈ tail.stored config instanceId ∧ entry.loggedAt = row.LogDate ∧
    entry.processInfo = orNull row.processInfo ∧ entry.message = row.message

section Kept
variable {config : StreamConfig} (iso : config.toISOString = toISOString)
  (injective : Function.Injective config.hub.runtime.crypto.sha256)
include iso injective

theorem distinct_iff (log : List ErrorLogRow) : ToldApart log ↔
    ∀ a ∈ log, ∀ b ∈ log, ¬ a.Alike b → a.dedupeKey config ≠ b.dedupeKey config := by
  constructor
  · intro tellable a memberA b memberB differ same
    rcases (dedupeKey_eq_iff iso injective).mp same with confusable | confusable
    · exact tellable a memberA b memberB differ confusable
    · refine tellable b memberB a memberA ?_ confusable
      rintro ⟨time, info, message⟩
      exact differ ⟨time.symm, info.symm, message.symm⟩
  · intro distinct a memberA b memberB differ confusable
    exact distinct a memberA b memberB differ ((dedupeKey_eq_iff iso injective).mpr (.inl confusable))

omit iso injective in
theorem stored_once {instanceName instanceId : JsString} {poller : AgentLogPoller} {schedule : List (List ErrorLogRow)}
    (supported : poller.agentLogSupported = true) (unmarked : poller.getAgentLogHighWaterMark = none)
    (sent : (schedule.flatten.map (·.toRow)).Sublist (AgentLogTail.follow instanceName poller schedule).sent)
    (distinct : ∀ a ∈ schedule.flatten, ∀ b ∈ schedule.flatten, ¬ a.Alike b →
      a.dedupeKey config ≠ b.dedupeKey config) {row : ErrorLogRow} (member : row ∈ schedule.flatten) :
    ∃! entry, entry ∈ (AgentLogTail.follow instanceName poller schedule).stored config instanceId ∧
      entry.loggedAt = row.LogDate ∧ entry.processInfo = orNull row.processInfo ∧ entry.message = row.message := by
  have followed := AgentLogTail.followed instanceName supported unmarked schedule
  have known := followed.known
  rw [followed.log] at known
  obtain ⟨only, every⟩ := @stored_spec config instanceId _ _ .empty known
  have orNull_inj : ∀ {a b : JsString}, orNull a = orNull b → a = b := by
    intro a b same
    unfold orNull at same
    split at same <;> split at same
    · rename_i left right
      rw [left, right]
    · cases same
    · cases same
    · exact Option.some.inj same
  have made : ∀ entry ∈ (AgentLogTail.follow instanceName poller schedule).stored config instanceId,
      ∃ other ∈ schedule.flatten, entry = other.entry config instanceId := fun entry there =>
    (only entry there).resolve_left KeyedTable.not_mem_empty
  have held := every row (.inr (sent.subset (List.mem_map_of_mem member)))
  obtain ⟨entry, there, key⟩ := KeyedTable.holds_iff.mp held
  obtain ⟨other, isOther, rfl⟩ := made entry there
  have alike : other.Alike row := by
    by_contra differ
    exact distinct other isOther row member differ (Prod.mk.inj key).2
  refine ⟨other.entry config instanceId, ⟨there, alike.1, congrArg orNull alike.2.1, alike.2.2⟩, ?_⟩
  rintro again ⟨also, time, info, message⟩
  obtain ⟨third, isThird, rfl⟩ := made again also
  refine KeyedTable.eq_of_key also there (Prod.ext rfl ?_)
  have infos : third.processInfo = row.processInfo := orNull_inj info
  change agentLogDedupeKey config third.LogDate third.message third.processInfo =
    agentLogDedupeKey config other.LogDate other.message other.processInfo
  rw [show third.LogDate = row.LogDate from time, infos, show third.message = row.message from message, alike.1,
    alike.2.1, alike.2.2]

/-- **The log is neither thinned nor merged, if no poll comes between two entries of one time
and no two different entries can be confused.** After 1970 it is so only then. -/
theorem agentLog_kept (instanceName instanceId : JsString) {poller : AgentLogPoller}
    (supported : poller.agentLogSupported = true) (unmarked : poller.getAgentLogHighWaterMark = none)
    (schedule : List (List ErrorLogRow)) :
    (Unsplit schedule ∧ ToldApart schedule.flatten →
        LogKept config instanceId schedule.flatten (AgentLogTail.follow instanceName poller schedule)) ∧
      ((∀ row ∈ schedule.flatten, 0 < row.LogDate) →
        LogKept config instanceId schedule.flatten (AgentLogTail.follow instanceName poller schedule) →
          Unsplit schedule ∧ ToldApart schedule.flatten) := by
  constructor
  · rintro ⟨unsplit, tellable⟩
    have sent : (schedule.flatten.map (·.toRow)).Sublist (AgentLogTail.follow instanceName poller schedule).sent :=
      AgentLogTail.sent_of_unsplit supported unmarked unsplit
    have distinct := (distinct_iff iso injective _).mp tellable
    exact ⟨sent, distinct, fun row member => stored_once supported unmarked sent distinct member⟩
  · intro positive kept
    have many := kept.sent.length_le
    rw [List.length_map] at many
    exact ⟨(AgentLogTail.unsplit_of_sent supported unmarked positive).2 many,
      (distinct_iff iso injective _).mpr kept.distinct⟩

end Kept

/-! ## A sample -/

/-- The digests of two entries are the real ones. -/
def logDigest : List UInt8 → String :=
  Function.update (Function.update sampleDigest
      (utf8 (js "2023-11-14T22:13:20.000Z|[393]|Waiting for SQL Server to recover databases..."))
      "65109e1e4cc5daf12e76bbff1f4a8fc81560674b58c881ae13c14559da519cd9")
    (utf8 (js "2023-11-14T22:13:21.000Z||Job failed"))
    "9b7e8c49206e3350661ceb8d578e48448b9fb03548ae274b55becdf9b6eb30ef"

/-- Changing an injective function at one point to a new value. -/
theorem injective_update {α β : Type} [DecidableEq α] {f : α → β} (injective : Function.Injective f) (a : α) {b : β}
    (new : ∀ x, f x ≠ b) : Function.Injective (Function.update f a b) := by
  intro x y same
  by_cases atX : x = a
  · by_cases atY : y = a
    · rw [atX, atY]
    · rw [atX, Function.update_self, Function.update_of_ne atY] at same
      exact absurd same.symm (new y)
  · by_cases atY : y = a
    · rw [atY, Function.update_self, Function.update_of_ne atX] at same
      exact absurd same (new x)
    · rw [Function.update_of_ne atX, Function.update_of_ne atY] at same
      exact injective same

theorem logDigest_injective : Function.Injective logDigest := by
  have sample : ∀ {digest : String}, digest.toList.head? ≠ some 'g' →
      digest ≠ "8b0599c795dca63025ab03e0a4ec052a1b7f13818c8b53aaaeb94ad9e1e8d6f5" →
      ∀ bytes, sampleDigest bytes ≠ digest := by
    intro digest letter other bytes same
    unfold sampleDigest at same
    split at same
    · exact other same.symm
    · rw [← same, String.toList_ofList] at letter
      exact letter rfl
  refine injective_update (injective_update sampleDigest_injective _ (sample (by decide) (by decide))) _ ?_
  intro bytes
  by_cases first : bytes = utf8 (js "2023-11-14T22:13:20.000Z|[393]|Waiting for SQL Server to recover databases...")
  · rw [first, Function.update_self]
    decide
  · rw [Function.update_of_ne first]
    exact sample (by decide) (by decide) bytes

def logStream : StreamConfig where
  hub := { sampleHub with runtime := { mirrorRuntime with crypto := { sampleCrypto with sha256 := logDigest } } }
  caseTable := basicTable
  compileScrubPattern pattern := .error pattern
  toISOString := toISOString
  enabledModes := [.token]

def recovering : ErrorLogRow where
  LogDate := 1700000000000
  ProcessInfo := some (js "[393]")
  Text := some (js "Waiting for SQL Server to recover databases...")
  valid := by decide

def jobFailed : ErrorLogRow where
  LogDate := 1700000001000
  ProcessInfo := none
  Text := some (js "Job failed")
  valid := by decide

/-- An instance that was not polled before. -/
def newPoller : AgentLogPoller where
  agentLogSupported := true
  mark := none

theorem agentLog_kept_recovering : LogKept logStream (js "i1") [recovering, jobFailed]
    (AgentLogTail.follow (js "MSSQLSERVER") newPoller [[recovering], [jobFailed]]) := by
  have tellable : ToldApart [recovering, jobFailed] := by
    intro a memberA b memberB differ confusable
    simp only [List.mem_cons, List.not_mem_nil, or_false] at memberA memberB
    rcases memberA with rfl | rfl <;> rcases memberB with rfl | rfl
    · exact differ (by decide)
    · exact absurd confusable.1 (by decide)
    · exact absurd confusable.1 (by decide)
    · exact differ (by decide)
  have unsplit : Unsplit [[recovering], [jobFailed]] :=
    List.pairwise_pair.mpr fun a memberA b memberB => by
      rw [List.mem_singleton.mp memberA, List.mem_singleton.mp memberB]
      decide
  exact (@agentLog_kept logStream rfl logDigest_injective (js "MSSQLSERVER") (js "i1") newPoller rfl rfl
    [[recovering], [jobFailed]]).1 ⟨unsplit, tellable⟩

/-- Another entry of the same second. -/
def starting : ErrorLogRow where
  LogDate := 1700000000000
  ProcessInfo := some (js "[100]")
  Text := some (js "Starting up")
  valid := by decide

/-- Two entries with a bar in different places. -/
def barInInfo : ErrorLogRow where
  LogDate := 1700000000000
  ProcessInfo := some (js "[393]|ODBC")
  Text := some (js "done")
  valid := by decide

def barInMessage : ErrorLogRow where
  LogDate := 1700000000000
  ProcessInfo := some (js "[393]")
  Text := some (js "ODBC|done")
  valid := by decide

/-- **Counterexample.** A poll between two entries of one second loses the second, and two
entries with a bar have one key. -/
theorem log_thinned_and_merged :
    ((AgentLogTail.follow (js "MSSQLSERVER") newPoller [[recovering], [starting], [jobFailed]]).sent.map (·.message)) =
        [recovering.message, jobFailed.message] ∧
      ¬ barInInfo.Alike barInMessage ∧ barInInfo.dedupeKey logStream = barInMessage.dedupeKey logStream ∧
      ¬ ∀ schedule : List (List ErrorLogRow), schedule.flatten.Pairwise (fun a b => a.LogDate ≤ b.LogDate) →
        LogKept logStream (js "i1") schedule.flatten (AgentLogTail.follow (js "MSSQLSERVER") newPoller schedule) := by
  have confused : barInInfo.Confusable barInMessage := ⟨rfl, .inr ⟨js "ODBC", by decide, by decide⟩⟩
  have apart : ¬ barInInfo.Alike barInMessage := by decide
  have merged : barInInfo.dedupeKey logStream = barInMessage.dedupeKey logStream :=
    (dedupeKey_eq_iff rfl logDigest_injective).mpr (.inl confused)
  refine ⟨by decide, apart, merged, fun always => ?_⟩
  have kept := always [[barInInfo, barInMessage]] (by simp [barInInfo, barInMessage])
  exact kept.distinct barInInfo (by simp) barInMessage (by simp) apart merged

end RemoteSqlAgent
