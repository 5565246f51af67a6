import RemoteSqlAgent.JsRegExp
import RemoteSqlAgent.WorkerStream

/-! Scrubbing, with the expressions as they are: compiled once for a batch, and each with a
place where its next search starts. That place never shows, so a row is scrubbed as if it
came alone. -/
namespace RemoteSqlAgent.Scrubbing
open Js

def REDACTED : JsString := js "[redacted]"

/-! ## History -/

structure HistoryScrubResult where
  rows : List HistoryRow
  redactedCount : Nat

/-- The rules on a message, with the expressions as they are left. -/
def redactMessage : List RegExp → JsString → Bool → (JsString × Bool) × List RegExp
  | [], message, redacted => ((message, redacted), [])
  | regex :: later, message, redacted =>
    let (matched, regex) := (regex.setLastIndex 0).test message
    if matched then
      let (message, regex) := regex.replace message REDACTED
      let (outcome, later) := redactMessage later message true
      (outcome, regex :: later)
    else
      let (outcome, later) := redactMessage later message redacted
      (outcome, regex :: later)

def scrubHistoryRows : List RegExp → HistoryScrubResult → List HistoryRow → HistoryScrubResult
  | _, result, [] => result
  | compiled, result, row :: later =>
    let ((message, redacted), compiled) := redactMessage compiled row.message false
    scrubHistoryRows compiled
      { rows := result.rows ++ [if redacted then { row with message } else row]
        redactedCount := if redacted then result.redactedCount + 1 else result.redactedCount } later

/-! ## The log of the agent -/

structure ScrubResult where
  kept : List AgentLogRow
  droppedCount : Nat
  redactedCount : Nat

structure CompiledRule where
  rule : ScrubRule
  regex : RegExp

/-- The rules on the texts of a row, `none` if it is dropped, with the expressions as they
are left. -/
def checkRules : List CompiledRule → JsString → JsString → Bool →
    Option (JsString × JsString × Bool) × List CompiledRule
  | [], message, processInfo, redacted => (some (message, processInfo, redacted), [])
  | ⟨rule, regex⟩ :: later, message, processInfo, redacted =>
    let (matchesMessage, regex) := (regex.setLastIndex 0).test message
    let (matchesProcessInfo, regex) := (regex.setLastIndex 0).test processInfo
    if !matchesMessage && !matchesProcessInfo then
      let (outcome, later) := checkRules later message processInfo redacted
      (outcome, ⟨rule, regex⟩ :: later)
    else
      match rule.action with
      | .drop => (none, ⟨rule, regex⟩ :: later)
      | .redact =>
        let (message, regex) := regex.replace message REDACTED
        let (processInfo, regex) := regex.replace processInfo REDACTED
        let (outcome, later) := checkRules later message processInfo true
        (outcome, ⟨rule, regex⟩ :: later)

def scrubRows (allowedSeverities : List JsString) : List CompiledRule → ScrubResult → List AgentLogRow → ScrubResult
  | _, result, [] => result
  | compiled, result, row :: later =>
    if row.severity ∈ allowedSeverities then
      match checkRules compiled row.message row.processInfo false with
      | (none, compiled) =>
        scrubRows allowedSeverities compiled { result with droppedCount := result.droppedCount + 1 } later
      | (some (message, processInfo, redacted), compiled) =>
        scrubRows allowedSeverities compiled
          { result with
            kept := result.kept ++ [{ row with message, processInfo }]
            redactedCount := if redacted then result.redactedCount + 1 else result.redactedCount } later
    else scrubRows allowedSeverities compiled { result with droppedCount := result.droppedCount + 1 } later

section Compiling
-- `parse` is what `new RegExp(pattern, 'giu')` makes of a pattern. It can throw.
variable (parse : JsString → Except JsString Pattern)

def compileScrubPattern (pattern : JsString) : Except JsString RegExp := do
  return { pattern := ← parse pattern, lastIndex := 0 }

def applyHistoryScrubRules (config : HistoryScrubConfig) (rows : List HistoryRow) :
    Except JsString HistoryScrubResult :=
  if config.rules.length = 0 then .ok ⟨rows, 0⟩
  else do
    let compiledRules ← config.rules.mapM (compileScrubPattern parse)
    return scrubHistoryRows compiledRules ⟨[], 0⟩ rows

def compileRules (rules : List ScrubRule) : Except JsString (List CompiledRule) :=
  rules.mapM fun rule => do return { rule, regex := ← compileScrubPattern parse rule.pattern }

def applyScrubRules (config : AgentLogScrubConfig) (rows : List AgentLogRow) : Except JsString ScrubResult := do
  let compiledRules ← compileRules parse config.rules
  return scrubRows config.allowedSeverities compiledRules ⟨[], 0, 0⟩ rows

end Compiling

/-! ## Patterns alone -/

/-- What the patterns make of a message, and whether one matched. -/
def redactedMessage : List Pattern → JsString → Bool → JsString × Bool
  | [], message, redacted => (message, redacted)
  | pattern :: later, message, redacted =>
    if pattern.occursIn message then redactedMessage later (pattern.replaced message REDACTED) true
    else redactedMessage later message redacted

theorem redactMessage_outcome (compiled : List RegExp) (message : JsString) (redacted : Bool) :
    (redactMessage compiled message redacted).1 = redactedMessage (compiled.map (·.pattern)) message redacted := by
  induction compiled generalizing message redacted with
  | nil => rfl
  | cons regex later ih =>
    simp only [redactMessage, RegExp.test_setLastIndex_zero, List.map_cons, redactedMessage]
    split
    · simp [RegExp.replace_eq, ih]
    · exact ih message redacted

/-- No pattern changes. -/
theorem redactMessage_compiled (compiled : List RegExp) (message : JsString) (redacted : Bool) :
    (redactMessage compiled message redacted).2.map (·.pattern) = compiled.map (·.pattern) := by
  induction compiled generalizing message redacted with
  | nil => rfl
  | cons regex later ih =>
    simp only [redactMessage, RegExp.test_setLastIndex_zero, List.map_cons]
    split
    · simp [RegExp.replace_eq, ih]
    · simp [ih]

/-- A rule as the texts of a row see it. -/
structure PatternRule where
  action : ScrubRuleAction
  pattern : Pattern

def CompiledRule.toPatternRule (compiled : CompiledRule) : PatternRule :=
  ⟨compiled.rule.action, compiled.regex.pattern⟩

@[simp] theorem toPatternRule_mk (rule : ScrubRule) (regex : RegExp) :
    CompiledRule.toPatternRule ⟨rule, regex⟩ = ⟨rule.action, regex.pattern⟩ := rfl

namespace PatternRule

/-- Whether a rule matches a row. -/
def Matches (rule : PatternRule) (row : AgentLogRow) : Prop :=
  rule.pattern.occursIn row.message = true ∨ rule.pattern.occursIn row.processInfo = true

instance (rule : PatternRule) (row : AgentLogRow) : Decidable (rule.Matches row) :=
  inferInstanceAs (Decidable (_ ∨ _))

/-- The row after a rule that redacts. -/
def redact (rule : PatternRule) (row : AgentLogRow) : AgentLogRow :=
  if rule.Matches row then { row with
    message := rule.pattern.replaced row.message REDACTED
    processInfo := rule.pattern.replaced row.processInfo REDACTED }
  else row

end PatternRule

/-- A row as rules redact it, one after the other. -/
def redactedBy (rules : List PatternRule) (row : AgentLogRow) : AgentLogRow :=
  rules.foldl (fun row rule => rule.redact row) row

/-- A rule that drops what it matches stands among the rules, and matches the row as the rules
before it redact it. -/
def DroppedBy (rules : List PatternRule) (row : AgentLogRow) : Prop :=
  ∃ before rule after, rules = before ++ rule :: after ∧ rule.action = .drop ∧ rule.Matches (redactedBy before row)

@[simp] theorem not_droppedBy_nil (row : AgentLogRow) : ¬ DroppedBy [] row := by
  rintro ⟨before, rule, after, split, -⟩
  cases before <;> cases split

theorem droppedBy_cons {rule : PatternRule} {later : List PatternRule} {row : AgentLogRow} :
    DroppedBy (rule :: later) row ↔ rule.action = .drop ∧ rule.Matches row ∨ DroppedBy later (rule.redact row) := by
  constructor
  · rintro ⟨before, dropping, after, split, drops, matched⟩
    cases before with
    | nil =>
      cases split
      exact .inl ⟨drops, matched⟩
    | cons first before =>
      cases split
      exact .inr ⟨before, dropping, after, rfl, drops, matched⟩
  · rintro (⟨drops, matched⟩ | ⟨before, dropping, after, rfl, drops, matched⟩)
    · exact ⟨[], rule, later, rfl, drops, matched⟩
    · exact ⟨rule :: before, dropping, after, rfl, drops, matched⟩

/-- What the rules make of a row, and whether one redacted it. -/
def checkedRow : List PatternRule → AgentLogRow → Bool → Option (AgentLogRow × Bool)
  | [], row, redacted => some (row, redacted)
  | rule :: later, row, redacted =>
    if rule.Matches row then
      match rule.action with
      | .drop => none
      | .redact => checkedRow later (rule.redact row) true
    else checkedRow later row redacted

theorem checkRules_outcome (compiled : List CompiledRule) (row : AgentLogRow) (redacted : Bool) :
    (checkRules compiled row.message row.processInfo redacted).1 =
      (checkedRow (compiled.map (·.toPatternRule)) row redacted).map fun checked =>
        (checked.1.message, checked.1.processInfo, checked.2) := by
  induction compiled generalizing row redacted with
  | nil => rfl
  | cons first later ih =>
    obtain ⟨rule, regex⟩ := first
    by_cases matched : PatternRule.Matches ⟨rule.action, regex.pattern⟩ row
    · have found : (!regex.pattern.occursIn row.message && !regex.pattern.occursIn row.processInfo) = false := by
        rcases matched with message | processInfo
        · simp only [message, Bool.not_true, Bool.false_and]
        · simp only [processInfo, Bool.not_true, Bool.and_false]
      cases action : rule.action with
      | drop =>
        rw [action] at matched
        simp [checkRules, checkedRow, found, action, matched]
      | redact =>
        rw [action] at matched
        have redacting := ih (PatternRule.redact ⟨.redact, regex.pattern⟩ row) true
        simp only [PatternRule.redact, if_pos matched] at redacting
        simp [checkRules, checkedRow, RegExp.replace_eq, found, action, matched, PatternRule.redact, redacting]
    · have missed : (!regex.pattern.occursIn row.message && !regex.pattern.occursIn row.processInfo) = true := by
        simpa [PatternRule.Matches] using matched
      simp [checkRules, checkedRow, missed, matched, ih]

/-- No rule and no pattern changes. -/
theorem checkRules_compiled (compiled : List CompiledRule) (message processInfo : JsString) (redacted : Bool) :
    (checkRules compiled message processInfo redacted).2.map (·.toPatternRule) = compiled.map (·.toPatternRule) := by
  induction compiled generalizing message processInfo redacted with
  | nil => rfl
  | cons first later ih =>
    obtain ⟨rule, regex⟩ := first
    simp only [checkRules, RegExp.test_setLastIndex_zero]
    split
    · simp [ih]
    · split <;> simp [RegExp.replace_eq, ih]

theorem checkedRow_eq_none (rules : List PatternRule) (row : AgentLogRow) (redacted : Bool) :
    checkedRow rules row redacted = none ↔ DroppedBy rules row := by
  induction rules generalizing row redacted with
  | nil => simp [checkedRow]
  | cons rule later ih =>
    rw [droppedBy_cons, checkedRow]
    by_cases matched : rule.Matches row
    · cases action : rule.action with
      | drop => simp [matched]
      | redact => simp [matched, ih]
    · simp [matched, ih, PatternRule.redact]

/-- A row that is kept is as the rules redact it. -/
theorem checkedRow_row {rules : List PatternRule} {row : AgentLogRow} {redacted : Bool} {checked : AgentLogRow × Bool}
    (kept : checkedRow rules row redacted = some checked) : checked.1 = redactedBy rules row := by
  induction rules generalizing row redacted with
  | nil =>
    cases kept
    rfl
  | cons rule later ih =>
    rw [checkedRow] at kept
    by_cases matched : rule.Matches row
    · rw [if_pos matched] at kept
      cases action : rule.action with
      | drop => simp [action] at kept
      | redact =>
        simp only [action] at kept
        exact ih kept
    · rw [if_neg matched] at kept
      have same : rule.redact row = row := if_neg matched
      rw [redactedBy, List.foldl_cons, same]
      exact ih kept

/-- Redacting changes two texts of a row and nothing else. -/
theorem redactedBy_frame (rules : List PatternRule) (row : AgentLogRow) :
    redactedBy rules row = { row with
      message := (redactedBy rules row).message
      processInfo := (redactedBy rules row).processInfo } := by
  induction rules generalizing row with
  | nil => rfl
  | cons rule later ih =>
    have rest := ih (rule.redact row)
    have loggedAt : (rule.redact row).loggedAt = row.loggedAt := by
      unfold PatternRule.redact
      split <;> rfl
    have severity : (rule.redact row).severity = row.severity := by
      unfold PatternRule.redact
      split <;> rfl
    rw [loggedAt, severity] at rest
    exact rest

/-! ## Rows alone -/

/-- Two results, one after the other. -/
def HistoryScrubResult.append (first second : HistoryScrubResult) : HistoryScrubResult :=
  ⟨first.rows ++ second.rows, first.redactedCount + second.redactedCount⟩

@[inherit_doc HistoryScrubResult.append]
def ScrubResult.append (first second : ScrubResult) : ScrubResult :=
  ⟨first.kept ++ second.kept, first.droppedCount + second.droppedCount, first.redactedCount + second.redactedCount⟩

/-- A message that no pattern matches is as it was. -/
theorem redactedMessage_unmatched {patterns : List Pattern} {message : JsString} {redacted : Bool}
    (unmatched : (redactedMessage patterns message redacted).2 = false) :
    (redactedMessage patterns message redacted).1 = message := by
  have kept : ∀ patterns message, (redactedMessage patterns message true).2 = true := by
    intro patterns
    induction patterns with
    | nil => exact fun _ => rfl
    | cons pattern later ih =>
      intro message
      rw [redactedMessage]
      split <;> exact ih _
  induction patterns generalizing message redacted with
  | nil => rfl
  | cons pattern later ih =>
    rw [redactedMessage] at unmatched ⊢
    split at unmatched
    · rw [kept] at unmatched
      cases unmatched
    next missed =>
      rw [if_neg missed]
      exact ih unmatched

def historyAlone (patterns : List Pattern) (row : HistoryRow) : HistoryScrubResult where
  rows := [{ row with message := (redactedMessage patterns row.message false).1 }]
  redactedCount := if (redactedMessage patterns row.message false).2 then 1 else 0

def rowAlone (allowedSeverities : List JsString) (rules : List PatternRule) (row : AgentLogRow) : ScrubResult :=
  if row.severity ∈ allowedSeverities then
    (checkedRow rules row false).elim ⟨[], 1, 0⟩ fun checked => ⟨[checked.1], 0, if checked.2 then 1 else 0⟩
  else ⟨[], 1, 0⟩

theorem scrubHistoryRows_eq (compiled : List RegExp) (result : HistoryScrubResult) (rows : List HistoryRow) :
    scrubHistoryRows compiled result rows =
      rows.foldl (fun result row => result.append (historyAlone (compiled.map (·.pattern)) row)) result := by
  induction rows generalizing compiled result with
  | nil => rfl
  | cons row later ih =>
    simp only [scrubHistoryRows, ih, redactMessage_compiled, redactMessage_outcome, List.foldl_cons]
    congr 1
    rw [HistoryScrubResult.append, historyAlone]
    cases redacted : (redactedMessage (compiled.map (·.pattern)) row.message false).2 with
    | true => rfl
    | false =>
      have same := redactedMessage_unmatched redacted
      simp [same]

theorem scrubRows_eq (allowedSeverities : List JsString) (compiled : List CompiledRule) (result : ScrubResult)
    (rows : List AgentLogRow) :
    scrubRows allowedSeverities compiled result rows =
      rows.foldl (fun result row => result.append
        (rowAlone allowedSeverities (compiled.map (·.toPatternRule)) row)) result := by
  induction rows generalizing compiled result with
  | nil => rfl
  | cons row later ih =>
    rw [scrubRows, List.foldl_cons, rowAlone]
    by_cases allowed : row.severity ∈ allowedSeverities
    · rw [if_pos allowed, if_pos allowed]
      have outcome := checkRules_outcome compiled row false
      have unchanged := checkRules_compiled compiled row.message row.processInfo false
      generalize checkRules compiled row.message row.processInfo false = checkedAs at outcome unchanged
      obtain ⟨found, compiledAfter⟩ := checkedAs
      cases kept : checkedRow (compiled.map (·.toPatternRule)) row false with
      | none =>
        obtain rfl : found = none := by simpa [kept] using outcome
        simp only at unchanged
        simp [ih, unchanged, ScrubResult.append]
      | some checked =>
        obtain rfl : found = some (checked.1.message, checked.1.processInfo, checked.2) := by simpa [kept] using outcome
        have same := (checkedRow_row kept).trans (redactedBy_frame _ row)
        rw [← checkedRow_row kept] at same
        simp only at unchanged
        simp only [ih, unchanged, ScrubResult.append, Option.elim, Nat.add_zero]
        rw [← same]
        cases checked.2 <;> rfl
    · rw [if_neg allowed, if_neg allowed, ih]
      simp [ScrubResult.append]

@[simp] theorem HistoryScrubResult.empty_append (result : HistoryScrubResult) :
    HistoryScrubResult.append ⟨[], 0⟩ result = result := by
  simp [append]

@[simp] theorem ScrubResult.empty_append (result : ScrubResult) : ScrubResult.append ⟨[], 0, 0⟩ result = result := by
  simp [append]

variable {parse : JsString → Except JsString Pattern}

theorem applyHistoryScrubRules_eq (config : HistoryScrubConfig) (rows : List HistoryRow) :
    applyHistoryScrubRules parse config rows =
      (config.rules.mapM (compileScrubPattern parse)).map fun compiled =>
        (rows.map (historyAlone (compiled.map (·.pattern)))).foldl .append ⟨[], 0⟩ := by
  have unfiltered : ∀ first : List HistoryRow,
      (rows.map (historyAlone [])).foldl HistoryScrubResult.append ⟨first, 0⟩ = ⟨first ++ rows, 0⟩ := by
    induction rows with
    | nil => simp
    | cons row later ih =>
      intro first
      have next := ih (first ++ [row])
      rw [List.append_assoc, List.singleton_append] at next
      exact next
  unfold applyHistoryScrubRules
  split
  next none =>
    rw [List.length_eq_zero_iff.mp none]
    exact congrArg Except.ok (unfiltered []).symm
  next some =>
    cases config.rules.mapM (compileScrubPattern parse) with
    | error thrown => rfl
    | ok compiled =>
      have looped := scrubHistoryRows_eq compiled ⟨[], 0⟩ rows
      rw [← List.foldl_map] at looped
      exact congrArg Except.ok looped

theorem applyScrubRules_eq (config : AgentLogScrubConfig) (rows : List AgentLogRow) :
    applyScrubRules parse config rows =
      (compileRules parse config.rules).map fun compiled =>
        (rows.map (rowAlone config.allowedSeverities (compiled.map (·.toPatternRule)))).foldl .append ⟨[], 0, 0⟩ := by
  unfold applyScrubRules
  cases compileRules parse config.rules with
  | error thrown => rfl
  | ok compiled =>
    have looped := scrubRows_eq config.allowedSeverities compiled ⟨[], 0, 0⟩ rows
    rw [← List.foldl_map] at looped
    exact congrArg Except.ok looped

/-! ## The rows of a batch -/

theorem rows_foldl_historyAlone (patterns : List Pattern) (rows : List HistoryRow) (result : HistoryScrubResult) :
    ((rows.map (historyAlone patterns)).foldl .append result).rows =
      result.rows ++ rows.map fun row => { row with message := (redactedMessage patterns row.message false).1 } := by
  induction rows generalizing result with
  | nil => simp
  | cons row later ih => simp [ih, HistoryScrubResult.append, historyAlone]

/-- What becomes of a row of the log. -/
def scrubbed (allowedSeverities : List JsString) (rules : List PatternRule) (row : AgentLogRow) : Option AgentLogRow :=
  if row.severity ∈ allowedSeverities then (checkedRow rules row false).map Prod.fst else none

theorem scrubbed_eq_none {allowedSeverities : List JsString} {rules : List PatternRule} {row : AgentLogRow} :
    scrubbed allowedSeverities rules row = none ↔ row.severity ∉ allowedSeverities ∨ DroppedBy rules row := by
  by_cases allowed : row.severity ∈ allowedSeverities <;> simp [scrubbed, allowed, checkedRow_eq_none]

theorem scrubbed_eq_some {allowedSeverities : List JsString} {rules : List PatternRule} {row kept : AgentLogRow}
    (passed : scrubbed allowedSeverities rules row = some kept) : kept = redactedBy rules row := by
  unfold scrubbed at passed
  split at passed
  · obtain ⟨checked, found, rfl⟩ := Option.map_eq_some_iff.mp passed
    exact checkedRow_row found
  · cases passed

theorem rowAlone_kept (allowedSeverities : List JsString) (rules : List PatternRule) (row : AgentLogRow) :
    (rowAlone allowedSeverities rules row).kept = (scrubbed allowedSeverities rules row).toList := by
  unfold rowAlone scrubbed
  split
  · cases checkedRow rules row false <;> rfl
  · rfl

theorem rowAlone_total (allowedSeverities : List JsString) (rules : List PatternRule) (row : AgentLogRow) :
    (rowAlone allowedSeverities rules row).kept.length + (rowAlone allowedSeverities rules row).droppedCount = 1 := by
  unfold rowAlone
  split
  · cases checkedRow rules row false <;> rfl
  · rfl

theorem kept_foldl_rowAlone (allowedSeverities : List JsString) (rules : List PatternRule) (rows : List AgentLogRow)
    (result : ScrubResult) :
    ((rows.map (rowAlone allowedSeverities rules)).foldl .append result).kept =
      result.kept ++ rows.filterMap (scrubbed allowedSeverities rules) := by
  induction rows generalizing result with
  | nil => simp
  | cons row later ih =>
    rw [List.map_cons, List.foldl_cons, ih, List.filterMap_cons]
    cases kept : scrubbed allowedSeverities rules row <;>
      simp [ScrubResult.append, rowAlone_kept, kept]

theorem total_foldl_rowAlone (allowedSeverities : List JsString) (rules : List PatternRule) (rows : List AgentLogRow)
    (result : ScrubResult) :
    ((rows.map (rowAlone allowedSeverities rules)).foldl .append result).kept.length +
      ((rows.map (rowAlone allowedSeverities rules)).foldl .append result).droppedCount =
        result.kept.length + result.droppedCount + rows.length := by
  induction rows generalizing result with
  | nil => simp
  | cons row later ih =>
    have alone := rowAlone_total allowedSeverities rules row
    rw [List.map_cons, List.foldl_cons, ih]
    simp only [ScrubResult.append, List.length_append, List.length_cons]
    omega

/-- Where what is compiled makes the result of a batch of the results of its rows, so does
what is compiled for each of them. -/
theorem batch_eq_alone {Row Result Compiled : Type} {apply : List Row → Except JsString Result}
    {compiling : Except JsString Compiled} {alone : Compiled → Row → Result} {append : Result → Result → Result}
    {empty : Result} (empty_append : ∀ result, append empty result = result)
    (batch : ∀ rows, apply rows = compiling.map fun compiled => (rows.map (alone compiled)).foldl append empty)
    (rows : List Row) :
    apply rows = do
      let none ← apply []
      let alone ← rows.mapM fun row => apply [row]
      return alone.foldl append none := by
  cases compiling with
  | error thrown =>
    rw [batch rows, batch []]
    rfl
  | ok compiled =>
    have one : ∀ row, apply [row] = pure (alone compiled row) := by
      intro row
      rw [batch]
      exact congrArg Except.ok (empty_append _)
    simp only [one, List.mapM_pure]
    rw [batch rows, batch []]
    rfl

/-- Each row is scrubbed as if it came alone, with the rules compiled for it: a batch gives
what its rows give, one after the other. No row of history is lost, and only its message
changes. A row of the log is dropped exactly if its severity is not allowed or some rule drops
it as the rules before redact it; else two of its texts are redacted and the rest is kept. -/
theorem scrubbing_alone (parse : JsString → Except JsString Pattern) :
    (∀ config rows, applyHistoryScrubRules parse config rows = do
      let none ← applyHistoryScrubRules parse config []
      let alone ← rows.mapM fun row => applyHistoryScrubRules parse config [row]
      return alone.foldl HistoryScrubResult.append none) ∧
    (∀ config rows result, applyHistoryScrubRules parse config rows = .ok result →
      List.Forall₂ (fun row scrubbed => scrubbed = { row with message := scrubbed.message }) rows result.rows) ∧
    (∀ config rows, applyScrubRules parse config rows = do
      let none ← applyScrubRules parse config []
      let alone ← rows.mapM fun row => applyScrubRules parse config [row]
      return alone.foldl ScrubResult.append none) ∧
    ∀ config rows result, applyScrubRules parse config rows = .ok result →
      result.kept.length + result.droppedCount = rows.length ∧
      ∃ compiled, compileRules parse config.rules = .ok compiled ∧
        ∃ scrub : AgentLogRow → Option AgentLogRow, result.kept = rows.filterMap scrub ∧
          (∀ row, scrub row = none ↔
            row.severity ∉ config.allowedSeverities ∨ DroppedBy (compiled.map (·.toPatternRule)) row) ∧
          ∀ row kept, scrub row = some kept →
            kept = { row with message := kept.message, processInfo := kept.processInfo } := by
  refine ⟨?_, ?_, ?_, ?_⟩
  · intro config rows
    exact batch_eq_alone HistoryScrubResult.empty_append (applyHistoryScrubRules_eq config) rows
  · intro config rows result applied
    rw [applyHistoryScrubRules_eq] at applied
    cases compiledAs : config.rules.mapM (compileScrubPattern parse) with
    | error thrown =>
      rw [compiledAs] at applied
      cases applied
    | ok compiled =>
      rw [compiledAs] at applied
      cases applied
      rw [rows_foldl_historyAlone, List.nil_append, List.forall₂_map_right_iff, List.forall₂_same]
      exact fun _ _ => rfl
  · intro config rows
    exact batch_eq_alone ScrubResult.empty_append (applyScrubRules_eq config) rows
  · intro config rows result applied
    rw [applyScrubRules_eq] at applied
    cases compiledAs : compileRules parse config.rules with
    | error thrown =>
      rw [compiledAs] at applied
      cases applied
    | ok compiled =>
      rw [compiledAs] at applied
      cases applied
      have total := total_foldl_rowAlone config.allowedSeverities (compiled.map (·.toPatternRule)) rows ⟨[], 0, 0⟩
      refine ⟨by simpa using total, compiled, rfl, scrubbed config.allowedSeverities (compiled.map (·.toPatternRule)),
        by rw [kept_foldl_rowAlone]; rfl, fun row => scrubbed_eq_none, ?_⟩
      intro row kept passed
      rw [scrubbed_eq_some passed]
      exact redactedBy_frame _ row

theorem literal_forward {text s : JsString} {index stop : Nat} {groups : List (Option JsString)}
    (found : (if index + text.length ≤ s.length ∧ text <+: s.drop index then
      some (index + text.length, ([] : List (Option JsString))) else none) = some (stop, groups)) :
    index ≤ stop ∧ stop ≤ s.length := by
  split at found
  next fits =>
    cases found
    exact ⟨Nat.le_add_right _ _, fits.1⟩
  next => cases found

/-- A pattern with nothing special in it, and no letters. -/
def literal (text : JsString) : Pattern where
  unicode := true
  matchAt s index :=
    if index + text.length ≤ s.length ∧ text <+: s.drop index then some (index + text.length, []) else none
  forward := literal_forward

def numberRules : AgentLogScrubConfig where
  allowedSeverities := [js "error"]
  rules := [⟨js "42", .redact⟩, ⟨js "7", .drop⟩]

def numberRows : List AgentLogRow :=
  [⟨none, js "error", js "42 of 42", js "42"⟩, ⟨none, js "error", js "7", []⟩, ⟨none, js "warning", [], []⟩]

theorem scrubbing_alone_numbers :
    ∃ result, applyScrubRules (fun pattern => .ok (literal pattern)) numberRules numberRows = .ok result ∧
      result.kept.length + result.droppedCount = 3 ∧ result.kept.map (·.message) = [js "[redacted] of [redacted]"] := by
  have kept : (applyScrubRules (fun pattern => .ok (literal pattern)) numberRules numberRows).toOption.map
      (fun result => result.kept.map (·.message)) = some [js "[redacted] of [redacted]"] := by decide +kernel
  obtain ⟨result, applied⟩ : ∃ result,
      applyScrubRules (fun pattern => .ok (literal pattern)) numberRules numberRows = .ok result := ⟨_, rfl⟩
  rw [applied] at kept
  have total := (scrubbing_alone fun pattern => .ok (literal pattern)).2.2.2 numberRules numberRows result applied
  exact ⟨result, applied, total.1, Option.some.inj kept⟩

/-! ## What the hub stores -/

/-- A pattern as a text sees it. -/
def toScrubPattern (pattern : Pattern) : ScrubPattern where
  test := pattern.occursIn
  redact message := pattern.replaced message REDACTED

theorem mapM_map_ok {α β γ : Type} {compile : α → Except JsString β} (f : β → γ) (elements : List α) :
    (elements.mapM fun element => (compile element).map f) = (elements.mapM compile).map (List.map f) := by
  induction elements with
  | nil => rfl
  | cons element later ih =>
    rw [List.mapM_cons, List.mapM_cons, ih]
    cases compile element with
    | error thrown => rfl
    | ok made => cases later.mapM compile <;> rfl

theorem redactedMessage_foldl (patterns : List Pattern) (message : JsString) (redacted : Bool) :
    (redactedMessage patterns message redacted).1 =
      (patterns.map toScrubPattern).foldl (fun message pattern =>
        if pattern.test message then pattern.redact message else message) message := by
  induction patterns generalizing message redacted with
  | nil => rfl
  | cons pattern later ih =>
    rw [redactedMessage, List.map_cons, List.foldl_cons]
    cases matched : pattern.occursIn message <;> simp [toScrubPattern, matched, ih]

theorem scrubRow_eq (rules : List PatternRule) (row : AgentLogRow) (redacted : Bool) :
    scrubRow (rules.map fun rule => (rule.action, toScrubPattern rule.pattern)) row =
      (checkedRow rules row redacted).map Prod.fst := by
  induction rules generalizing row redacted with
  | nil => rfl
  | cons rule later ih =>
    obtain ⟨action, pattern⟩ := rule
    have tested : ((toScrubPattern pattern).test row.message || (toScrubPattern pattern).test row.processInfo) = true ↔
        PatternRule.Matches ⟨action, pattern⟩ row := by
      simp [toScrubPattern, PatternRule.Matches]
    by_cases matched : PatternRule.Matches ⟨action, pattern⟩ row
    · cases action with
      | drop => simp [scrubRow, checkedRow, tested, matched]
      | redact =>
        have redacting := ih (PatternRule.redact ⟨.redact, pattern⟩ row) true
        simp only [PatternRule.redact, if_pos matched] at redacting
        simp only [List.map_cons, scrubRow, tested, matched, checkedRow, PatternRule.redact, if_true]
        exact redacting
    · cases action <;> simp [scrubRow, checkedRow, tested, matched, ih row redacted]

/-- The rows of history that the hub stores are those that the expressions leave. -/
theorem applyHistoryScrubRules_rows (config : HistoryScrubConfig) (rows : List HistoryRow) :
    RemoteSqlAgent.applyHistoryScrubRules (fun pattern => (parse pattern).map toScrubPattern) config rows =
      (applyHistoryScrubRules parse config rows).map (·.rows) := by
  have compiling : (config.rules.mapM fun pattern => (parse pattern).map toScrubPattern) =
      (config.rules.mapM (compileScrubPattern parse)).map
        (List.map fun regex => toScrubPattern regex.pattern) := by
    rw [← mapM_map_ok]
    congr 1
    funext pattern
    rw [compileScrubPattern]
    cases parse pattern <;> rfl
  rw [RemoteSqlAgent.applyHistoryScrubRules, compiling, applyHistoryScrubRules_eq]
  cases config.rules.mapM (compileScrubPattern parse) with
  | error thrown => rfl
  | ok compiled =>
    apply congrArg Except.ok
    refine Eq.trans ?_ (rows_foldl_historyAlone (compiled.map (·.pattern)) rows ⟨[], 0⟩).symm
    apply List.map_congr_left
    intro row _
    rw [redactedMessage_foldl, List.map_map]
    rfl

/-- The rows of the log that the hub stores are those that the expressions leave. -/
theorem applyScrubRules_kept (config : AgentLogScrubConfig) (rows : List AgentLogRow) :
    RemoteSqlAgent.applyScrubRules (fun pattern => (parse pattern).map toScrubPattern) config rows =
      (applyScrubRules parse config rows).map (·.kept) := by
  have compiling : (config.rules.mapM fun rule => do
        return (rule.action, ← (parse rule.pattern).map toScrubPattern)) =
      (compileRules parse config.rules).map
        (List.map fun compiled => (compiled.rule.action, toScrubPattern compiled.regex.pattern)) := by
    rw [compileRules, ← mapM_map_ok]
    congr 1
    funext rule
    rw [compileScrubPattern]
    cases parse rule.pattern <;> rfl
  rw [RemoteSqlAgent.applyScrubRules, compiling, applyScrubRules_eq]
  cases compileRules parse config.rules with
  | error thrown => rfl
  | ok compiled =>
    apply congrArg Except.ok
    refine Eq.trans ?_ (kept_foldl_rowAlone config.allowedSeverities _ rows ⟨[], 0, 0⟩).symm
    apply List.filterMap_congr
    intro row _
    have same := scrubRow_eq (compiled.map (·.toPatternRule)) row false
    rw [List.map_map] at same
    rw [scrubbed, ← same]
    rfl

end RemoteSqlAgent.Scrubbing
