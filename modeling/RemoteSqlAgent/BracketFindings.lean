import RemoteSqlAgent.BracketWords
import RemoteSqlAgent.PowerShellLint
import RemoteSqlAgent.TsqlMasking
import RemoteSqlAgent.TsqlRules

/-! What the linters report of brackets, against the words in which brackets are well nested
and the matching of what opens with what closes. -/
namespace RemoteSqlAgent.Lint
open Js BracketWords

/-- What is pushed only while there is room, of a list that is cut at that length. -/
theorem capped_push {α β : Type} (report : α → β) (cap : Nat) (items : List α) (item : α) :
    (if ((items.take cap).map report).length < cap then (items.take cap).map report ++ [report item]
      else (items.take cap).map report) = ((items ++ [item]).take cap).map report := by
  rw [List.length_map, List.length_take]
  by_cases room : items.length < cap
  · rw [if_pos (by omega), List.take_of_length_le (Nat.le_of_lt room), List.take_of_length_le, List.map_append]
    · rfl
    · rw [List.length_append, List.length_singleton]
      exact room
  · rw [if_neg (by omega), List.take_append_of_le_length (Nat.not_lt.mp room)]

theorem code_advise {masked : JsString} {locate : Locator} {rule : Advisory} {diagnostic : Diagnostic}
    (member : diagnostic ∈ advise masked locate rule) : diagnostic.code = rule.fields.code := by
  obtain ⟨found, _, reported⟩ := exists_of_mem_reportEach member
  cases reported
  rfl

/-! ## T-SQL -/

namespace Tsql

def parenLetter (c : CodeUnit) : Option (Letter Unit) :=
  if c = openParen then some (.opens ()) else if c = closeParen then some (.closes ()) else none

/-- The offsets of what is open, as the linter keeps them. -/
def offsets (stack : Stack Unit) : List Nat := (stack.opened.map Prod.snd).reverse

/-- The loop keeps the stack, and reports of what strays as much as there is room for. -/
theorem parenLoop_eq (locate : Locator) (rest : JsString) (i : Nat) (stack : Stack Unit) :
    parenLoop locate rest i (offsets stack) ((stack.stray.take MAX_PER_RULE).map (strayParen locate)) =
      (offsets (stackFrom parenLetter rest i stack),
        ((stackFrom parenLetter rest i stack).stray.take MAX_PER_RULE).map (strayParen locate)) := by
  induction rest generalizing i stack with
  | nil => rfl
  | cons c rest ih =>
    rw [parenLoop, stackFrom]
    by_cases opens : c = openParen
    · have letter : parenLetter c = some (.opens ()) := if_pos opens
      rw [if_pos opens, letter, Option.elim_some, ← ih]
      simp [offsets, Stack.step]
    · rw [if_neg opens]
      by_cases closes : c = closeParen
      · have letter : parenLetter c = some (.closes ()) := (if_neg opens).trans (if_pos closes)
        rw [if_pos closes, letter, Option.elim_some, step_closes, ← ih]
        cases opened : stack.opened with
        | nil =>
          have none : offsets stack = [] := by rw [offsets, opened]; rfl
          have pushed := capped_push (strayParen locate) MAX_PER_RULE stack.stray i
          simp only [none, List.length_nil, true_and, pushed, ↓reduceIte]
          rfl
        | cons top below =>
          have busy : (offsets stack).length ≠ 0 := by simp [offsets, opened]
          simp only [busy, false_and, ↓reduceIte, List.cons_ne_nil]
          simp only [offsets, opened, List.map_cons, List.dropLast_reverse, List.tail_cons]
      · have letter : parenLetter c = none := (if_neg opens).trans (if_neg closes)
        rw [if_neg closes, letter, Option.elim_none, ih]

theorem parenBalance_eq (masked : JsString) (locate : Locator) : parenBalance masked locate =
    ((stackOf parenLetter masked).stray.take MAX_PER_RULE).map (strayParen locate) ++
      ((offsets (stackOf parenLetter masked)).take MAX_PER_RULE).map (unclosedParen locate) := by
  have loop := parenLoop_eq locate masked 0 ⟨[], []⟩
  rw [parenBalance]
  exact congrArg (fun result => result.2 ++ (result.1.take MAX_PER_RULE).map (unclosedParen locate)) loop

def parenCode : JsString := js "tsql/unbalanced-paren"

theorem code_parenBalance {masked : JsString} {locate : Locator} {diagnostic : Diagnostic}
    (member : diagnostic ∈ parenBalance masked locate) : diagnostic.code = parenCode := by
  rw [parenBalance_eq, List.mem_append, List.mem_map, List.mem_map] at member
  rcases member with ⟨_, _, rfl⟩ | ⟨_, _, rfl⟩ <;> rfl

/-! ### The other findings -/

theorem code_scan {text : JsString} {locate : Locator} {diagnostic : Diagnostic}
    (member : diagnostic ∈ (scan text locate).diagnostics) : diagnostic.code ≠ parenCode := by
  obtain ⟨regions, lexed⟩ := exists_lexed text 0
  rw [scan, lexed.scanned, List.nil_append, List.mem_flatMap] at member
  obtain ⟨region, _, found⟩ := member
  unfold finding at found
  split at found
  · cases found
  · split at found
    · cases found
    · rw [List.mem_singleton.mp found]
      exact (by decide : js "tsql/unterminated-comment" ≠ parenCode)
    · rw [List.mem_singleton.mp found, unterminatedQuote]
      split
      · exact (by decide : js "tsql/unterminated-string" ≠ parenCode)
      · exact (by decide : js "tsql/unterminated-identifier" ≠ parenCode)

/-- What the block rule reports in its loop is one of two findings. -/
theorem blockLoop_reports {masked : JsString} {locate : Locator} {P : Diagnostic → Prop}
    (go : ∀ offset, P (goInsideBlock locate offset)) (stray : ∀ offset, P (strayEnd locate offset))
    (found : List Found) (opened : List OpenBlock) {out : List Diagnostic} (all : ∀ diagnostic ∈ out, P diagnostic) :
    ∀ diagnostic ∈ (blockLoop masked locate found opened out).2, P diagnostic := by
  induction found generalizing opened out with
  | nil => exact all
  | cons head later ih =>
    have pushed {item : Diagnostic} {room : Prop} [Decidable room] (reported : P item) :
        ∀ diagnostic ∈ if room then out ++ [item] else out, P diagnostic := by
      split
      · exact List.forall_mem_append.mpr ⟨all, List.forall_mem_singleton.mpr reported⟩
      · exact all
    unfold blockLoop
    dsimp only
    split
    · exact ih _ (pushed (go _))
    · split
      · exact ih _ all
      · split
        · exact ih _ all
        · split
          · split
            · exact ih _ all
            · split
              · exact ih _ (pushed (stray _))
              · exact ih _ all
          · exact ih _ all

theorem code_blockStructure {masked : JsString} {locate : Locator} {diagnostic : Diagnostic}
    (member : diagnostic ∈ blockStructure masked locate) : diagnostic.code ≠ parenCode := by
  rw [blockStructure, List.mem_append, List.mem_map] at member
  rcases member with member | ⟨block, _, rfl⟩
  · refine blockLoop_reports (P := fun diagnostic => diagnostic.code ≠ parenCode) (fun offset => ?_) (fun offset => ?_)
      _ [] (fun _ member => absurd member List.not_mem_nil) diagnostic member
    · exact (by decide : js "tsql/go-inside-block" ≠ parenCode)
    · exact (by decide : js "tsql/unbalanced-block" ≠ parenCode)
  · exact (by decide : js "tsql/unbalanced-block" ≠ parenCode)

theorem code_raiserrorSeverity {masked : JsString} {locate : Locator} {diagnostic : Diagnostic}
    (member : diagnostic ∈ raiserrorSeverity masked locate) : diagnostic.code ≠ parenCode := by
  obtain ⟨found, _, reported⟩ := exists_of_mem_reportEach member
  simp only [raiserrorNotFatal] at reported
  split at reported
  · cases reported
  · cases reported
    exact (by decide : js "tsql/raiserror-not-fatal" ≠ parenCode)

theorem code_statementSeparators {masked : JsString} {locate : Locator} {diagnostic : Diagnostic}
    (member : diagnostic ∈ statementSeparators masked locate) : diagnostic.code ≠ parenCode := by
  obtain ⟨check, _, member⟩ := List.mem_flatMap.mp member
  obtain ⟨found, _, reported⟩ := exists_of_mem_reportEach member
  unfold missingSemicolon at reported
  split at reported
  · cases reported
  · cases reported
    exact (by decide : js "tsql/missing-semicolon" ≠ parenCode)

theorem code_unqualifiedWrites {masked : JsString} {locate : Locator} {diagnostic : Diagnostic}
    (member : diagnostic ∈ unqualifiedWrites masked locate) : diagnostic.code ≠ parenCode := by
  obtain ⟨stmt, _, reported⟩ := exists_of_mem_reportEach member
  simp only [unqualifiedWrite] at reported
  split at reported
  · cases reported
  · split at reported
    · cases reported
    · split at reported
      · cases reported
      · split at reported
        · cases reported
        · cases reported
          exact (by decide : js "tsql/write-without-where" ≠ parenCode)

theorem code_advisories {masked : JsString} {locate : Locator} {diagnostic : Diagnostic}
    (member : diagnostic ∈ advisories masked locate) : diagnostic.code ≠ parenCode := by
  obtain ⟨rule, listed, member⟩ := List.mem_flatMap.mp member
  rw [code_advise member]
  simp only [List.mem_cons, List.not_mem_nil, or_false] at listed
  rcases listed with rfl | rfl
  · exact (by decide : js "tsql/xp-cmdshell" ≠ parenCode)
  · exact (by decide : js "tsql/nolock" ≠ parenCode)

end Tsql

/-- The findings of one code in what a rule reports under others. -/
theorem none_of_code {diagnostics : List Diagnostic} {code : JsString}
    (others : ∀ diagnostic ∈ diagnostics, diagnostic.code ≠ code) :
    (diagnostics.filter fun diagnostic => diagnostic.code = code) = [] :=
  List.filter_eq_nil_iff.mpr fun diagnostic member same => others diagnostic member (of_decide_eq_true same)

theorem all_of_code {diagnostics : List Diagnostic} {code : JsString}
    (same : ∀ diagnostic ∈ diagnostics, diagnostic.code = code) :
    (diagnostics.filter fun diagnostic => diagnostic.code = code) = diagnostics :=
  List.filter_eq_self.mpr fun diagnostic member => decide_eq_true (same diagnostic member)

theorem exists_code_iff {diagnostics : List Diagnostic} {code : JsString} :
    (∃ diagnostic ∈ diagnostics, diagnostic.code = code) ↔
      (diagnostics.filter fun diagnostic => diagnostic.code = code) ≠ [] := by
  rw [Ne, List.filter_eq_nil_iff]
  push Not
  simp only [decide_eq_true_eq]

namespace Tsql

/-- The findings of unbalanced brackets are those of one rule. -/
theorem parens_eq (text : JsString) : ((lintTsql text).filter fun diagnostic => diagnostic.code = parenCode) =
    parenBalance (scan text (makeLocator text)).masked (makeLocator text) := by
  simp only [lintTsql, List.filter_append]
  rw [none_of_code fun _ => code_scan, all_of_code fun _ => code_parenBalance,
    none_of_code fun _ => code_blockStructure, none_of_code fun _ => code_raiserrorSeverity,
    none_of_code fun _ => code_statementSeparators, none_of_code fun _ => code_unqualifiedWrites,
    none_of_code fun _ => code_advisories]
  simp only [List.nil_append, List.append_nil]

/-- A bracket is reported unless all are matched. -/
theorem parenBalance_nil {masked : JsString} {locate : Locator} :
    parenBalance masked locate = [] ↔ WellNested (word parenLetter masked) := by
  rw [wellNested_iff_clean, parenBalance_eq]
  simp [offsets, MAX_PER_RULE]

/-- How an unmatched bracket is reported. -/
def mark (locate : Locator) (masked : JsString) (i : Nat) : Diagnostic :=
  if masked[i]? = some closeParen then strayParen locate i else unclosedParen locate i

theorem parenLetter_closes {c : CodeUnit} {kind : Unit} (closes : parenLetter c = some (.closes kind)) :
    c = closeParen := by
  unfold parenLetter at closes
  split at closes
  · cases closes
  · split at closes
    next same => exact same
    next => cases closes

theorem parenLetter_opens {c : CodeUnit} {kind : Unit} (opens : parenLetter c = some (.opens kind)) :
    c = openParen := by
  unfold parenLetter at opens
  split at opens
  next same => exact same
  next => split at opens <;> cases opens

/-- With room for all, the unmatched brackets are reported and no other. -/
theorem parenBalance_unmatched {masked : JsString} {locate : Locator}
    (few : (unmatched parenLetter masked).length ≤ MAX_PER_RULE) :
    parenBalance masked locate = (unmatched parenLetter masked).map (mark locate masked) := by
  rw [unmatched, List.length_append] at few
  have strayFew := Nat.le_trans (Nat.le_add_right ..) few
  have openFew := Nat.le_trans (Nat.le_add_left ..) few
  rw [parenBalance_eq, List.take_of_length_le strayFew, offsets, List.take_of_length_le openFew, unmatched,
    List.map_append]
  congr 1
  · refine List.map_congr_left fun i member => ?_
    obtain ⟨⟨c, kind, here, closes⟩, _⟩ := stray_iff.mp member
    rw [mark, here, parenLetter_closes closes, if_pos rfl]
  · refine List.map_congr_left fun i member => ?_
    obtain ⟨⟨c, kind, here, opens⟩, _⟩ := opened_iff.mp (List.mem_reverse.mp member)
    rw [mark, here, parenLetter_opens opens, if_neg (by decide)]

end Tsql

/-! ## PowerShell -/

namespace PowerShell

def bracketLetter (c : CodeUnit) : Option (Letter CodeUnit) :=
  if (PAIRS c).isSome then some (.opens c) else (CLOSERS c).map .closes

def openBrackets (stack : Stack CodeUnit) : List OpenBracket :=
  (stack.opened.map fun entry => ⟨entry.1, entry.2⟩).reverse

theorem getLast?_openBrackets (stack : Stack CodeUnit) :
    (openBrackets stack).getLast?.map OpenBracket.char = stack.opened.head?.map Prod.fst := by
  rw [openBrackets, List.getLast?_reverse, List.head?_map, Option.map_map]
  rfl

theorem dropLast_openBrackets (stack : Stack CodeUnit) :
    (openBrackets stack).dropLast = (stack.opened.tail.map fun entry => ⟨entry.1, entry.2⟩).reverse := by
  rw [openBrackets, List.dropLast_reverse, List.map_tail]

/-- The loop keeps the stack through every error, and reports something if anything strays. -/
theorem bracketLoop_eq (locate : Locator) (rest : JsString) (i : Nat) (stack : Stack CodeUnit)
    {out : List Diagnostic} (reported : out = [] ↔ stack.stray = []) :
    (bracketLoop locate rest i (openBrackets stack) out).1 = openBrackets (stackFrom bracketLetter rest i stack) ∧
      ((bracketLoop locate rest i (openBrackets stack) out).2 = [] ↔
        (stackFrom bracketLetter rest i stack).stray = []) := by
  induction rest generalizing i stack out with
  | nil => exact ⟨rfl, reported⟩
  | cons c rest ih =>
    rw [bracketLoop, stackFrom]
    by_cases opens : (PAIRS c).isSome
    · have letter : bracketLetter c = some (.opens c) := if_pos opens
      have pushed : openBrackets stack ++ [⟨c, i⟩] = openBrackets (stack.step i (.opens c)) := by
        simp [openBrackets, Stack.step]
      rw [if_pos opens, letter, Option.elim_some, pushed]
      exact ih (i + 1) (stack.step i (.opens c)) reported
    · have letter : bracketLetter c = (CLOSERS c).map .closes := if_neg opens
      rw [if_neg opens, letter]
      cases closes : CLOSERS c with
      | none => exact ih (i + 1) stack reported
      | some wants =>
        simp only [Option.map_some, Option.elim_some, Stack.step, getLast?_openBrackets, dropLast_openBrackets]
        split
        next fits => exact ih (i + 1) { stack with opened := stack.opened.tail } reported
        next strays =>
          refine ih (i + 1) { opened := stack.opened.tail, stray := stack.stray ++ [i] } ?_
          split
          next room => simp
          next full =>
            have some : out ≠ [] := by
              rintro rfl
              exact full (by decide)
            simp [some]

def bracketCode : JsString := js "ps/unbalanced-bracket"

theorem bracketBalance_nil {masked : JsString} {locate : Locator} :
    bracketBalance masked locate = [] ↔ WellNested (word bracketLetter masked) := by
  have clean : ([] : List Diagnostic) = [] ↔ (⟨[], []⟩ : Stack CodeUnit).stray = [] := ⟨fun _ => rfl, fun _ => rfl⟩
  obtain ⟨opened, reported⟩ := bracketLoop_eq locate masked 0 ⟨[], []⟩ clean
  have same : bracketBalance masked locate = (bracketLoop locate masked 0 [] []).2 ++
      ((bracketLoop locate masked 0 [] []).1.take MAX_PER_RULE).map (unclosedBracket locate) := rfl
  rw [wellNested_iff_clean, same, List.append_eq_nil_iff]
  refine and_congr reported ?_
  have start : openBrackets ⟨[], []⟩ = [] := rfl
  rw [start] at opened
  rw [opened]
  simp [openBrackets, MAX_PER_RULE, stackOf]

/-! ### The other findings -/

theorem code_unterminated (locate : Locator) (start : Nat) (what : JsString) {code : String}
    (other : js code ≠ bracketCode) :
    (unterminated locate start what code).code ≠ bracketCode := other

theorem scanFrom_codes (text : JsString) (locate : Locator) (i : Nat) (chars : JsString)
    {diagnostics : List Diagnostic} (others : ∀ diagnostic ∈ diagnostics, diagnostic.code ≠ bracketCode) :
    ∀ diagnostic ∈ (scanFrom text locate i chars diagnostics).diagnostics, diagnostic.code ≠ bracketCode := by
  have pushed {diagnostics : List Diagnostic} {item : Diagnostic} {quiet : Prop} [Decidable quiet]
      (others : ∀ diagnostic ∈ diagnostics, diagnostic.code ≠ bracketCode) (other : item.code ≠ bracketCode) :
      (∀ diagnostic ∈ if quiet then diagnostics else diagnostics ++ [item], diagnostic.code ≠ bracketCode) ∧
        ∀ diagnostic ∈ if quiet then diagnostics ++ [item] else diagnostics, diagnostic.code ≠ bracketCode := by
    have both := List.forall_mem_append.mpr ⟨others, List.forall_mem_singleton.mpr other⟩
    constructor <;> split <;> assumption
  have comment (i : Nat) : (unterminated locate i (js "block comment") "ps/unterminated-comment").code ≠ bracketCode :=
    code_unterminated _ _ _ (by decide)
  have string (i : Nat) (what : JsString) : (unterminated locate i what "ps/unterminated-string").code ≠ bracketCode :=
    code_unterminated _ _ _ (by decide)
  induction left : text.length - i using Nat.strong_induction_on generalizing i chars diagnostics with
  | _ left ih =>
    rw [scanFrom]
    split
    next within =>
      dsimp only
      split
      next => exact ih _ (by omega) _ _ others rfl
      next =>
        split
        next opens =>
          have later : i < (closeComment text i 0).1 := lt_closeNested opens
          exact ih _ (by omega) _ _ (pushed others (comment i)).2 rfl
        next =>
          split
          next hashed =>
            have later := lt_lineEnd ((List.getElem?_eq_getElem within).trans (congrArg some hashed.1)) (by decide)
            exact ih _ (by omega) _ _ others rfl
          next =>
            split
            next =>
              have later := lt_closeHereString ((text[i + 1]?).getD 0) within
              exact ih _ (by omega) _ _ (pushed others (string i _)).1 rfl
            next =>
              split
              next =>
                have later := le_closeString text text[i] (i + 1)
                exact ih _ (by omega) _ _ (pushed others (string i _)).1 rfl
              next => exact ih _ (by omega) _ _ others rfl
    next => exact others

theorem bracketLoop_codes (locate : Locator) (rest : JsString) (i : Nat) (opened : List OpenBracket)
    {out : List Diagnostic} (all : ∀ diagnostic ∈ out, diagnostic.code = bracketCode) :
    ∀ diagnostic ∈ (bracketLoop locate rest i opened out).2, diagnostic.code = bracketCode := by
  induction rest generalizing i opened out with
  | nil => exact all
  | cons c rest ih =>
    rw [bracketLoop]
    split
    · exact ih _ _ all
    · cases CLOSERS c with
      | none => exact ih _ _ all
      | some wants =>
        dsimp only
        split
        · exact ih _ _ all
        · refine ih _ _ ?_
          split
          · exact List.forall_mem_append.mpr ⟨all, List.forall_mem_singleton.mpr rfl⟩
          · exact all

theorem code_bracketBalance {masked : JsString} {locate : Locator} {diagnostic : Diagnostic}
    (member : diagnostic ∈ bracketBalance masked locate) : diagnostic.code = bracketCode := by
  rw [bracketBalance, List.mem_append, List.mem_map] at member
  rcases member with member | ⟨item, _, rfl⟩
  · exact bracketLoop_codes locate masked 0 [] (fun _ member => absurd member List.not_mem_nil) diagnostic member
  · rfl

theorem code_danglingContinuation {masked : JsString} {locate : Locator} {diagnostic : Diagnostic}
    (member : diagnostic ∈ danglingContinuation masked locate) : diagnostic.code ≠ bracketCode := by
  rw [code_advise member]
  exact (by decide : js "ps/dangling-continuation" ≠ bracketCode)

theorem code_outcomeReporting {masked : JsString} {locate : Locator} {stops : Bool} {diagnostic : Diagnostic}
    (member : diagnostic ∈ outcomeReporting masked locate stops) : diagnostic.code ≠ bracketCode := by
  unfold outcomeReporting at member
  split at member
  · cases member
  · split at member
    · cases member
    · rw [List.mem_singleton.mp member]
      exact (by decide : js "ps/step-cannot-fail" ≠ bracketCode)

theorem code_advisories {masked : JsString} {locate : Locator} {stops : Bool} {diagnostic : Diagnostic}
    (member : diagnostic ∈ advisories masked locate stops) : diagnostic.code ≠ bracketCode := by
  rw [advisories, List.mem_append, List.mem_flatMap] at member
  rcases member with ⟨rule, listed, member⟩ | member
  · rw [code_advise member]
    simp only [List.mem_cons, List.not_mem_nil, or_false] at listed
    rcases listed with rfl | rfl
    · exact (by decide : js "ps/write-host" ≠ bracketCode)
    · exact (by decide : js "ps/silently-continue" ≠ bracketCode)
  · split at member
    · cases member
    · obtain ⟨found, _, reported⟩ := exists_of_mem_reportEach member
      simp only [sqlcmdSwallowsErrors] at reported
      split at reported
      · cases reported
      · cases reported
        exact (by decide : js "ps/sqlcmd-swallows-errors" ≠ bracketCode)

/-- The findings of unbalanced brackets are those of one rule. -/
theorem brackets_eq (text : JsString) :
    ((lintPowerShell text).filter fun diagnostic => diagnostic.code = bracketCode) =
      bracketBalance (scan text (makeLocator text)).masked (makeLocator text) := by
  have scanned : ∀ diagnostic ∈ (scan text (makeLocator text)).diagnostics, diagnostic.code ≠ bracketCode :=
    scanFrom_codes text _ 0 text fun _ member => absurd member List.not_mem_nil
  simp only [lintPowerShell, List.filter_append]
  rw [none_of_code scanned, all_of_code fun _ => code_bracketBalance, none_of_code fun _ => code_danglingContinuation,
    none_of_code fun _ => code_outcomeReporting, none_of_code fun _ => code_advisories]
  simp only [List.nil_append, List.append_nil]

end PowerShell

/-- The findings of brackets are exact. The PowerShell linter reports an unbalanced one unless
the brackets of the mask are well nested. The T-SQL linter does so of parentheses, and while no
more than five are unmatched it marks these, each once, and no others. -/
theorem bracket_findings_exact (text : JsString) :
    ((∃ diagnostic ∈ PowerShell.lintPowerShell text, diagnostic.code = js "ps/unbalanced-bracket") ↔
      ¬ WellNested (word PowerShell.bracketLetter (PowerShell.scan text (makeLocator text)).masked)) ∧
    ((∃ diagnostic ∈ Tsql.lintTsql text, diagnostic.code = js "tsql/unbalanced-paren") ↔
      ¬ WellNested (word Tsql.parenLetter (Tsql.scan text (makeLocator text)).masked)) ∧
    ∃ offsets : List Nat, offsets.Nodup ∧
      (∀ i, i ∈ offsets ↔ Unmatched Tsql.parenLetter (Tsql.scan text (makeLocator text)).masked i) ∧
      (offsets.length ≤ 5 →
        ((Tsql.lintTsql text).filter fun diagnostic => diagnostic.code = js "tsql/unbalanced-paren") =
          offsets.map (Tsql.mark (makeLocator text) (Tsql.scan text (makeLocator text)).masked)) := by
  refine ⟨?_, ?_, unmatched Tsql.parenLetter (Tsql.scan text (makeLocator text)).masked, unmatched_nodup _,
    fun i => mem_unmatched, fun few => ?_⟩
  · have balanced := (Eq.congr_left (PowerShell.brackets_eq text)).trans PowerShell.bracketBalance_nil
    exact exists_code_iff.trans (not_congr balanced)
  · have balanced := (Eq.congr_left (Tsql.parens_eq text)).trans Tsql.parenBalance_nil
    exact exists_code_iff.trans (not_congr balanced)
  · exact (Tsql.parens_eq text).trans (Tsql.parenBalance_unmatched few)

-- What is in a string or a comment is no bracket.
example : (Tsql.lintTsql (js "RAISERROR('(', 10, 1) f((x)")).map (fun found => (found.code, found.startColumn)) =
    [(js "tsql/unbalanced-paren", 24), (js "tsql/raiserror-not-fatal", 1)] := by decide +kernel

example : (PowerShell.lintPowerShell (js "exit (1] # (")).map (fun found => (found.code, found.startColumn)) =
    [(js "ps/unbalanced-bracket", 8)] := by decide +kernel

end RemoteSqlAgent.Lint
