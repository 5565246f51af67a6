import RemoteSqlAgent.LintDiagnostics
import Mathlib.Data.List.DropRight

/-! The PowerShell linter: its scanner, which knows here-strings and the escaping backtick,
and its rules over the mask. -/
namespace RemoteSqlAgent.Lint.PowerShell
open Js Js.Regex

def backtick : CodeUnit := 0x60

def hash : CodeUnit := 0x23

def quote : CodeUnit := 0x27

def doubleQuote : CodeUnit := 0x22

def atSign : CodeUnit := 0x40

def lessThan : CodeUnit := 0x3C

def greaterThan : CodeUnit := 0x3E

/-! ## The scan -/

/-- Units after which a `#` starts a comment rather than being part of a word. -/
def BEFORE_COMMENT : JsString := js " \t\n\r;\x7b\x7d()|,="

def unterminated (locate : Locator) (start : Nat) (what : JsString) (code : String) : Diagnostic :=
  spanning locate start (start + 2)
    { code := js code
      severity := .error
      message := js "Unterminated " ++ what ++ js ". Everything after this is being read as part of it." }

def closeComment (text : JsString) (i : Nat) (depth : Int) : Nat × Int :=
  closeNested (lessThan, hash) (hash, greaterThan) text i depth

/-- The end of a string, and whether it is closed. A backtick escapes in double quotes only. -/
def closeString (text : JsString) (c : CodeUnit) (i : Nat) : Nat × Bool :=
  if i < text.length then
    if c = doubleQuote ∧ text[i]? = some backtick then closeString text c (i + 2)
    else if text[i]? = some c then
      if text[i + 1]? = some c then closeString text c (i + 2) else (i + 1, true)
    else closeString text c (i + 1)
  else (i, false)
termination_by text.length - i

theorem le_closeString (text : JsString) (c : CodeUnit) (i : Nat) : i ≤ (closeString text c i).1 := by
  induction i using closeString.induct text c with
  | case1 i within escaped ih =>
    rw [closeString, if_pos within, if_pos escaped]
    omega
  | case2 i within plain here doubled ih =>
    rw [closeString, if_pos within, if_neg plain, if_pos here, if_pos doubled]
    omega
  | case3 i within plain here last =>
    rw [closeString, if_pos within, if_neg plain, if_pos here, if_neg last]
    exact Nat.le_add_right ..
  | case4 i within plain other ih =>
    rw [closeString, if_pos within, if_neg plain, if_neg other]
    omega
  | case5 i beyond =>
    rw [closeString, if_neg beyond]

/-- `/^\r?\n/` on what follows the opening of a here-string. -/
def breaksLine (text : JsString) (i : Nat) : Bool :=
  text[i]? = some lineFeed || text[i]? = some carriageReturn && text[i + 1]? = some lineFeed

/-- The end of a here-string that opens at `i`, and whether its terminator is there. -/
def closeHereString (text : JsString) (quote : CodeUnit) (i : Nat) : Nat × Bool :=
  let terminator := [lineFeed, quote, atSign]
  match indexOfFrom text terminator (i + 2) with
  | some found => (found + terminator.length, true)
  | none => (text.length, false)

theorem lt_closeHereString {text : JsString} (quote : CodeUnit) {i : Nat} (within : i < text.length) :
    i < (closeHereString text quote i).1 := by
  simp only [closeHereString]
  split
  next index found =>
    have := le_indexOfFrom found
    change i < index + 3
    omega
  next => exact within

structure ScanResult where
  masked : JsString
  diagnostics : List Diagnostic

/-- The loop of `scan` over what is left of the text. -/
def scanFrom (text : JsString) (locate : Locator) (i : Nat) (chars : JsString) (diagnostics : List Diagnostic) :
    ScanResult :=
  if _within : i < text.length then
    let c := text[i]
    let next := text[i + 1]?
    -- It escapes what follows, a quote included.
    if c = backtick then scanFrom text locate (i + 2) chars diagnostics
    else if _opens : Mark (lessThan, hash) text i then
      let comment := closeComment text i 0
      scanFrom text locate comment.1 (blank chars i comment.1)
        (if 0 < comment.2 then
          diagnostics ++ [unterminated locate i (js "block comment") "ps/unterminated-comment"]
        else diagnostics)
    else if _comment : c = hash ∧ (before text i).all BEFORE_COMMENT.contains then
      let stop := indexOfOrEnd text [lineFeed] i
      scanFrom text locate stop (blank chars i stop) diagnostics
    else if c = atSign ∧ (next = some quote ∨ next = some doubleQuote) ∧ breaksLine text (i + 2) then
      let quote := next.getD 0
      let closed := closeHereString text quote i
      scanFrom text locate closed.1 (blank chars i closed.1)
        (if closed.2 then diagnostics
        else
          diagnostics ++ [unterminated locate i (js "here-string (" ++ [quote] ++ js "@ never appears)")
            "ps/unterminated-string"])
    else if c = quote ∨ c = doubleQuote then
      let closed := closeString text c (i + 1)
      scanFrom text locate closed.1 (blank chars i closed.1)
        (if closed.2 then diagnostics
        else diagnostics ++ [unterminated locate i (js "string") "ps/unterminated-string"])
    else scanFrom text locate (i + 1) chars diagnostics
  else ⟨chars, diagnostics⟩
termination_by text.length - i
decreasing_by
  · omega
  · have : i < (closeComment text i 0).1 := lt_closeNested _opens
    omega
  · have := lt_lineEnd ((List.getElem?_eq_getElem _within).trans (congrArg some _comment.1)) (by decide)
    omega
  · have := lt_closeHereString ((text[i + 1]?).getD 0) _within
    omega
  · have := le_closeString text text[i] (i + 1)
    omega
  · omega

def scan (text : JsString) (locate : Locator) : ScanResult := scanFrom text locate 0 text []

/-! ## Brackets -/

def PAIRS (c : CodeUnit) : Option CodeUnit :=
  if c = 0x7B then some 0x7D else if c = 0x28 then some 0x29 else if c = 0x5B then some 0x5D else none

def CLOSERS (c : CodeUnit) : Option CodeUnit :=
  if c = 0x7D then some 0x7B else if c = 0x29 then some 0x28 else if c = 0x5D then some 0x5B else none

structure OpenBracket where
  char : CodeUnit
  offset : Nat

def unbalancedBracket (locate : Locator) (i : Nat) (message : JsString) : Diagnostic :=
  spanning locate i (i + 1)
    { code := js "ps/unbalanced-bracket"
      severity := .error
      message }

def unexpectedCloser (locate : Locator) (i : Nat) (c : CodeUnit) (top : Option OpenBracket) : Diagnostic :=
  unbalancedBracket locate i <|
    match top with
    | some top => js "Expected " ++ (PAIRS top.char).toList ++ js " to close the " ++ [top.char] ++
        js " opened earlier, found " ++ [c] ++ js "."
    | none => js "Closing " ++ [c] ++ js " with nothing open."

def unclosedBracket (locate : Locator) (item : OpenBracket) : Diagnostic :=
  unbalancedBracket locate item.offset (js "This " ++ [item.char] ++ js " is never closed.")

/-- The loop of `bracketBalance` over what is left of the mask. -/
def bracketLoop (locate : Locator) :
    JsString → Nat → List OpenBracket → List Diagnostic → List OpenBracket × List Diagnostic
  | [], _, opened, out => (opened, out)
  | c :: rest, i, opened, out =>
    if (PAIRS c).isSome then bracketLoop locate rest (i + 1) (opened ++ [⟨c, i⟩]) out
    else
      match CLOSERS c with
      | none => bracketLoop locate rest (i + 1) opened out
      | some wants =>
        let top := opened.getLast?
        if top.map OpenBracket.char = some wants then bracketLoop locate rest (i + 1) opened.dropLast out
        else
          -- Popping anyway keeps one stray closer from being reported again and again.
          bracketLoop locate rest (i + 1) opened.dropLast
            (if out.length < MAX_PER_RULE then out ++ [unexpectedCloser locate i c top] else out)

def bracketBalance (masked : JsString) (locate : Locator) : List Diagnostic :=
  let (opened, out) := bracketLoop locate masked 0 [] []
  out ++ (opened.take MAX_PER_RULE).map (unclosedBracket locate)

/-! ## The other rules -/

/-- `\$ErrorActionPreference\s*=` -/
def preferencePattern : GlobalRegex where
  groups := 0
  regex := all [literal "$ErrorActionPreference", star isSpace, literal "="]
  wide := by decide

/-- `^['"]?Stop\b` -/
def stopValue : Pattern :=
  Regex.compiled 0 <| all [inputStart, optional (single fun unit => unit = quote ∨ unit = doubleQuote), literal "Stop",
    wordBoundary]

/-- The script sets `$ErrorActionPreference` to Stop. The value is read from the text itself:
the mask has blanked it. -/
def stopsOnError (masked text : JsString) : Bool :=
  (preferencePattern.execFrom masked 0).any fun found =>
    let start := found.stop + ((text.drop found.stop).takeWhile isBlank).length
    stopValue.occursIn (slice text start (start + 8))

/-- `` `[ \t]+(?=\r?\n|$) `` -/
def danglingPattern : GlobalRegex where
  groups := 0
  regex := all [single fun unit => unit = backtick, plus isBlank,
    ahead true (either
      (all [optional (single fun unit => unit = carriageReturn), single fun unit => unit = lineFeed]) inputEnd)]
  wide := by decide

def danglingContinuation (masked : JsString) (locate : Locator) : List Diagnostic :=
  advise masked locate
    { pattern := danglingPattern
      fields :=
        { code := js "ps/dangling-continuation"
          severity := .error
          message := js "Trailing whitespace after the backtick. It escapes the space, not the line break, so this line does not continue onto the next one." } }

/-- `(?:^|[\s;{}])` and a keyword. -/
def keyword (name : String) : Regex :=
  all [either inputStart (single fun unit => isSpace unit || oneOf ";\x7b\x7d" unit), literal name]

/-- `(?!-)` so that `Exit-PSSession` is not taken for an exit code. -/
def HAS_EXIT : Pattern := Regex.compiled 0 <| all [keyword "exit", wordBoundary, ahead false (literal "-")]

def HAS_THROW : Pattern := Regex.compiled 0 <| all [keyword "throw", wordBoundary]

def HAS_TRAP : Pattern := Regex.compiled 0 <| all [keyword "trap", star isSpace, single (oneOf "\x7b[")]

/-- `-ErrorAction\s+Stop\b` -/
def STOPS_ONE_CMDLET : Pattern :=
  Regex.compiled 0 <| all [literal "-ErrorAction", plus isSpace, literal "Stop", wordBoundary]

/-- Whether anything in the script can make the step fail. Reported once, at the top. -/
def outcomeReporting (masked : JsString) (locate : Locator) (stops : Bool) : List Diagnostic :=
  if (trim masked).length = 0 then []
  else if stops || STOPS_ONE_CMDLET.occursIn masked || HAS_EXIT.occursIn masked || HAS_THROW.occursIn masked ||
      HAS_TRAP.occursIn masked then []
  else
    let start := searchNonSpace masked
    [spanning locate start (start + 1)
      { code := js "ps/step-cannot-fail"
        severity := .warning
        message := js "Nothing here can fail the step. SQL Agent marks a PowerShell step succeeded unless the script raises a terminating error or exits non-zero, and most errors in PowerShell are non-terminating — so a run where every command failed still reports green. Set $ErrorActionPreference = 'Stop', or exit with a non-zero code." }]

/-- End of the command starting at `i`, following backtick continuations. -/
def logicalLineEnd (masked : JsString) (i : Nat) : Nat :=
  if i < masked.length then
    if masked[i]? = some lineFeed ∧
        ((masked.take i).rdropWhile fun unit => unit = carriageReturn || isBlank unit).getLast? ≠ some backtick then i
    else logicalLineEnd masked (i + 1)
  else masked.length
termination_by masked.length - i

def writeHost : Advisory where
  pattern :=
    { groups := 0
      regex := all [wordBoundary, literal "Write-Host", wordBoundary]
      wide := by decide }
  fields :=
    { code := js "ps/write-host"
      severity := .warning
      message := js "Write-Host writes to the host's display, not to the output stream SQL Agent captures, so none of this reaches the job history. Write-Output records it." }

def silentlyContinue : Advisory where
  pattern :=
    { groups := 0
      regex := all [literal "-ErrorAction", plus isSpace, literal "SilentlyContinue", wordBoundary]
      wide := by decide }
  fields :=
    { code := js "ps/silently-continue"
      severity := .info
      message := js "The error is discarded rather than recorded. Nothing downstream — including the job history — will show that this command failed." }

def sqlcmdPattern : GlobalRegex where
  groups := 0
  regex := all [wordBoundary, literal "Invoke-Sqlcmd", wordBoundary]
  wide := by decide

def sqlcmdSwallowsErrors (masked : JsString) (locate : Locator) (found : Found) : Option Diagnostic :=
  let line := slice masked found.index (logicalLineEnd masked found.index)
  if STOPS_ONE_CMDLET.occursIn line then none
  else some (spanningMatch locate found
    { code := js "ps/sqlcmd-swallows-errors"
      severity := .warning
      message := js "Without -ErrorAction Stop, a T-SQL error here is non-terminating: the script carries on to the next line and the step still succeeds." })

def advisories (masked : JsString) (locate : Locator) (globallyStops : Bool) : List Diagnostic :=
  [writeHost, silentlyContinue].flatMap (advise masked locate) ++
    if globallyStops then []
    else reportEach (sqlcmdSwallowsErrors masked locate) MAX_PER_RULE (sqlcmdPattern.execFrom masked 0)

/-! ## The linter -/

def lintPowerShell (text : JsString) : List Diagnostic :=
  let locate := makeLocator text
  let { masked, diagnostics } := scan text locate
  let stops := stopsOnError masked text
  diagnostics ++ bracketBalance masked locate ++ danglingContinuation masked locate ++
    outcomeReporting masked locate stops ++ advisories masked locate stops

end RemoteSqlAgent.Lint.PowerShell
