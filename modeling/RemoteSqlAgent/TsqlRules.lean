import RemoteSqlAgent.TsqlScan
import Mathlib.Data.List.DropRight

/-! The rules of the T-SQL linter. They see the mask and the locator, and nothing else of
the text. -/
namespace RemoteSqlAgent.Lint.Tsql
open Js Js.Regex

/-! ## Words -/

/-- Keywords after which a statement may begin without a semicolon before it. -/
def BLOCK_OPENERS : List JsString := ["BEGIN", "CATCH", "TRY", "ELSE", "THEN", "GO", "AS", "DO"].map js

/-- `BEGIN TRANSACTION` is not a block: it has no `END`. -/
def NON_BLOCK_AFTER_BEGIN : List JsString := ["TRAN", "TRANSACTION", "DISTRIBUTED", "DIALOG"].map js

/-- The upper case of a unit, if that is ASCII. -/
def upperUnit (unit : CodeUnit) : JsString :=
  if 0x61 ≤ unit.val ∧ unit.val ≤ 0x7A then [unit - 0x20]
  else
    match unit.val with
    | 0x00DF => js "SS"
    | 0x0131 => js "I"
    | 0x017F => js "S"
    | 0xFB00 => js "FF"
    | 0xFB01 => js "FI"
    | 0xFB02 => js "FL"
    | 0xFB03 => js "FFI"
    | 0xFB04 => js "FFL"
    | 0xFB05 => js "ST"
    | 0xFB06 => js "ST"
    | _ => [unit]

/-- `toUpperCase`, but for what has an upper case outside ASCII and stays as it is: the
results are compared with ASCII words only. -/
def toUpperCase (s : JsString) : JsString := s.flatMap upperUnit

/-- `[A-Za-z_]` -/
def isWordStart (unit : CodeUnit) : Bool := isWord unit && !isDigit unit

/-- `match[0]` -/
def matched (masked : JsString) (found : Found) : JsString := slice masked found.index found.stop

/-- `match[number]` -/
def captured (found : Found) (number : Nat) : Option JsString := found.groups[number - 1]?.join

/-- The next bare word after an offset, upper-cased; empty if there is none. -/
def wordAfter (masked : JsString) (offset : Nat) : JsString :=
  let pattern := all [inputStart, star isSpace, group 1 (all [single isWordStart, star isWord])]
  match (pattern.compiled 1).search (slice masked offset (offset + 64)) 0 with
  | some found => toUpperCase ((captured found 1).getD [])
  | none => []

/-! ## Brackets -/

def openParen : CodeUnit := 0x28

def closeParen : CodeUnit := 0x29

def strayParen (locate : Locator) (i : Nat) : Diagnostic :=
  spanning locate i (i + 1)
    { code := js "tsql/unbalanced-paren"
      severity := .error
      message := js "Closing bracket with nothing open." }

def unclosedParen (locate : Locator) (start : Nat) : Diagnostic :=
  spanning locate start (start + 1)
    { code := js "tsql/unbalanced-paren"
      severity := .error
      message := js "This bracket is never closed." }

/-- The loop of `parenBalance` over what is left of the mask. -/
def parenLoop (locate : Locator) : JsString → Nat → List Nat → List Diagnostic → List Nat × List Diagnostic
  | [], _, opened, out => (opened, out)
  | c :: rest, i, opened, out =>
    if c = openParen then parenLoop locate rest (i + 1) (opened ++ [i]) out
    else if c = closeParen then
      parenLoop locate rest (i + 1) opened.dropLast
        (if opened.length = 0 ∧ out.length < MAX_PER_RULE then out ++ [strayParen locate i] else out)
    else parenLoop locate rest (i + 1) opened out

def parenBalance (masked : JsString) (locate : Locator) : List Diagnostic :=
  let (opened, out) := parenLoop locate masked 0 [] []
  out ++ (opened.take MAX_PER_RULE).map (unclosedParen locate)

/-! ## Blocks -/

/-- `^[ \t]*(GO)(?:[ \t]+\d+)?[ \t]*$`. Only alone on its line is `GO` a separator. -/
def goLine (go : Regex) : Regex :=
  all [lineStart, star isBlank, go, optional (all [plus isBlank, plus isDigit]), star isBlank, lineEnd]

def blockPattern : GlobalRegex where
  groups := 2
  regex := either
    (all [wordBoundary, group 1 (either (literal "BEGIN") (either (literal "END") (literal "CASE"))), wordBoundary])
    (goLine (group 2 (literal "GO")))
  wide := by decide

structure OpenBlock where
  offset : Int
  keyword : JsString

def goInsideBlock (locate : Locator) (offset : Int) : Diagnostic :=
  spanning locate offset (offset + 2)
    { code := js "tsql/go-inside-block"
      severity := .error
      message := js "GO ends the batch here, splitting the block above it in half. Each half is compiled separately and neither is valid on its own." }

def strayEnd (locate : Locator) (offset : Int) : Diagnostic :=
  spanning locate offset (offset + 3)
    { code := js "tsql/unbalanced-block"
      severity := .error
      message := js "This END closes nothing — there is no BEGIN or CASE open here." }

def unclosedBlock (locate : Locator) (block : OpenBlock) : Diagnostic :=
  spanning locate block.offset (block.offset + block.keyword.length)
    { code := js "tsql/unbalanced-block"
      severity := .error
      message := js "This " ++ block.keyword ++ js " has no matching END." }

/-- The loop of `blockStructure` over the matches that are left. -/
def blockLoop (masked : JsString) (locate : Locator) :
    List Found → List OpenBlock → List Diagnostic → List OpenBlock × List Diagnostic
  | [], opened, out => (opened, out)
  | found :: later, opened, out =>
    let keyword := (captured found 1).map toUpperCase
    -- The other alternative takes the rest of its line with it.
    let offset := found.index + searchNonSpace (matched masked found)
    if captured found 2 ≠ none then
      blockLoop masked locate later opened
        (if 0 < opened.length ∧ out.length < MAX_PER_RULE then out ++ [goInsideBlock locate offset] else out)
    else if keyword = some (js "CASE") then
      blockLoop masked locate later (opened ++ [⟨offset, js "CASE"⟩]) out
    else if keyword = some (js "BEGIN") then
      blockLoop masked locate later
        (if wordAfter masked found.stop ∈ NON_BLOCK_AFTER_BEGIN then opened else opened ++ [⟨offset, js "BEGIN"⟩]) out
    else if keyword = some (js "END") then
      -- `END CONVERSATION` closes a dialogue, not a block.
      if wordAfter masked found.stop = js "CONVERSATION" then blockLoop masked locate later opened out
      else if opened.length = 0 then
        blockLoop masked locate later opened
          (if out.length < MAX_PER_RULE then out ++ [strayEnd locate offset] else out)
      else blockLoop masked locate later opened.dropLast out
    else blockLoop masked locate later opened out

def blockStructure (masked : JsString) (locate : Locator) : List Diagnostic :=
  let (opened, out) := blockLoop masked locate (blockPattern.execFrom masked 0) [] []
  out ++ (opened.take MAX_PER_RULE).map (unclosedBlock locate)

/-! ## Severities -/

def raiserrorPattern : GlobalRegex where
  groups := 1
  regex := all [wordBoundary, literal "RAISERROR", star isSpace, literal "(", star fun unit => !oneOf ",()" unit,
    literal ",", star isSpace, group 1 (plus isDigit), star isSpace, literal ","]
  wide := by decide

def raiserrorNotFatal (locate : Locator) (found : Found) : Option Diagnostic :=
  let severity := digitsValue ((captured found 1).getD [])
  if 10 < severity then none
  else some (spanningMatch locate found
    { code := js "tsql/raiserror-not-fatal"
      severity := .warning
      message := js "Severity " ++ digits severity ++
        js " is informational, so this does not fail the step — SQL Agent will record the job as succeeded. Use 11 or above to fail it." })

def raiserrorSeverity (masked : JsString) (locate : Locator) : List Diagnostic :=
  reportEach (raiserrorNotFatal locate) MAX_PER_RULE (raiserrorPattern.execFrom masked 0)

/-! ## Separators -/

/-- `[\w$@#\s]` and the like. -/
def isNameUnit (also : String) (unit : CodeUnit) : Bool := isWord unit || oneOf also unit

/-- `\bWITH\s[\w$@#\s]{0,200}?(?:\([^()]{0,400}\)\s*)?AS\s*\(` -/
def ctePattern : GlobalRegex where
  groups := 0
  regex := all [wordBoundary, literal "WITH", single isSpace,
    repeated false 0 (some 200) fun unit => isNameUnit "$@#" unit || isSpace unit,
    optional (all [literal "(", repeated true 0 (some 400) fun unit => !oneOf "()" unit, literal ")", star isSpace]),
    literal "AS", star isSpace, literal "("]
  wide := by decide

def throwPattern : GlobalRegex where
  groups := 0
  regex := all [wordBoundary, literal "THROW", wordBoundary]
  wide := by decide

/-- `\bMERGE\s+(?:INTO\s+)?[\w$@#.]` -/
def mergePattern : GlobalRegex where
  groups := 0
  regex := all [wordBoundary, literal "MERGE", plus isSpace, optional (all [literal "INTO", plus isSpace]),
    single (isNameUnit "$@#.")]
  wide := by decide

def checks : List (GlobalRegex × String) :=
  [(ctePattern, "a common table expression"), (throwPattern, "THROW"), (mergePattern, "MERGE")]

/-- Nothing needs terminating before an offset. -/
def precededByBoundary (masked : JsString) (offset : Nat) : Bool :=
  let before := (masked.take offset).rdropWhile isSpace
  if before = [] then true
  else if before.getLast? = some 0x3B then true
  else toUpperCase (before.rtakeWhile isWord) ∈ BLOCK_OPENERS

def missingSemicolon (masked : JsString) (locate : Locator) (name : String) (found : Found) : Option Diagnostic :=
  if precededByBoundary masked found.index then none
  else some (spanning locate found.index (found.index + min (found.stop - found.index) 24 : Nat)
    { code := js "tsql/missing-semicolon"
      severity := .warning
      message := js "T-SQL requires the statement before " ++ js name ++ js " to end with a semicolon." })

/-- The budget is of each check. -/
def statementSeparators (masked : JsString) (locate : Locator) : List Diagnostic :=
  checks.flatMap fun (pattern, name) =>
    reportEach (missingSemicolon masked locate name) MAX_PER_RULE (pattern.execFrom masked 0)

/-! ## Writes -/

structure Span where
  start : Nat
  stop : Nat

def goPattern : GlobalRegex where
  groups := 0
  regex := goLine (literal "GO")
  wide := by decide

/-- The spans between the separators. -/
def between (length : Nat) : Nat → List Span → List Span
  | start, [] => if start < length then [⟨start, length⟩] else []
  | start, separator :: later =>
    if start < separator.start then ⟨start, separator.start⟩ :: between length separator.stop later
    else between length separator.stop later

/-- Statement spans, split on semicolons and on `GO` lines. -/
def statements (masked : JsString) : List Span :=
  let semicolons := (List.range masked.length).filter fun i => masked[i]? = some 0x3B
  let separators := semicolons.map (fun i => (⟨i, i + 1⟩ : Span)) ++
    (goPattern.execFrom masked 0).map fun found => ⟨found.index, found.stop⟩
  between masked.length 0 (separators.mergeSort fun a b => a.start ≤ b.start)

def wherePattern : GlobalRegex where
  groups := 0
  regex := all [wordBoundary, literal "WHERE", wordBoundary]
  wide := by decide

def parenDepth (part : JsString) : Int := part.count openParen - part.count closeParen

/-- The loop of `hasOuterWhere` over the matches that are left. -/
def outerWhere (body : JsString) : List Found → Int → Nat → Bool
  | [], _, _ => false
  | found :: later, depth, cursor =>
    let depth := depth + parenDepth (slice body cursor found.index)
    if depth ≤ 0 then true else outerWhere body later depth found.index

/-- There is a `WHERE` in no bracket: the statement's own. -/
def hasOuterWhere (body : JsString) : Bool := outerWhere body (wherePattern.execFrom body 0) 0 0

/-- `^\s*(DELETE|UPDATE)\s+(?:TOP\s*\([^()]*\)\s*)?(?:FROM\s+)?([^\s,;()]+)` -/
def headPattern : Pattern :=
  Regex.compiled 2 <| all [inputStart, star isSpace, group 1 (either (literal "DELETE") (literal "UPDATE")),
    plus isSpace,
    optional (all [literal "TOP", star isSpace, literal "(", star fun unit => !oneOf "()" unit, literal ")",
      star isSpace]),
    optional (all [literal "FROM", plus isSpace]),
    group 2 (plus fun unit => !isSpace unit && !oneOf ",;()" unit)]

def unqualifiedWrite (masked : JsString) (locate : Locator) (stmt : Span) : Option Diagnostic :=
  let body := slice masked stmt.start stmt.stop
  match headPattern.search body 0 with
  | none => none
  | some head =>
    let verb := toUpperCase ((captured head 1).getD [])
    let target := (captured head 2).getD []
    -- Maintenance, not a row write.
    if verb = js "UPDATE" ∧ toUpperCase target = js "STATISTICS" then none
    -- Scratch: emptying it whole is the normal way to use it.
    else if target.head? = some 0x23 ∨ target.head? = some 0x40 then none
    else if hasOuterWhere body then none
    else
      let offset := stmt.start + head.index + searchNonSpace (matched body head)
      some (spanning locate offset (offset + verb.length)
        { code := js "tsql/write-without-where"
          severity := .warning
          message := js "This " ++ verb ++ js " has no WHERE clause, so it affects every row in " ++ target ++ js "." })

def unqualifiedWrites (masked : JsString) (locate : Locator) : List Diagnostic :=
  reportEach (unqualifiedWrite masked locate) MAX_PER_RULE (statements masked)

/-! ## Advisories -/

def xpCmdshell : Advisory where
  pattern :=
    { groups := 0
      regex := all [wordBoundary, literal "xp_cmdshell", wordBoundary]
      wide := by decide }
  fields :=
    { code := js "tsql/xp-cmdshell"
      severity := .warning
      message := js "xp_cmdshell is disabled by default and needs sysadmin to enable. The step fails with a permissions error, not a script error, on any server where nobody has turned it on." }

def nolock : Advisory where
  pattern :=
    { groups := 0
      regex := all [wordBoundary, either (literal "NOLOCK") (literal "READUNCOMMITTED"), wordBoundary]
      wide := by decide }
  fields :=
    { code := js "tsql/nolock"
      severity := .info
      message := js "NOLOCK reads uncommitted data and can return a row twice or skip one entirely during a page split — not just slightly stale data." }

def advisories (masked : JsString) (locate : Locator) : List Diagnostic :=
  [xpCmdshell, nolock].flatMap (advise masked locate)

/-! ## The linter -/

def lintTsql (text : JsString) : List Diagnostic :=
  let locate := makeLocator text
  let { masked, diagnostics } := scan text locate
  diagnostics ++ parenBalance masked locate ++ blockStructure masked locate ++ raiserrorSeverity masked locate ++
    statementSeparators masked locate ++ unqualifiedWrites masked locate ++ advisories masked locate

end RemoteSqlAgent.Lint.Tsql
