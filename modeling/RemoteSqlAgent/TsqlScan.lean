import RemoteSqlAgent.LintDiagnostics

/-! The scanner of the T-SQL linter. It masks comments, strings and quoted identifiers, so
that no rule fires on what is inside one. -/
namespace RemoteSqlAgent.Lint
open Js

namespace Tsql

/-! ## Delimiters -/

def dash : CodeUnit := 0x2D

def slash : CodeUnit := 0x2F

def asterisk : CodeUnit := 0x2A

def quote : CodeUnit := 0x27

def doubleQuote : CodeUnit := 0x22

def openBracket : CodeUnit := 0x5B

def closeBracket : CodeUnit := 0x5D

/-- `c === '[' ? ']' : c`. -/
def closer (c : CodeUnit) : CodeUnit := if c = openBracket then closeBracket else c

abbrev Dashes (text : JsString) (i : Nat) : Prop := Mark (dash, dash) text i

abbrev Opens (text : JsString) (i : Nat) : Prop := Mark (slash, asterisk) text i

abbrev Closes (text : JsString) (i : Nat) : Prop := Mark (asterisk, slash) text i

abbrev IsQuote (c : CodeUnit) : Prop := c = quote ∨ c = doubleQuote ∨ c = openBracket

/-! ## The inner loops -/

/-- The end of a block comment, and the depth it ends at. -/
def closeComment (text : JsString) (i : Nat) (depth : Int) : Nat × Int :=
  closeNested (slash, asterisk) (asterisk, slash) text i depth

theorem closeComment_opening {text : JsString} {i : Nat} {depth : Int} (opens : Opens text i) :
    closeComment text i depth = closeComment text (i + 2) (depth + 1) := closeNested_opening opens

theorem lt_closeComment {text : JsString} {i : Nat} (depth : Int) (opens : Opens text i) :
    i < (closeComment text i depth).1 := lt_closeNested opens

/-- The end of what a delimiter closes, and whether it does. A doubled one is an escaped one. -/
def closeQuote (text : JsString) (close : CodeUnit) (i : Nat) : Nat × Bool :=
  if i < text.length then
    if text[i]? = some close then
      if text[i + 1]? = some close then closeQuote text close (i + 2) else (i + 1, true)
    else closeQuote text close (i + 1)
  else (i, false)
termination_by text.length - i

theorem le_closeQuote (text : JsString) (close : CodeUnit) (i : Nat) : i ≤ (closeQuote text close i).1 := by
  induction i using closeQuote.induct text close with
  | case1 i within here doubled ih =>
    rw [closeQuote, if_pos within, if_pos here, if_pos doubled]
    omega
  | case2 i within here last =>
    rw [closeQuote, if_pos within, if_pos here, if_neg last]
    exact Nat.le_add_right ..
  | case3 i within other ih =>
    rw [closeQuote, if_pos within, if_neg other]
    omega
  | case4 i beyond =>
    rw [closeQuote, if_neg beyond]

/-! ## The scan -/

def unterminated (locate : Locator) (start : Nat) (what : String) (code : String) : Diagnostic :=
  spanning locate start (start + 2)
    { code := js code
      severity := .error
      message := js "Unterminated " ++ js what ++
        js ". Everything after this is being read as part of it, so the batch will not compile." }

def unterminatedQuote (locate : Locator) (start : Nat) (c : CodeUnit) : Diagnostic :=
  unterminated locate start (if c = quote then "string literal" else "quoted identifier")
    (if c = quote then "tsql/unterminated-string" else "tsql/unterminated-identifier")

/-- The loop of `scan` over what is left of the text. -/
def scanFrom (text : JsString) (locate : Locator) (i : Nat) (chars : JsString) (diagnostics : List Diagnostic) :
    ScanResult :=
  if _within : i < text.length then
    if _dashes : Dashes text i then
      let stop := indexOfOrEnd text [lineFeed] i
      scanFrom text locate stop (blank chars i stop) diagnostics
    else if _opens : Opens text i then
      let comment := closeComment text i 0
      scanFrom text locate comment.1 (blank chars i comment.1)
        (if 0 < comment.2 then
          diagnostics ++ [unterminated locate i "block comment" "tsql/unterminated-comment"]
        else diagnostics)
    else
      let c := text[i]
      if IsQuote c then
        let quoted := closeQuote text (closer c) (i + 1)
        scanFrom text locate quoted.1 (blank chars i quoted.1)
          (if quoted.2 then diagnostics else diagnostics ++ [unterminatedQuote locate i c])
      else scanFrom text locate (i + 1) chars diagnostics
  else ⟨chars, diagnostics⟩
termination_by text.length - i
decreasing_by
  · have := lt_lineEnd _dashes.1 (by decide)
    omega
  · have := lt_closeComment 0 _opens
    omega
  · have := le_closeQuote text (closer text[i]) (i + 1)
    omega
  · omega

def scan (text : JsString) (locate : Locator) : ScanResult := scanFrom text locate 0 text []

end Tsql

end RemoteSqlAgent.Lint
