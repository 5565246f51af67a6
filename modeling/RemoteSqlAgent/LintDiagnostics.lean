import RemoteSqlAgent.JsRegExpSyntax

/-! What both linters share: findings in lines and columns, and the masking of what the
rules must not see. -/
namespace RemoteSqlAgent.Lint
open Js Js.Regex

inductive Severity where
  | error
  | warning
  | info
deriving DecidableEq

/-- What a rule says of its finding. -/
structure Fields where
  code : JsString
  severity : Severity
  message : JsString
deriving DecidableEq

/-- A finding. Lines and columns count from 1. -/
structure Diagnostic extends Fields where
  startLine : Nat
  startColumn : Nat
  endLine : Nat
  endColumn : Nat
deriving DecidableEq

structure Location where
  line : Nat
  column : Nat
deriving DecidableEq

abbrev Locator := Int → Location

def lineFeed : CodeUnit := 0x0A

def carriageReturn : CodeUnit := 0x0D

def space : CodeUnit := 0x20

/-! ## Offsets and lines -/

def lineStarts (text : JsString) : List Nat :=
  0 :: ((List.range text.length).filter fun i => text[i]? = some lineFeed).map (· + 1)

/-- The rightmost line start at or before the offset. -/
def rightmost (lineStarts : List Nat) (clamped low high : Nat) : Nat :=
  if low < high then
    let mid := (low + high + 1) / 2
    if lineStarts.getD mid 0 ≤ clamped then rightmost lineStarts clamped mid high
    else rightmost lineStarts clamped low (mid - 1)
  else low
termination_by high - low

/-- Offset to line and column. The line starts are found once. -/
def makeLocator (text : JsString) : Locator :=
  let lineStarts := lineStarts text
  fun offset =>
    let clamped := (max 0 (min offset text.length)).toNat
    let low := rightmost lineStarts clamped 0 (lineStarts.length - 1)
    ⟨low + 1, clamped - lineStarts.getD low 0 + 1⟩

/-- A locator knows a text by its length and its line breaks. -/
theorem makeLocator_congr {s t : JsString} (length : s.length = t.length)
    (breaks : ∀ i : Nat, s[i]? = some lineFeed ↔ t[i]? = some lineFeed) : makeLocator s = makeLocator t := by
  have starts : lineStarts s = lineStarts t := by
    simp only [lineStarts, length, breaks]
  unfold makeLocator
  rw [starts, length]

/-- A diagnostic of `[start, stop)`, of at least one unit. -/
def spanning (locate : Locator) (start stop : Int) (fields : Fields) : Diagnostic :=
  let first := locate start
  let last := locate (max stop (start + 1))
  { fields with
    startLine := first.line
    startColumn := first.column
    endLine := last.line
    endColumn := last.column }

@[simp] theorem spanning_code (locate : Locator) (start stop : Int) (fields : Fields) :
    (spanning locate start stop fields).code = fields.code := rfl

/-- Cap per rule. -/
def MAX_PER_RULE : Nat := 5

/-- A loop that reports what it is given until its budget is spent. -/
def reportEach {α : Type} (report : α → Option Diagnostic) : Nat → List α → List Diagnostic
  | 0, _ => []
  | _ + 1, [] => []
  | budget + 1, item :: later =>
    match report item with
    | some diagnostic => diagnostic :: reportEach report budget later
    | none => reportEach report (budget + 1) later

theorem exists_of_mem_reportEach {α : Type} {report : α → Option Diagnostic} {budget : Nat} {items : List α}
    {diagnostic : Diagnostic} (member : diagnostic ∈ reportEach report budget items) :
    ∃ item ∈ items, report item = some diagnostic := by
  induction budget, items using reportEach.induct report with
  | case1 items =>
    rw [reportEach] at member
    cases member
  | case2 budget =>
    rw [reportEach] at member
    cases member
  | case3 budget item later reported same ih =>
    rw [reportEach, same] at member
    rcases List.mem_cons.mp member with rfl | member
    · exact ⟨item, List.mem_cons_self, same⟩
    · obtain ⟨item', member', same'⟩ := ih member
      exact ⟨item', List.mem_cons_of_mem _ member', same'⟩
  | case4 budget item later same ih =>
    rw [reportEach, same] at member
    obtain ⟨item', member', same'⟩ := ih member
    exact ⟨item', List.mem_cons_of_mem _ member', same'⟩

/-! ## Reporting matches -/

/-- `[ \t]` -/
def isBlank (unit : CodeUnit) : Bool := oneOf " \t" unit

/-- `s.search(/\S/)` -/
def searchNonSpace (s : JsString) : Int :=
  match s.findIdx? fun unit => !isSpace unit with
  | some index => index
  | none => -1

/-- A diagnostic of a whole match. -/
def spanningMatch (locate : Locator) (found : Found) (fields : Fields) : Diagnostic :=
  spanning locate found.index found.stop fields

/-- A rule that reports every match. -/
structure Advisory where
  pattern : GlobalRegex
  fields : Fields

def advise (masked : JsString) (locate : Locator) (rule : Advisory) : List Diagnostic :=
  reportEach (fun found => some (spanningMatch locate found rule.fields)) MAX_PER_RULE
    (rule.pattern.execFrom masked 0)

/-! ## Masking -/

def isLineBreak (unit : CodeUnit) : Bool := unit = lineFeed || unit = carriageReturn

/-- What is left of a unit that is masked. -/
def blanked (unit : CodeUnit) : CodeUnit := if isLineBreak unit then unit else space

@[simp] theorem blanked_blanked (unit : CodeUnit) : blanked (blanked unit) = blanked unit := by
  unfold blanked
  split <;> rfl

/-- Masking leaves the line breaks of a text where they are, and makes no new ones. -/
theorem blanked_eq_break {unit lineBreak : CodeUnit} (breaks : isLineBreak lineBreak = true) :
    blanked unit = lineBreak ↔ unit = lineBreak := by
  unfold blanked
  split
  next => rfl
  next plain =>
    constructor
    · rintro rfl
      cases breaks
    · rintro rfl
      exact absurd breaks plain

/-- Blanks from `start` up to `stop`, but for line breaks. -/
def blank (chars : JsString) (start stop : Nat) : JsString :=
  chars.mapIdx fun i unit => if start ≤ i ∧ i < stop then blanked unit else unit

@[simp] theorem length_blank (chars : JsString) (start stop : Nat) :
    (blank chars start stop).length = chars.length := List.length_mapIdx

theorem getElem?_blank (chars : JsString) (start stop i : Nat) :
    (blank chars start stop)[i]? =
      chars[i]?.map fun unit => if start ≤ i ∧ i < stop then blanked unit else unit := List.getElem?_mapIdx

/-! ## Reading a text -/

structure ScanResult where
  masked : JsString
  diagnostics : List Diagnostic

/-- `text.indexOf(needle, start)`. -/
def indexOfFrom (text needle : JsString) (start : Nat) : Option Nat :=
  (List.range' start (text.length + 1 - start)).find? fun i => needle.isPrefixOf (text.drop i)

def indexOfOrEnd (text needle : JsString) (start : Nat) : Nat := (indexOfFrom text needle start).getD text.length

theorem lt_of_unit {text : JsString} {unit : CodeUnit} {i : Nat} (here : text[i]? = some unit) : i < text.length :=
  (List.getElem?_eq_some_iff.mp here).1

theorem isPrefixOf_single {text : JsString} {unit : CodeUnit} {i : Nat} :
    [unit].isPrefixOf (text.drop i) = true ↔ text[i]? = some unit := by
  rw [List.isPrefixOf_iff_prefix, List.prefix_iff_eq_take, List.length_singleton]
  constructor
  · intro taken
    have first := congrArg (·[0]?) taken
    rw [List.getElem?_take_of_lt (by decide), List.getElem?_drop] at first
    exact first.symm
  · intro here
    have bound := lt_of_unit here
    rw [List.drop_eq_getElem_cons bound, List.take_succ_cons, List.take_zero]
    rw [List.getElem?_eq_getElem bound] at here
    rw [Option.some.inj here]

/-- A unit is found at its first place, and where it is not there the end is. -/
theorem indexOfOrEnd_unit {text : JsString} (unit : CodeUnit) {start : Nat} (within : start ≤ text.length) :
    start ≤ indexOfOrEnd text [unit] start ∧
      (∀ j, start ≤ j → j < indexOfOrEnd text [unit] start → text[j]? ≠ some unit) ∧
      (indexOfOrEnd text [unit] start = text.length ∨ text[indexOfOrEnd text [unit] start]? = some unit) := by
  unfold indexOfOrEnd indexOfFrom
  cases found : (List.range' start (text.length + 1 - start)).find? fun i => [unit].isPrefixOf (text.drop i) with
  | none =>
    refine ⟨within, fun j later earlier here => ?_, Or.inl rfl⟩
    have none := List.find?_eq_none.mp found j (List.mem_range'_1.mpr ⟨later, by
      have : j < text.length := earlier
      omega⟩)
    exact none (isPrefixOf_single.mpr here)
  | some i =>
    obtain ⟨here, before, after, split, fresh⟩ := List.find?_eq_some_iff_append.mp found
    have member : i ∈ List.range' start (text.length + 1 - start) := List.mem_of_find?_eq_some found
    refine ⟨(List.mem_range'_1.mp member).1, fun j later earlier present => ?_, Or.inr (isPrefixOf_single.mp here)⟩
    have listed : j ∈ List.range' start (text.length + 1 - start) := by
      rw [List.mem_range'_1] at member ⊢
      have : j < i := earlier
      omega
    rw [split, List.mem_append, List.mem_cons] at listed
    have sorted := List.pairwise_lt_range' (s := start) (n := text.length + 1 - start)
    rw [split, List.pairwise_append, List.pairwise_cons] at sorted
    rcases listed with listed | rfl | listed
    · have absent := fresh j listed
      rw [isPrefixOf_single.mpr present] at absent
      cases absent
    · exact Nat.lt_irrefl j earlier
    · exact Nat.lt_asymm earlier (sorted.2.1.1 j listed)

/-- What stands before an occurrence is not searched. -/
theorem le_indexOfFrom {text needle : JsString} {start i : Nat} (found : indexOfFrom text needle start = some i) :
    start ≤ i := (List.mem_range'_1.mp (List.mem_of_find?_eq_some found)).1

/-- From a unit that breaks no line, the end of the line is further on. -/
theorem lt_lineEnd {text : JsString} {unit : CodeUnit} {i : Nat} (here : text[i]? = some unit)
    (plain : unit ≠ lineFeed) : i < indexOfOrEnd text [lineFeed] i := by
  have within := lt_of_unit here
  have found := indexOfOrEnd_unit lineFeed (Nat.le_of_lt within)
  refine Nat.lt_of_le_of_ne found.1 fun same => ?_
  rw [← same] at found
  cases found.2.2 with
  | inl stop => omega
  | inr breaks =>
    rw [here] at breaks
    exact plain (Option.some.inj breaks)

/-! ## Comments that nest -/

/-- Two units stand at an offset. -/
abbrev Mark (units : CodeUnit × CodeUnit) (text : JsString) (i : Nat) : Prop :=
  text[i]? = some units.1 ∧ text[i + 1]? = some units.2

/-- The end of a comment, and the depth it ends at: 0 if it is closed. -/
def closeNested (opening closing : CodeUnit × CodeUnit) (text : JsString) (i : Nat) (depth : Int) : Nat × Int :=
  if i < text.length then
    if Mark opening text i then closeNested opening closing text (i + 2) (depth + 1)
    else if Mark closing text i then
      if depth - 1 = 0 then (i + 2, 0) else closeNested opening closing text (i + 2) (depth - 1)
    else closeNested opening closing text (i + 1) depth
  else (i, depth)
termination_by text.length - i

theorem le_closeNested (opening closing : CodeUnit × CodeUnit) (text : JsString) (i : Nat) (depth : Int) :
    i ≤ (closeNested opening closing text i depth).1 := by
  induction i, depth using closeNested.induct opening closing text with
  | case1 i depth within opens ih =>
    rw [closeNested, if_pos within, if_pos opens]
    omega
  | case2 i depth within other closes last =>
    rw [closeNested, if_pos within, if_neg other, if_pos closes, if_pos last]
    exact Nat.le_add_right ..
  | case3 i depth within other closes more ih =>
    rw [closeNested, if_pos within, if_neg other, if_pos closes, if_neg more]
    omega
  | case4 i depth within notOpening notClosing ih =>
    rw [closeNested, if_pos within, if_neg notOpening, if_neg notClosing]
    omega
  | case5 i depth beyond =>
    rw [closeNested, if_neg beyond]

theorem closeNested_opening {opening closing : CodeUnit × CodeUnit} {text : JsString} {i : Nat} {depth : Int}
    (opens : Mark opening text i) :
    closeNested opening closing text i depth = closeNested opening closing text (i + 2) (depth + 1) := by
  rw [closeNested, if_pos (lt_of_unit opens.1), if_pos opens]

theorem lt_closeNested {opening closing : CodeUnit × CodeUnit} {text : JsString} {i : Nat} {depth : Int}
    (opens : Mark opening text i) : i < (closeNested opening closing text i depth).1 := by
  rw [closeNested_opening opens]
  have := le_closeNested opening closing text (i + 2) (depth + 1)
  omega

end RemoteSqlAgent.Lint
