import RemoteSqlAgent.TsqlScan

/-! Where the comments, strings and quoted identifiers of a T-SQL text are, as a grammar.
The scanner masks these and nothing else. -/
namespace RemoteSqlAgent.Lint.Tsql
open Js

/-! ## The grammar -/

/-- From one offset to another, comments are opened and closed in pairs. -/
inductive Nested (text : JsString) : Nat → Nat → Prop
  | done (i : Nat) : Nested text i i
  | other {i k : Nat} (within : i < text.length) (notOpening : ¬ Opens text i) (notClosing : ¬ Closes text i)
      (rest : Nested text (i + 1) k) : Nested text i k
  | comment {i j k : Nat} (opens : Opens text i) (inner : Nested text (i + 2) j) (closes : Closes text j)
      (rest : Nested text (j + 2) k) : Nested text i k

/-- From one offset to another, a closing delimiter only stands doubled. -/
inductive Escaped (text : JsString) (close : CodeUnit) : Nat → Nat → Prop
  | done (i : Nat) : Escaped text close i i
  | other {i k : Nat} (within : i < text.length) (plain : text[i]? ≠ some close)
      (rest : Escaped text close (i + 1) k) : Escaped text close i k
  | doubled {i k : Nat} (first : text[i]? = some close) (second : text[i + 1]? = some close)
      (rest : Escaped text close (i + 2) k) : Escaped text close i k

inductive Kind where
  | line
  | block
  | quoted (opener : CodeUnit)
deriving DecidableEq

/-- A comment, a string or a quoted identifier, with its delimiters. -/
structure Region where
  start : Nat
  stop : Nat
  kind : Kind
  closed : Bool
deriving DecidableEq

inductive IsRegion (text : JsString) : Region → Prop
  | line {start stop : Nat} (dashes : Dashes text start) (longer : start + 2 ≤ stop)
      (inside : ∀ j, start ≤ j → j < stop → text[j]? ≠ some lineFeed)
      (ends : stop = text.length ∨ text[stop]? = some lineFeed) : IsRegion text ⟨start, stop, .line, true⟩
  | comment {start stop : Nat} (opens : Opens text start) (inside : Nested text (start + 2) stop)
      (closes : Closes text stop) : IsRegion text ⟨start, stop + 2, .block, true⟩
  | openComment {start : Nat} (opens : Opens text start)
      (never : ∀ k, Nested text (start + 2) k → ¬ Closes text k) :
      IsRegion text ⟨start, text.length, .block, false⟩
  | quoted {start stop : Nat} {opener : CodeUnit} (opens : text[start]? = some opener) (quote : IsQuote opener)
      (inside : Escaped text (closer opener) (start + 1) stop) (closes : text[stop]? = some (closer opener))
      (single : text[stop + 1]? ≠ some (closer opener)) : IsRegion text ⟨start, stop + 1, .quoted opener, true⟩
  | openQuoted {start : Nat} {opener : CodeUnit} (opens : text[start]? = some opener) (quote : IsQuote opener)
      (inside : Escaped text (closer opener) (start + 1) text.length) :
      IsRegion text ⟨start, text.length, .quoted opener, false⟩

/-- Something opens at an offset. -/
def Starts (text : JsString) (i : Nat) : Prop :=
  Dashes text i ∨ Opens text i ∨ ∃ c, text[i]? = some c ∧ IsQuote c

/-- The regions of a text from an offset on, read from left to right. -/
inductive Lexed (text : JsString) : Nat → List Region → Prop
  | done {i : Nat} (beyond : text.length ≤ i) : Lexed text i []
  | code {i : Nat} {regions : List Region} (within : i < text.length) (plain : ¬ Starts text i)
      (rest : Lexed text (i + 1) regions) : Lexed text i regions
  | region {region : Region} {regions : List Region} (here : IsRegion text region)
      (rest : Lexed text region.stop regions) : Lexed text region.start (region :: regions)

/-! ## Reading a comment -/

theorem Nested.le {text : JsString} {i k : Nat} (nested : Nested text i k) : i ≤ k := by
  induction nested with
  | done i => exact le_refl i
  | other within notOpening notClosing rest ih => omega
  | comment opens inner closes rest innerLe ih => omega

theorem Nested.within {text : JsString} {i k : Nat} (nested : Nested text i k) (bound : i ≤ text.length) :
    k ≤ text.length := by
  induction nested with
  | done i => exact bound
  | other within notOpening notClosing rest ih => exact ih within
  | comment opens inner closes rest innerLe ih => exact ih (lt_of_unit closes.2)

/-- What opens a comment does not close one. -/
theorem not_opens_of_closes {text : JsString} {i : Nat} (closes : Closes text i) : ¬ Opens text i := by
  rintro ⟨opens, _⟩
  rw [closes.1] at opens
  exact absurd (Option.some.inj opens) (by decide)

theorem closeComment_closing {text : JsString} {i : Nat} {depth : Int} (closes : Closes text i) :
    closeComment text i depth = if depth - 1 = 0 then (i + 2, 0) else closeComment text (i + 2) (depth - 1) := by
  rw [closeComment, closeNested, if_pos (lt_of_unit closes.1), if_neg (not_opens_of_closes closes), if_pos closes]
  rfl

theorem closeComment_other {text : JsString} {i : Nat} {depth : Int} (within : i < text.length)
    (notOpening : ¬ Opens text i) (notClosing : ¬ Closes text i) :
    closeComment text i depth = closeComment text (i + 1) depth := by
  rw [closeComment, closeNested, if_pos within, if_neg notOpening, if_neg notClosing]
  rfl

theorem closeComment_end {text : JsString} {i : Nat} {depth : Int} (beyond : ¬ i < text.length) :
    closeComment text i depth = (i, depth) := by
  rw [closeComment, closeNested, if_neg beyond]

/-- The loop passes over what is nested, and is as deep after it as before. -/
theorem Nested.passed {text : JsString} {i k : Nat} (nested : Nested text i k) {depth : Int} (inside : 0 < depth) :
    closeComment text i depth = closeComment text k depth := by
  induction nested generalizing depth with
  | done i => rfl
  | other within notOpening notClosing rest ih => rw [closeComment_other within notOpening notClosing, ih inside]
  | @comment i j k opens inner closes rest innerPassed restPassed =>
    calc closeComment text i depth
        = closeComment text (i + 2) (depth + 1) := closeComment_opening opens
      _ = closeComment text j (depth + 1) := innerPassed (by omega)
      _ = closeComment text (j + 2) depth := by
        rw [closeComment_closing closes, if_neg (by omega), Int.add_sub_cancel]
      _ = closeComment text k depth := restPassed inside

/-- As many comments are closed between two offsets, one inside the other. -/
def Unwound (text : JsString) : Nat → Nat → Nat → Prop
  | 0, i, stop => i = stop
  | depth + 1, i, stop => ∃ k, Nested text i k ∧ Closes text k ∧ Unwound text depth (k + 2) stop

/-- The loop ends where all the comments it is in are closed, or at the end of the text. -/
theorem closeComment_cases {text : JsString} {i : Nat} {depth : Int} {inner : Nat} (inside : depth = inner + 1)
    (bound : i ≤ text.length) :
    (closeComment text i depth).2 = 0 ∧ Unwound text (inner + 1) i (closeComment text i depth).1 ∨
      0 < (closeComment text i depth).2 ∧ (closeComment text i depth).1 = text.length := by
  induction i, depth using closeNested.induct (slash, asterisk) (asterisk, slash) text generalizing inner with
  | case1 i depth within opens ih =>
    rw [closeComment_opening opens]
    have deeper : depth + 1 = (inner + 1 : Nat) + 1 := by omega
    rcases ih deeper (lt_of_unit opens.2) with ⟨closed, j, nested, closes, k, later, closesLater, rest⟩ | unclosed
    · exact Or.inl ⟨closed, k, .comment opens nested closes later, closesLater, rest⟩
    · exact Or.inr unclosed
  | case2 i depth within other closes last =>
    rw [closeComment_closing closes, if_pos last]
    obtain rfl : inner = 0 := by omega
    exact Or.inl ⟨rfl, i, .done i, closes, rfl⟩
  | case3 i depth within other closes more ih =>
    rw [closeComment_closing closes, if_neg more]
    obtain ⟨less, rfl⟩ : ∃ less, inner = less + 1 := Nat.exists_eq_add_one.mpr (by omega)
    have shallower : depth - 1 = (less : Int) + 1 := by omega
    rcases ih shallower (lt_of_unit closes.2) with ⟨closed, unwound⟩ | unclosed
    · exact Or.inl ⟨closed, i, .done i, closes, unwound⟩
    · exact Or.inr unclosed
  | case4 i depth within notOpening notClosing ih =>
    rw [closeComment_other within notOpening notClosing]
    rcases ih inside within with ⟨closed, k, nested, closes, rest⟩ | unclosed
    · exact Or.inl ⟨closed, k, .other within notOpening notClosing nested, closes, rest⟩
    · exact Or.inr unclosed
  | case5 i depth beyond =>
    rw [closeComment_end beyond]
    exact Or.inr ⟨by omega, by omega⟩

theorem Nested.closed {text : JsString} {i k : Nat} (nested : Nested text i k) (closes : Closes text k) :
    closeComment text i 1 = (k + 2, 0) := by
  rw [nested.passed (by decide), closeComment_closing closes]
  exact if_pos rfl

/-- A comment is closed by the first delimiter that fits, or never. -/
theorem closeComment_one {text : JsString} {i : Nat} (bound : i ≤ text.length) :
    (∃ k, Nested text i k ∧ Closes text k ∧ closeComment text i 1 = (k + 2, 0)) ∨
      0 < (closeComment text i 1).2 ∧ (closeComment text i 1).1 = text.length := by
  have first : (1 : Int) = (0 : Nat) + 1 := rfl
  rcases closeComment_cases first bound with ⟨_, k, inside, closes, _⟩ | unclosed
  · exact Or.inl ⟨k, inside, closes, inside.closed closes⟩
  · exact Or.inr unclosed

/-! ## Reading what is quoted -/

theorem Escaped.le {text : JsString} {close : CodeUnit} {i k : Nat} (escaped : Escaped text close i k) : i ≤ k := by
  induction escaped with
  | done i => exact le_refl i
  | other within plain rest ih => omega
  | doubled first second rest ih => omega

theorem closeQuote_doubled {text : JsString} {close : CodeUnit} {i : Nat} (first : text[i]? = some close)
    (second : text[i + 1]? = some close) : closeQuote text close i = closeQuote text close (i + 2) := by
  rw [closeQuote, if_pos (lt_of_unit first), if_pos first, if_pos second]

theorem closeQuote_closing {text : JsString} {close : CodeUnit} {i : Nat} (closes : text[i]? = some close)
    (single : text[i + 1]? ≠ some close) : closeQuote text close i = (i + 1, true) := by
  rw [closeQuote, if_pos (lt_of_unit closes), if_pos closes, if_neg single]

theorem closeQuote_other {text : JsString} {close : CodeUnit} {i : Nat} (within : i < text.length)
    (plain : text[i]? ≠ some close) : closeQuote text close i = closeQuote text close (i + 1) := by
  rw [closeQuote, if_pos within, if_neg plain]

theorem closeQuote_end {text : JsString} {close : CodeUnit} {i : Nat} (beyond : ¬ i < text.length) :
    closeQuote text close i = (i, false) := by
  rw [closeQuote, if_neg beyond]

/-- The loop passes over what is escaped. -/
theorem Escaped.passed {text : JsString} {close : CodeUnit} {i k : Nat} (escaped : Escaped text close i k) :
    closeQuote text close i = closeQuote text close k := by
  induction escaped with
  | done i => rfl
  | other within plain rest ih => rw [closeQuote_other within plain, ih]
  | doubled first second rest ih => rw [closeQuote_doubled first second, ih]

/-- The loop ends after a delimiter that is not doubled, or at the end of the text. -/
theorem closeQuote_cases {text : JsString} {close : CodeUnit} {i : Nat} (bound : i ≤ text.length) :
    (∃ k, Escaped text close i k ∧ text[k]? = some close ∧ text[k + 1]? ≠ some close ∧
        closeQuote text close i = (k + 1, true)) ∨
      Escaped text close i text.length ∧ closeQuote text close i = (text.length, false) := by
  induction i using closeQuote.induct text close with
  | case1 i within here doubled ih =>
    rw [closeQuote_doubled here doubled]
    rcases ih (lt_of_unit doubled) with ⟨k, escaped, closes, single, ends⟩ | ⟨escaped, ends⟩
    · exact Or.inl ⟨k, .doubled here doubled escaped, closes, single, ends⟩
    · exact Or.inr ⟨.doubled here doubled escaped, ends⟩
  | case2 i within here single =>
    exact Or.inl ⟨i, .done i, here, single, closeQuote_closing here single⟩
  | case3 i within plain ih =>
    rw [closeQuote_other within plain]
    rcases ih within with ⟨k, escaped, closes, single, ends⟩ | ⟨escaped, ends⟩
    · exact Or.inl ⟨k, .other within plain escaped, closes, single, ends⟩
    · exact Or.inr ⟨.other within plain escaped, ends⟩
  | case4 i beyond =>
    obtain rfl : i = text.length := by omega
    exact Or.inr ⟨.done _, closeQuote_end beyond⟩

/-! ## Reading a region -/

/-- The region the scanner blanks where something opens. -/
def readRegion (text : JsString) (start : Nat) : Region :=
  if Dashes text start then ⟨start, indexOfOrEnd text [lineFeed] start, .line, true⟩
  else if Opens text start then
    let comment := closeComment text start 0
    ⟨start, comment.1, .block, !decide (0 < comment.2)⟩
  else
    let c := text.getD start 0
    let quoted := closeQuote text (closer c) (start + 1)
    ⟨start, quoted.1, .quoted c, quoted.2⟩

theorem not_opens_of_dashes {text : JsString} {i : Nat} (dashes : Dashes text i) : ¬ Opens text i := by
  rintro ⟨opens, _⟩
  rw [dashes.1] at opens
  exact absurd (Option.some.inj opens) (by decide)

theorem not_dashes_of_opens {text : JsString} {i : Nat} (opens : Opens text i) : ¬ Dashes text i :=
  fun dashes => not_opens_of_dashes dashes opens

theorem not_quote {c : CodeUnit} (other : c = dash ∨ c = slash) : ¬ IsQuote c := by
  rcases other with rfl | rfl <;> decide

theorem plain_of_quote {text : JsString} {i : Nat} {c : CodeUnit} (here : text[i]? = some c) (quote : IsQuote c) :
    ¬ Dashes text i ∧ ¬ Opens text i := by
  constructor
  · rintro ⟨dashes, _⟩
    rw [here] at dashes
    exact not_quote (Or.inl (Option.some.inj dashes)) quote
  · rintro ⟨opens, _⟩
    rw [here] at opens
    exact not_quote (Or.inr (Option.some.inj opens)) quote

theorem readRegion_line {text : JsString} {i : Nat} (dashes : Dashes text i) :
    readRegion text i = ⟨i, indexOfOrEnd text [lineFeed] i, .line, true⟩ := by
  rw [readRegion, if_pos dashes]

theorem readRegion_comment {text : JsString} {i : Nat} (opens : Opens text i) :
    readRegion text i =
      ⟨i, (closeComment text (i + 2) 1).1, .block, !decide (0 < (closeComment text (i + 2) 1).2)⟩ := by
  rw [readRegion, if_neg (not_dashes_of_opens opens), if_pos opens, closeComment_opening opens]
  rfl

theorem readRegion_quoted {text : JsString} {i : Nat} {c : CodeUnit} (here : text[i]? = some c) (quote : IsQuote c) :
    readRegion text i =
      ⟨i, (closeQuote text (closer c) (i + 1)).1, .quoted c, (closeQuote text (closer c) (i + 1)).2⟩ := by
  have plain := plain_of_quote here quote
  rw [readRegion, if_neg plain.1, if_neg plain.2, List.getD_eq_getElem?_getD, here]
  rfl

theorem lineFeed_ne_dash {text : JsString} {j : Nat} (dashed : text[j]? = some dash) : text[j]? ≠ some lineFeed := by
  rw [dashed]
  decide

/-- Where something opens there is a region, and it is the one that is blanked. -/
theorem isRegion_readRegion {text : JsString} {i : Nat} (starts : Starts text i) :
    IsRegion text (readRegion text i) := by
  rcases starts with dashes | opens | ⟨c, here, quote⟩
  · rw [readRegion_line dashes]
    have within := lt_of_unit dashes.2
    obtain ⟨later, inside, ends⟩ := indexOfOrEnd_unit lineFeed (Nat.le_of_lt (lt_of_unit dashes.1))
    refine .line dashes ?_ inside ends
    by_contra short
    rcases ends with ends | breaks
    · omega
    · obtain same | same : indexOfOrEnd text [lineFeed] i = i ∨ indexOfOrEnd text [lineFeed] i = i + 1 := by omega
      · rw [same] at breaks
        exact lineFeed_ne_dash dashes.1 breaks
      · rw [same] at breaks
        exact lineFeed_ne_dash dashes.2 breaks
  · rw [readRegion_comment opens]
    rcases closeComment_one (lt_of_unit opens.2) with ⟨k, inside, closes, ends⟩ | ⟨deep, ends⟩
    · rw [ends]
      exact .comment opens inside closes
    · rw [ends, decide_eq_true deep]
      refine .openComment opens fun k inside closes => ?_
      rw [inside.closed closes] at deep
      exact Int.lt_irrefl 0 deep
  · rw [readRegion_quoted here quote]
    rcases closeQuote_cases (lt_of_unit here) with ⟨k, inside, closes, single, ends⟩ | ⟨inside, ends⟩
    · rw [ends]
      exact .quoted here quote inside closes single
    · rw [ends]
      exact .openQuoted here quote inside

/-- What is a region is read where it starts. -/
theorem IsRegion.eq_readRegion {text : JsString} {region : Region} (here : IsRegion text region) :
    region = readRegion text region.start := by
  cases here with
  | @line start stop dashes longer inside ends =>
    rw [readRegion_line dashes]
    obtain ⟨later, insideFound, endsFound⟩ :=
      indexOfOrEnd_unit lineFeed (Nat.le_of_lt (lt_of_unit dashes.1))
    have bound : stop ≤ text.length := ends.elim Nat.le_of_eq fun breaks => Nat.le_of_lt (lt_of_unit breaks)
    congr 1
    rcases Nat.lt_trichotomy stop (indexOfOrEnd text [lineFeed] start) with earlier | same | later'
    · cases ends with
      | inl ends =>
        cases endsFound with
        | inl endsFound => omega
        | inr breaks =>
          have := lt_of_unit breaks
          omega
      | inr breaks => exact absurd breaks (insideFound stop (by omega) earlier)
    · exact same
    · cases endsFound with
      | inl endsFound => omega
      | inr breaks => exact absurd breaks (inside _ later later')
  | comment opens inside closes =>
    rw [readRegion_comment opens, inside.closed closes]
    rfl
  | @openComment start opens never =>
    rw [readRegion_comment opens]
    rcases closeComment_one (lt_of_unit opens.2) with ⟨k, inside, closes, ends⟩ | ⟨deep, ends⟩
    · exact absurd closes (never k inside)
    · rw [ends, decide_eq_true deep]
      rfl
  | quoted opens quote inside closes single =>
    rw [readRegion_quoted opens quote, inside.passed, closeQuote_closing closes single]
  | openQuoted opens quote inside =>
    rw [readRegion_quoted opens quote, inside.passed, closeQuote_end (Nat.lt_irrefl _)]

theorem IsRegion.starts {text : JsString} {region : Region} (here : IsRegion text region) :
    Starts text region.start := by
  cases here with
  | line dashes longer inside ends => exact Or.inl dashes
  | comment opens inside closes => exact Or.inr (Or.inl opens)
  | openComment opens never => exact Or.inr (Or.inl opens)
  | quoted opens quote inside closes single => exact Or.inr (Or.inr ⟨_, opens, quote⟩)
  | openQuoted opens quote inside => exact Or.inr (Or.inr ⟨_, opens, quote⟩)

theorem readRegion_start (text : JsString) (i : Nat) : (readRegion text i).start = i := by
  unfold readRegion
  split
  · rfl
  · split <;> rfl

theorem Starts.within {text : JsString} {i : Nat} (starts : Starts text i) : i < text.length := by
  rcases starts with dashes | opens | ⟨c, here, quote⟩
  · exact lt_of_unit dashes.1
  · exact lt_of_unit opens.1
  · exact lt_of_unit here

theorem IsRegion.bounds {text : JsString} {region : Region} (here : IsRegion text region) :
    region.start < region.stop ∧ region.stop ≤ text.length := by
  have within := here.starts.within
  cases here with
  | @line start stop dashes longer inside ends =>
    exact ⟨by
      have : start + 2 ≤ stop := longer
      change start < stop
      omega, ends.elim Nat.le_of_eq fun breaks => Nat.le_of_lt (lt_of_unit breaks)⟩
  | @comment start stop opens inside closes =>
    have later := inside.le
    have bound := lt_of_unit closes.2
    exact ⟨by
      change start < stop + 2
      omega, bound⟩
  | openComment opens never => exact ⟨within, le_refl _⟩
  | @quoted start stop opener opens quote inside closes single =>
    have later := inside.le
    have bound := lt_of_unit closes
    exact ⟨by
      change start < stop + 1
      omega, bound⟩
  | openQuoted opens quote inside => exact ⟨within, le_refl _⟩

/-- There is one way to read a text. -/
theorem Lexed.unique {text : JsString} {i : Nat} {one two : List Region} (first : Lexed text i one)
    (second : Lexed text i two) : one = two := by
  induction first generalizing two with
  | @done i beyond =>
    cases second with
    | done => rfl
    | code within => omega
    | region here rest =>
      have := here.starts.within
      omega
  | @code i regions within plain rest ih =>
    cases second with
    | done beyond => omega
    | code within' plain' rest' => exact ih rest'
    | region here rest' => exact absurd here.starts plain
  | @region region regions here rest ih =>
    generalize start : region.start = i at second
    cases second with
    | done beyond =>
      have := here.starts.within
      omega
    | code within plain rest' => exact absurd (start ▸ here.starts) plain
    | @region region' regions' here' rest' =>
      have same : region = region' := by rw [here.eq_readRegion, here'.eq_readRegion, start]
      subst same
      rw [ih rest']

end RemoteSqlAgent.Lint.Tsql
