import RemoteSqlAgent.TsqlRegions

/-! The scan of a T-SQL text is determined by where its regions are, and where they are by
their delimiters: what else is inside them is never looked at. -/
namespace RemoteSqlAgent.Lint.Tsql
open Js

/-! ## The scan and the grammar -/

/-- What the scan reports of a region. -/
def finding (locate : Locator) (region : Region) : List Diagnostic :=
  if region.closed then []
  else
    match region.kind with
    | .line => []
    | .block => [unterminated locate region.start "block comment" "tsql/unterminated-comment"]
    | .quoted c => [unterminatedQuote locate region.start c]

def blankRegion (chars : JsString) (region : Region) : JsString := blank chars region.start region.stop

/-- Where something opens, a region is blanked and the scan goes on behind it. -/
theorem scanFrom_region {text : JsString} {locate : Locator} {i : Nat} {chars : JsString}
    {diagnostics : List Diagnostic} (starts : Starts text i) :
    scanFrom text locate i chars diagnostics =
      scanFrom text locate (readRegion text i).stop (blank chars i (readRegion text i).stop)
        (diagnostics ++ finding locate (readRegion text i)) := by
  have within := starts.within
  rcases starts with dashes | opens | ⟨c, here, quote⟩
  · rw [scanFrom, dif_pos within, dif_pos dashes, readRegion_line dashes]
    simp only [finding, ↓reduceIte, List.append_nil]
  · rw [scanFrom, dif_pos within, dif_neg (not_dashes_of_opens opens), dif_pos opens, readRegion_comment opens,
      closeComment_opening opens]
    by_cases deep : 0 < (closeComment text (i + 2) 1).2
    · simp [finding, deep]
    · simp [finding, deep]
  · have plain := plain_of_quote here quote
    obtain ⟨_, same⟩ := List.getElem?_eq_some_iff.mp here
    rw [scanFrom, dif_pos within, dif_neg plain.1, dif_neg plain.2, readRegion_quoted here quote]
    simp only [same, if_pos quote]
    cases closed : (closeQuote text (closer c) (i + 1)).2 <;> simp [finding]

theorem scanFrom_code {text : JsString} {locate : Locator} {i : Nat} {chars : JsString}
    {diagnostics : List Diagnostic} (within : i < text.length) (plain : ¬ Starts text i) :
    scanFrom text locate i chars diagnostics = scanFrom text locate (i + 1) chars diagnostics := by
  rw [scanFrom, dif_pos within, dif_neg fun dashes => plain (Or.inl dashes),
    dif_neg fun opens => plain (Or.inr (Or.inl opens))]
  exact if_neg fun quote => plain (Or.inr (Or.inr ⟨_, List.getElem?_eq_getElem within, quote⟩))

theorem scanFrom_end {text : JsString} {locate : Locator} {i : Nat} {chars : JsString}
    {diagnostics : List Diagnostic} (beyond : text.length ≤ i) :
    scanFrom text locate i chars diagnostics = ⟨chars, diagnostics⟩ := by
  rw [scanFrom, dif_neg (Nat.not_lt.mpr beyond)]

/-- The scan blanks the regions of the text and reports those that are not closed. -/
theorem Lexed.scanned {text : JsString} {i : Nat} {regions : List Region} (lexed : Lexed text i regions)
    (locate : Locator) (chars : JsString) (diagnostics : List Diagnostic) :
    scanFrom text locate i chars diagnostics =
      ⟨regions.foldl blankRegion chars, diagnostics ++ regions.flatMap (finding locate)⟩ := by
  induction lexed generalizing chars diagnostics with
  | done beyond => rw [scanFrom_end beyond, List.flatMap_nil, List.append_nil, List.foldl_nil]
  | code within plain rest ih => rw [scanFrom_code within plain, ih]
  | region here rest ih =>
    rw [scanFrom_region here.starts, ← here.eq_readRegion, ih, List.foldl_cons, List.flatMap_cons, List.append_assoc]
    rfl

/-- Every text can be read. -/
theorem exists_lexed (text : JsString) (i : Nat) : ∃ regions, Lexed text i regions := by
  induction left : text.length - i using Nat.strong_induction_on generalizing i with
  | _ left ih =>
    by_cases within : i < text.length
    · by_cases starts : Starts text i
      · have here := isRegion_readRegion starts
        have bounds := here.bounds
        rw [readRegion_start] at bounds
        obtain ⟨regions, rest⟩ := ih (text.length - (readRegion text i).stop) (by omega) _ rfl
        have lexed := Lexed.region here rest
        rw [readRegion_start] at lexed
        exact ⟨_, lexed⟩
      · obtain ⟨regions, rest⟩ := ih (text.length - (i + 1)) (by omega) _ rfl
        exact ⟨regions, .code within starts rest⟩
    · exact ⟨[], .done (Nat.not_lt.mp within)⟩

/-! ## The mask -/

abbrev Region.Covers (region : Region) (i : Nat) : Prop := region.start ≤ i ∧ i < region.stop

/-- An offset is in a region. -/
def Covered (regions : List Region) (i : Nat) : Prop := ∃ region ∈ regions, region.Covers i

instance (regions : List Region) (i : Nat) : Decidable (Covered regions i) :=
  inferInstanceAs (Decidable (∃ region ∈ regions, region.Covers i))

theorem covered_cons {region : Region} {regions : List Region} {i : Nat} :
    Covered (region :: regions) i ↔ region.Covers i ∨ Covered regions i := by
  simp only [Covered, List.exists_mem_cons_iff]

/-- A text with everything in the regions blanked. -/
theorem getElem?_foldl_blank (regions : List Region) (chars : JsString) (i : Nat) :
    (regions.foldl blankRegion chars)[i]? =
      chars[i]?.map fun unit => if Covered regions i then blanked unit else unit := by
  induction regions generalizing chars with
  | nil =>
    have none : ¬ Covered [] i := fun ⟨_, member, _⟩ => nomatch member
    simp only [List.foldl_nil, none, ↓reduceIte, Option.map_id']
  | cons region regions ih =>
    rw [List.foldl_cons, ih, blankRegion, getElem?_blank, Option.map_map]
    congr 1
    funext unit
    simp only [Function.comp_apply, covered_cons]
    by_cases first : region.Covers i
    · by_cases later : Covered regions i
      · rw [if_pos later, if_pos first, if_pos (Or.inl first), blanked_blanked]
      · rw [if_neg later, if_pos first, if_pos (Or.inl first)]
    · simp only [first, ↓reduceIte, false_or]

/-- Each unit of the mask is what the text has there, blanked in the regions. -/
theorem masked_at {text : JsString} {regions : List Region} (lexed : Lexed text 0 regions) (locate : Locator)
    (i : Nat) : (scan text locate).masked[i]? =
      text[i]?.map fun unit => if Covered regions i then blanked unit else unit := by
  rw [scan, lexed.scanned]
  exact getElem?_foldl_blank regions text i

theorem length_masked (text : JsString) (locate : Locator) : (scan text locate).masked.length = text.length := by
  obtain ⟨regions, lexed⟩ := exists_lexed text 0
  refine Nat.le_antisymm ?_ ?_
  · refine List.getElem?_eq_none_iff.mp ?_
    rw [masked_at lexed, List.getElem?_eq_none (Nat.le_refl _), Option.map_none]
  · refine List.getElem?_eq_none_iff.mp ?_
    have ends := masked_at lexed locate (scan text locate).masked.length
    rw [List.getElem?_eq_none (Nat.le_refl _)] at ends
    exact Option.map_eq_none_iff.mp ends.symm

/-- A line break is in the mask where it is in the text. -/
theorem masked_break (text : JsString) (locate : Locator) {lineBreak : CodeUnit}
    (breaks : isLineBreak lineBreak = true) (i : Nat) :
    (scan text locate).masked[i]? = some lineBreak ↔ text[i]? = some lineBreak := by
  obtain ⟨regions, lexed⟩ := exists_lexed text 0
  rw [masked_at lexed]
  by_cases covered : Covered regions i
  · simp only [covered, ↓reduceIte, Option.map_eq_some_iff, blanked_eq_break breaks, exists_eq_right]
  · simp only [covered, ↓reduceIte, Option.map_id']

/-! ## Two texts alike but for what is inside -/

def Kind.delimiters : Kind → List CodeUnit
  | .line => []
  | .block => [asterisk, slash]
  | .quoted c => [closer c]

/-- How many units open a region. -/
def Kind.opening : Kind → Nat
  | .line => 2
  | .block => 2
  | .quoted _ => 1

/-- How many units close a region. -/
def Region.closing (region : Region) : Nat :=
  match region.kind, region.closed with
  | .block, true => 2
  | .quoted _, true => 1
  | _, _ => 0

/-- An offset is between the delimiters of a region. -/
def Region.Inside (region : Region) (i : Nat) : Prop :=
  region.start + region.kind.opening ≤ i ∧ i + region.closing < region.stop

/-- Neither a line break nor a delimiter of the region. -/
def Harmless (kind : Kind) (unit : CodeUnit) : Prop := isLineBreak unit = false ∧ unit ∉ kind.delimiters

/-- Texts of one length, apart only inside regions and never in a line break or a delimiter. -/
structure AlikeOutside (regions : List Region) (s t : JsString) : Prop where
  length : s.length = t.length
  inside : ∀ i : Nat, s[i]? ≠ t[i]? → ∃ region ∈ regions, region.Inside i ∧
    (∀ unit ∈ s[i]?, Harmless region.kind unit) ∧ ∀ unit ∈ t[i]?, Harmless region.kind unit

/-- Texts that open a region alike, and have the same line breaks and delimiters up to and
with the unit behind it. -/
structure Agree (region : Region) (s t : JsString) : Prop where
  length : s.length = t.length
  opening : ∀ i, region.start ≤ i → i < region.start + region.kind.opening → s[i]? = t[i]?
  units : ∀ i, region.start ≤ i → i ≤ region.stop → ∀ unit,
    isLineBreak unit = true ∨ unit ∈ region.kind.delimiters → (s[i]? = some unit ↔ t[i]? = some unit)

theorem Nested.transport {s t : JsString} {i k : Nat} (nested : Nested s i k) (length : s.length = t.length)
    (same : ∀ j, i ≤ j → j ≤ k → ∀ unit ∈ Kind.block.delimiters, (s[j]? = some unit ↔ t[j]? = some unit)) :
    Nested t i k := by
  have asteriskSeen : asterisk ∈ Kind.block.delimiters := List.mem_cons_self
  have slashSeen : slash ∈ Kind.block.delimiters := List.mem_cons_of_mem _ List.mem_cons_self
  induction nested with
  | done i => exact .done i
  | @other i k within notOpening notClosing rest ih =>
    have later := rest.le
    have here := same i (Nat.le_refl i) (by omega)
    have next := same (i + 1) (by omega) later
    refine .other (length ▸ within) (fun opens => notOpening ?_) (fun closes => notClosing ?_)
      (ih fun j after before => same j (by omega) before)
    · exact ⟨(here _ slashSeen).mpr opens.1, (next _ asteriskSeen).mpr opens.2⟩
    · exact ⟨(here _ asteriskSeen).mpr closes.1, (next _ slashSeen).mpr closes.2⟩
  | @comment i j k opens inner closes rest innerIh restIh =>
    have opened := inner.le
    have closed := rest.le
    refine .comment (j := j) ⟨?_, ?_⟩ (innerIh fun m after before => same m (by omega) (by omega)) ⟨?_, ?_⟩
      (restIh fun m after before => same m (by omega) before)
    · exact (same i (by omega) (by omega) _ slashSeen).mp opens.1
    · exact (same (i + 1) (by omega) (by omega) _ asteriskSeen).mp opens.2
    · exact (same j (by omega) (by omega) _ asteriskSeen).mp closes.1
    · exact (same (j + 1) (by omega) (by omega) _ slashSeen).mp closes.2

theorem Escaped.transport {s t : JsString} {close : CodeUnit} {i k : Nat} (escaped : Escaped s close i k)
    (length : s.length = t.length)
    (same : ∀ j, i ≤ j → j ≤ k → (s[j]? = some close ↔ t[j]? = some close)) : Escaped t close i k := by
  induction escaped with
  | done i => exact .done i
  | other within plain rest ih =>
    have later := rest.le
    refine .other (length ▸ within) (fun here => plain ?_) (ih fun j after before => same j (by omega) before)
    exact (same _ (by omega) (by omega)).mpr here
  | doubled first second rest ih =>
    have later := rest.le
    exact .doubled ((same _ (by omega) (by omega)).mp first) ((same _ (by omega) (by omega)).mp second)
      (ih fun j after before => same j (by omega) before)

/-- A region is one in every text that agrees on it. -/
theorem IsRegion.transport {s t : JsString} {region : Region} (here : IsRegion s region) (agree : Agree region s t) :
    IsRegion t region := by
  obtain ⟨length, opening, units⟩ := agree
  cases here with
  | @line start stop dashes longer inside ends =>
    have breaks {i : Nat} (start : start ≤ i) (within : i ≤ stop) := units i start within lineFeed (Or.inl (by decide))
    refine .line ⟨?_, ?_⟩ longer (fun j later earlier present => ?_) (ends.imp (·.trans length) (breaks ?_ ?_).mp)
    · exact (opening start (Nat.le_refl _) (Nat.lt_add_of_pos_right Nat.two_pos)) ▸ dashes.1
    · exact (opening (start + 1) (Nat.le_succ _) (Nat.lt_succ_self _)) ▸ dashes.2
    · exact inside j later earlier ((breaks later (Nat.le_of_lt earlier)).mpr present)
    · omega
    · exact Nat.le_refl _
  | @comment start stop opens inside closes =>
    have later := inside.le
    have same (j : Nat) (after : start ≤ j) (before : j ≤ stop + 2) (unit : CodeUnit)
        (seen : unit ∈ Kind.block.delimiters) := units j after before unit (Or.inr seen)
    refine .comment ⟨?_, ?_⟩ (inside.transport length fun j after before => same j (by omega) (by omega)) ⟨?_, ?_⟩
    · exact (same start (by omega) (by omega) slash (by decide)).mp opens.1
    · exact (same (start + 1) (by omega) (by omega) asterisk (by decide)).mp opens.2
    · exact (same stop (by omega) (by omega) asterisk (by decide)).mp closes.1
    · exact (same (stop + 1) (by omega) (by omega) slash (by decide)).mp closes.2
  | @openComment start opens never =>
    have within := lt_of_unit opens.2
    have same (j : Nat) (after : start ≤ j) (before : j ≤ s.length) (unit : CodeUnit)
        (seen : unit ∈ Kind.block.delimiters) := units j after before unit (Or.inr seen)
    rw [length]
    refine .openComment ⟨?_, ?_⟩ fun k inside closes => never k ?_ ⟨?_, ?_⟩
    · exact (same start (by omega) (by omega) slash (by decide)).mp opens.1
    · exact (same (start + 1) (by omega) (by omega) asterisk (by decide)).mp opens.2
    · have bound := inside.within (length ▸ within)
      exact inside.transport length.symm fun j after before unit seen =>
        (same j (by omega) (by omega) unit seen).symm
    · have later := inside.le
      have bound := lt_of_unit closes.2
      exact (same k (by omega) (by omega) asterisk (by decide)).mpr closes.1
    · have later := inside.le
      have bound := lt_of_unit closes.2
      exact (same (k + 1) (by omega) (by omega) slash (by decide)).mpr closes.2
  | @quoted start stop opener opens quote inside closes single =>
    have later := inside.le
    have same (j : Nat) (after : start ≤ j) (before : j ≤ stop + 1) :=
      units j after before (closer opener) (Or.inr List.mem_cons_self)
    have also := inside.transport length fun j after before => same j (by omega) (by omega)
    refine .quoted ?_ quote also ?_ fun doubled => ?_
    · exact (opening start (Nat.le_refl _) (Nat.lt_succ_self _)) ▸ opens
    · exact (same stop (by omega) (by omega)).mp closes
    · exact single ((same (stop + 1) (by omega) (by omega)).mpr doubled)
  | @openQuoted start opener opens quote inside =>
    have later := inside.le
    have same (j : Nat) (after : start ≤ j) (before : j ≤ s.length) :=
      units j after before (closer opener) (Or.inr List.mem_cons_self)
    rw [length]
    refine .openQuoted ?_ quote ?_
    · exact (opening start (Nat.le_refl _) (Nat.lt_succ_self _)) ▸ opens
    · exact length ▸ inside.transport length fun j after before => same j (by omega) (by omega)

theorem Lexed.later {text : JsString} {i : Nat} {regions : List Region} (lexed : Lexed text i regions) :
    ∀ region ∈ regions, i ≤ region.start := by
  induction lexed with
  | done beyond => exact fun region member => nomatch member
  | code within plain rest ih => exact fun region member => Nat.le_of_succ_le (ih region member)
  | region here rest ih =>
    rintro region' (_ | ⟨_, member⟩)
    · exact Nat.le_refl _
    · have := ih region' member
      have := here.bounds
      omega

theorem Region.Inside.after {region : Region} {i : Nat} (inside : region.Inside i) : region.start < i := by
  obtain ⟨start, _⟩ := inside
  cases kind : region.kind <;> simp only [kind, Kind.opening] at start <;> omega

theorem Region.Inside.before {region : Region} {i : Nat} (inside : region.Inside i) : i < region.stop := by
  have := inside.2
  omega

/-- Alike from an offset on. -/
def AlikeFrom (i : Nat) (regions : List Region) (s t : JsString) : Prop :=
  ∀ j, i ≤ j → s[j]? ≠ t[j]? → ∃ region ∈ regions, region.Inside j ∧
    (∀ unit ∈ s[j]?, Harmless region.kind unit) ∧ ∀ unit ∈ t[j]?, Harmless region.kind unit

/-- Where a region is read, the texts are apart only inside it. -/
theorem AlikeFrom.agree {s t : JsString} {region : Region} {regions : List Region} (here : IsRegion s region)
    (rest : Lexed s region.stop regions) (length : s.length = t.length)
    (alike : AlikeFrom region.start (region :: regions) s t) : Agree region s t := by
  have only : ∀ i, region.start ≤ i → i ≤ region.stop → s[i]? ≠ t[i]? → region.Inside i ∧
      (∀ unit ∈ s[i]?, Harmless region.kind unit) ∧ ∀ unit ∈ t[i]?, Harmless region.kind unit := by
    intro i start stop apart
    obtain ⟨region', member, inside, harmless⟩ := alike i start apart
    rcases List.mem_cons.mp member with rfl | later
    · exact ⟨inside, harmless⟩
    · have := rest.later region' later
      have := inside.after
      omega
  refine ⟨length, fun i start within => ?_, fun i start stop unit seen => ?_⟩
  · by_contra apart
    have bound : i ≤ region.stop := by
      have := here.bounds
      cases kind : region.kind <;> simp only [kind, Kind.opening] at within <;> omega
    have inside := (only i start bound apart).1.1
    omega
  · by_cases apart : s[i]? = t[i]?
    · rw [apart]
    · obtain ⟨_, one, other⟩ := only i start stop apart
      constructor
      · intro present
        have harmless := one unit present
        exact absurd seen fun seen => seen.elim (by simp [harmless.1]) harmless.2
      · intro present
        have harmless := other unit present
        exact absurd seen fun seen => seen.elim (by simp [harmless.1]) harmless.2

/-- Texts that are alike but for what is inside have the same regions. -/
theorem Lexed.transport {s t : JsString} {i : Nat} {regions : List Region} (lexed : Lexed s i regions)
    (length : s.length = t.length) (alike : AlikeFrom i regions s t) : Lexed t i regions := by
  induction lexed with
  | done beyond => exact .done (length ▸ beyond)
  | @code i regions within plain rest ih =>
    -- Nothing is inside a region here or at the next offset, where a region could start.
    have same {j : Nat} (near : j = i ∨ j = i + 1) : s[j]? = t[j]? := by
      by_contra apart
      obtain ⟨region, member, inside, _⟩ := alike j (by omega) apart
      have := rest.later region member
      have := inside.after
      omega
    have here := same (Or.inl rfl)
    have next := same (Or.inr rfl)
    refine .code (length ▸ within) (fun starts => plain ?_) (ih fun j later => alike j (by omega))
    simpa only [Starts, Dashes, Opens, Mark, here, next] using starts
  | @region region regions here rest ih =>
    refine .region (here.transport (alike.agree here rest length)) (ih fun j later apart => ?_)
    obtain ⟨region', member, inside, harmless⟩ := alike j (by
      have := here.bounds
      omega) apart
    rcases List.mem_cons.mp member with rfl | member
    · have := inside.before
      omega
    · exact ⟨region', member, inside, harmless⟩

end RemoteSqlAgent.Lint.Tsql
