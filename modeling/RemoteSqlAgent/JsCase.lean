import RemoteSqlAgent.JsText
import Mathlib.Data.List.Chain
import Mathlib.Data.List.DropRight

/-! `trim` and `toLowerCase`. Lower-casing maps code points by the tables of
Unicode, which are a parameter here with what is documented of them. A text that
was trimmed and lower-cased is left alone by both. -/
namespace Js

/-! ## White space -/

/-- `WhiteSpace` and `LineTerminator`. -/
def isWhiteSpace (point : Nat) : Bool :=
  point ∈ [0x09, 0x0A, 0x0B, 0x0C, 0x0D, 0x20, 0xA0, 0x1680, 0x2028, 0x2029, 0x202F, 0x205F, 0x3000, 0xFEFF] ||
    0x2000 ≤ point && point ≤ 0x200A

/-- `String.prototype.trim`. White space is never half of a surrogate pair. -/
def trim (s : JsString) : JsString :=
  (s.dropWhile fun unit => isWhiteSpace unit.val).rdropWhile fun unit => isWhiteSpace unit.val

/-- There is no white space at the ends. -/
def Trimmed (s : JsString) : Prop :=
  (∀ unit ∈ s.head?, isWhiteSpace unit.val = false) ∧ ∀ unit ∈ s.getLast?, isWhiteSpace unit.val = false

theorem trimmed_trim (s : JsString) : Trimmed (trim s) := by
  constructor
  · intro unit first
    obtain ⟨rest, split⟩ : trim s <+: s.dropWhile fun unit => isWhiteSpace unit.val := List.rdropWhile_prefix _ _
    have first' : unit ∈ (s.dropWhile fun unit => isWhiteSpace unit.val).head? := by
      rw [← split, List.head?_append, first]
      rfl
    have found := List.head?_dropWhile_not (fun unit : CodeUnit => isWhiteSpace unit.val) s
    rw [first'] at found
    exact found
  · intro unit last
    have some : trim s ≠ [] := fun empty => by
      rw [empty] at last
      cases last
    have black := List.rdropWhile_last_not _ _ some
    rw [List.getLast?_eq_some_getLast some] at last
    cases last
    exact Bool.eq_false_iff.mpr black

theorem trim_of_trimmed {s : JsString} (trimmed : Trimmed s) : trim s = s := by
  have front : (s.dropWhile fun unit => isWhiteSpace unit.val) = s := by
    cases s with
    | nil => rfl
    | cons unit rest => exact List.dropWhile_cons_of_neg (by simp [trimmed.1 unit rfl])
  rw [trim, front, List.rdropWhile_eq_self_iff]
  intro some
  simp [trimmed.2 _ (List.getLast?_eq_some_getLast some)]

/-! ## Code points -/

def isSurrogate (point : Nat) : Bool := 0xD800 ≤ point && point ≤ 0xDFFF

/-- The code points of a string. A surrogate without its other half is one. -/
def codePoints : JsString → List Nat
  | [] => []
  | [unit] => [unit.val]
  | first :: second :: rest =>
    if isHighSurrogate first && isLowSurrogate second then
      (0x10000 + (first.val - 0xD800) * 0x400 + (second.val - 0xDC00)) :: codePoints rest
    else first.val :: codePoints (second :: rest)

/-- The code units of a code point. -/
def unitsOfPoint (point : Nat) : List CodeUnit :=
  if point < 0x10000 then [Fin.ofNat _ point]
  else [Fin.ofNat _ (0xD800 + (point - 0x10000) / 0x400), Fin.ofNat _ (0xDC00 + (point - 0x10000) % 0x400)]

def ofCodePoints (points : List Nat) : JsString := points.flatMap unitsOfPoint

/-- Two code points that would be read as one. -/
def Pair (first second : Nat) : Prop :=
  (0xD800 ≤ first ∧ first ≤ 0xDBFF) ∧ 0xDC00 ≤ second ∧ second ≤ 0xDFFF

/-- The code points are in range, and no two in a row would be read as one. -/
def Spelled (points : List Nat) : Prop :=
  (∀ point ∈ points, point < 0x110000) ∧ points.IsChain fun first second => ¬ Pair first second

theorem spelled_codePoints (s : JsString) : Spelled (codePoints s) := by
  fun_induction codePoints s with
  | case1 => exact ⟨by simp, .nil⟩
  | case2 unit =>
    refine ⟨fun point member => ?_, .singleton _⟩
    rw [List.mem_singleton] at member
    exact member ▸ unit.isLt.trans (by decide)
  | case3 first second rest pair ih =>
    simp only [isHighSurrogate, isLowSurrogate, Bool.and_eq_true, decide_eq_true_eq] at pair
    refine ⟨?_, ?_⟩
    · intro point member
      rcases List.mem_cons.mp member with here | later
      · omega
      · exact ih.1 point later
    · refine List.isChain_cons.mpr ⟨fun next _ isPair => ?_, ih.2⟩
      unfold Pair at isPair
      omega
  | case4 first second rest apart ih =>
    refine ⟨?_, ?_⟩
    · intro point member
      rcases List.mem_cons.mp member with rfl | later
      · have small := first.isLt
        omega
      · exact ih.1 point later
    · refine List.isChain_cons.mpr ⟨fun next isNext isPair => ?_, ih.2⟩
      unfold Pair at isPair
      refine apart ?_
      have same : next = second.val := by
        cases rest with
        | nil => exact (Option.some.inj isNext).symm
        | cons third rest =>
          rw [codePoints] at isNext
          split at isNext
          · have value := Option.some.inj isNext
            omega
          · exact (Option.some.inj isNext).symm
      subst same
      simp only [isHighSurrogate, isLowSurrogate, Bool.and_eq_true, decide_eq_true_eq]
      exact isPair

/-- The first unit of a code point that is not half of a pair is the point itself. -/
theorem unitsOfPoint_small {point : Nat} (small : point < 0x10000) :
    ∃ unit : CodeUnit, unitsOfPoint point = [unit] ∧ unit.val = point :=
  ⟨Fin.ofNat _ point, if_pos small, Nat.mod_eq_of_lt small⟩

/-- A code point of a supplementary plane is a pair. -/
theorem unitsOfPoint_large {point : Nat} (large : ¬ point < 0x10000) (range : point < 0x110000) :
    ∃ high low : CodeUnit, unitsOfPoint point = [high, low] ∧ isHighSurrogate high = true ∧
      isLowSurrogate low = true ∧ 0x10000 + (high.val - 0xD800) * 0x400 + (low.val - 0xDC00) = point := by
  have highValue : (Fin.ofNat 0x10000 (0xD800 + (point - 0x10000) / 0x400)).val =
      0xD800 + (point - 0x10000) / 0x400 := Nat.mod_eq_of_lt (by omega)
  have lowValue : (Fin.ofNat 0x10000 (0xDC00 + (point - 0x10000) % 0x400)).val =
      0xDC00 + (point - 0x10000) % 0x400 := Nat.mod_eq_of_lt (by omega)
  refine ⟨_, _, if_neg large, ?_, ?_, ?_⟩
  · simp only [isHighSurrogate, highValue, Bool.and_eq_true, decide_eq_true_eq]
    omega
  · simp only [isLowSurrogate, lowValue, Bool.and_eq_true, decide_eq_true_eq]
    omega
  · omega

theorem ofCodePoints_cons (point : Nat) (rest : List Nat) :
    ofCodePoints (point :: rest) = unitsOfPoint point ++ ofCodePoints rest := List.flatMap_cons

/-- A low surrogate at the front is a code point of its own. -/
private theorem low_first {point : Nat} {rest : List Nat} {unit : CodeUnit} (range : point < 0x110000)
    (first : (ofCodePoints (point :: rest)).head? = some unit) (low : isLowSurrogate unit = true) :
    unit.val = point := by
  rw [ofCodePoints_cons] at first
  by_cases small : point < 0x10000
  · obtain ⟨only, spelled, value⟩ := unitsOfPoint_small small
    rw [spelled] at first
    exact Option.some.inj first ▸ value
  · obtain ⟨high, other, spelled, isHigh, -⟩ := unitsOfPoint_large small range
    rw [spelled] at first
    have same : high = unit := Option.some.inj first
    subst same
    simp only [isHighSurrogate, isLowSurrogate, Bool.and_eq_true, decide_eq_true_eq] at isHigh low
    omega

/-- Code points that are spelled out are read back. -/
theorem codePoints_ofCodePoints {points : List Nat} (spelled : Spelled points) :
    codePoints (ofCodePoints points) = points := by
  induction points with
  | nil => rfl
  | cons point rest ih =>
    obtain ⟨range, chain⟩ := spelled
    have later : codePoints (ofCodePoints rest) = rest :=
      ih ⟨fun other member => range other (List.mem_cons_of_mem _ member), chain.tail⟩
    rw [ofCodePoints_cons]
    by_cases small : point < 0x10000
    · obtain ⟨unit, units, value⟩ := unitsOfPoint_small small
      rw [units, List.singleton_append]
      cases rest with
      | nil => exact congrArg (fun point => [point]) value
      | cons next rest =>
        cases front : ofCodePoints (next :: rest) with
        | nil =>
          rw [front] at later
          cases later
        | cons second tail =>
          have apart : ¬ (isHighSurrogate unit && isLowSurrogate second) = true := by
            intro pair
            simp only [Bool.and_eq_true] at pair
            have same := low_first (range next (by simp)) (by rw [front]; rfl) pair.2
            refine (List.isChain_cons_cons.mp chain).1 ?_
            simp only [isHighSurrogate, isLowSurrogate, Bool.and_eq_true, decide_eq_true_eq] at pair
            unfold Pair
            omega
          rw [front] at later
          rw [codePoints, if_neg apart, later, value]
    · obtain ⟨high, low, units, isHigh, isLow, value⟩ := unitsOfPoint_large small (range point List.mem_cons_self)
      rw [units]
      change codePoints (high :: low :: ofCodePoints rest) = _
      rw [codePoints, isHigh, isLow, Bool.and_self, if_pos rfl, value, later]

/-! ## Lower case -/

/-- The tables of Unicode: the lower case of a code point without conditions, and
the two properties that tell where a word ends. A lower case is its own, and the
mapping keeps to white space and to surrogates, which it leaves alone. -/
structure CaseTable where
  lower : Nat → List Nat
  cased : Nat → Bool
  caseIgnorable : Nat → Bool
  some : ∀ point, lower point ≠ []
  own : ∀ point, ∀ mapped ∈ lower point, lower mapped = [mapped] ∧ mapped ≠ 0x3A3
  finalSigma : lower 0x3C2 = [0x3C2]
  range : ∀ point < 0x110000, ∀ mapped ∈ lower point, mapped < 0x110000
  surrogate : ∀ point, isSurrogate point = true → lower point = [point]
  scalar : ∀ point, isSurrogate point = false → ∀ mapped ∈ lower point, isSurrogate mapped = false
  white : ∀ point, isWhiteSpace point = true → lower point = [point]
  black : ∀ point, isWhiteSpace point = false → ∀ mapped ∈ lower point, isWhiteSpace mapped = false

namespace CaseTable
variable (table : CaseTable)

/-- A letter comes before, and none comes after, with nothing between that counts. -/
def FinalSigma (before after : List Nat) : Prop :=
  (before.dropWhile table.caseIgnorable).head?.any table.cased = true ∧
    (after.dropWhile table.caseIgnorable).head?.any table.cased = false

instance (before after : List Nat) : Decidable (table.FinalSigma before after) :=
  inferInstanceAs (Decidable (_ ∧ _))

/-- The lower case of one code point. What is before it is given backwards. -/
def lowerAt (before : List Nat) (point : Nat) (after : List Nat) : List Nat :=
  if point = 0x3A3 ∧ table.FinalSigma before after then [0x3C2] else table.lower point

def lowerFrom (before : List Nat) : List Nat → List Nat
  | [] => []
  | point :: after => table.lowerAt before point after ++ lowerFrom (point :: before) after

/-- `String.prototype.toLowerCase`. -/
def toLowerCase (s : JsString) : JsString := ofCodePoints (table.lowerFrom [] (codePoints s))

variable {table}

/-- What is mapped to a code point is one, is its own lower case, and is white space
or a surrogate only if it was one. -/
theorem lowerAt_spec (before : List Nat) (point : Nat) (after : List Nat) :
    table.lowerAt before point after ≠ [] ∧
      ∀ mapped ∈ table.lowerAt before point after, table.lower mapped = [mapped] ∧ mapped ≠ 0x3A3 ∧
        (point < 0x110000 → mapped < 0x110000) ∧ (isSurrogate point = false → isSurrogate mapped = false) ∧
        (isWhiteSpace point = false → isWhiteSpace mapped = false) := by
  unfold lowerAt
  split
  · refine ⟨by simp, fun mapped member => ?_⟩
    rw [List.mem_singleton] at member
    subst member
    exact ⟨table.finalSigma, by decide, fun _ => by decide, fun _ => by decide, fun _ => by decide⟩
  · refine ⟨table.some point, fun mapped member => ?_⟩
    obtain ⟨own, notSigma⟩ := table.own point mapped member
    exact ⟨own, notSigma, fun range => table.range point range mapped member,
      fun scalar => table.scalar point scalar mapped member, fun black => table.black point black mapped member⟩

theorem lowerAt_surrogate {before : List Nat} {point : Nat} {after : List Nat} (surrogate : isSurrogate point = true) :
    table.lowerAt before point after = [point] := by
  rw [lowerAt, if_neg, table.surrogate point surrogate]
  rintro ⟨rfl, -⟩
  cases surrogate

/-- Code points that are their own lower cases stay. -/
theorem lowerFrom_own {before points : List Nat}
    (own : ∀ point ∈ points, table.lower point = [point] ∧ point ≠ 0x3A3) : table.lowerFrom before points = points := by
  induction points generalizing before with
  | nil => rfl
  | cons point rest ih =>
    obtain ⟨same, notSigma⟩ := own point List.mem_cons_self
    rw [lowerFrom, lowerAt, if_neg fun sigma => notSigma sigma.1, same,
      ih fun other member => own other (List.mem_cons_of_mem _ member), List.singleton_append]

theorem mem_lowerFrom {before points : List Nat} {mapped : Nat} (member : mapped ∈ table.lowerFrom before points) :
    ∃ earlier point after, point ∈ points ∧ mapped ∈ table.lowerAt earlier point after := by
  induction points generalizing before with
  | nil => cases member
  | cons point rest ih =>
    rcases List.mem_append.mp member with here | later
    · exact ⟨before, point, rest, List.mem_cons_self, here⟩
    · obtain ⟨earlier, other, after, inside, mapped⟩ := ih later
      exact ⟨earlier, other, after, List.mem_cons_of_mem _ inside, mapped⟩

theorem lowerFrom_ne_nil {before points : List Nat} (some : points ≠ []) : table.lowerFrom before points ≠ [] := by
  cases points with
  | nil => exact absurd rfl some
  | cons point rest => exact List.append_ne_nil_of_left_ne_nil (lowerAt_spec before point rest).1 _

/-- What comes first after the mapping is mapped from what came first. -/
theorem head_lowerFrom {before points : List Nat} {mapped : Nat}
    (first : mapped ∈ (table.lowerFrom before points).head?) :
    ∃ point after, point ∈ points.head? ∧ mapped ∈ table.lowerAt before point after := by
  cases points with
  | nil => cases first
  | cons point rest =>
    refine ⟨point, rest, rfl, ?_⟩
    rw [lowerFrom, List.head?_append_of_ne_nil _ (lowerAt_spec before point rest).1] at first
    exact List.mem_of_mem_head? first

/-- What comes last after the mapping is mapped from what came last. -/
theorem last_lowerFrom {before points : List Nat} {mapped : Nat}
    (last : mapped ∈ (table.lowerFrom before points).getLast?) :
    ∃ earlier point after, point ∈ points.getLast? ∧ mapped ∈ table.lowerAt earlier point after := by
  induction points generalizing before with
  | nil => cases last
  | cons point rest ih =>
    cases rest with
    | nil =>
      refine ⟨before, point, [], rfl, ?_⟩
      rw [lowerFrom, lowerFrom, List.append_nil] at last
      exact List.mem_of_mem_getLast? last
    | cons next rest =>
      rw [lowerFrom, List.getLast?_append_of_ne_nil _ (lowerFrom_ne_nil (by simp))] at last
      obtain ⟨earlier, other, after, isLast, inside⟩ := ih last
      exact ⟨earlier, other, after, by rw [List.getLast?_cons_cons]; exact isLast, inside⟩

/-- The mapping makes no pairs. -/
theorem spelled_lowerFrom {before points : List Nat} (spelled : Spelled points) :
    Spelled (table.lowerFrom before points) := by
  constructor
  · intro mapped member
    obtain ⟨earlier, point, after, inside, here⟩ := mem_lowerFrom member
    exact ((lowerAt_spec earlier point after).2 mapped here).2.2.1 (spelled.1 point inside)
  · obtain ⟨-, chain⟩ := spelled
    induction points generalizing before with
    | nil => exact .nil
    | cons point rest ih =>
      rw [lowerFrom, List.isChain_append]
      have scalars :
          isSurrogate point = false → ∀ mapped ∈ table.lowerAt before point rest, isSurrogate mapped = false :=
        fun scalar mapped member => ((lowerAt_spec before point rest).2 mapped member).2.2.2.1 scalar
      have notPair : ∀ {first second : Nat}, isSurrogate first = false → ¬ Pair first second := by
        intro first second scalar pair
        unfold Pair at pair
        simp only [isSurrogate, Bool.and_eq_false_iff, decide_eq_false_iff_not] at scalar
        omega
      cases surrogate : isSurrogate point with
      | false =>
        refine ⟨?_, ih chain.tail, fun last isLast next _ => ?_⟩
        · refine List.Pairwise.isChain (List.pairwise_of_forall_mem_list fun first member second _ => ?_)
          exact notPair (scalars surrogate first member)
        · exact notPair (scalars surrogate last (List.mem_of_mem_getLast? isLast))
      | true =>
        rw [lowerAt_surrogate surrogate]
        refine ⟨.singleton _, ih chain.tail, fun last isLast next isNext => ?_⟩
        cases isLast
        obtain ⟨other, after, isFirst, inside⟩ := head_lowerFrom isNext
        cases rest with
        | nil => cases isFirst
        | cons second rest =>
          cases isFirst
          intro pair
          cases half : isSurrogate other with
          | false =>
            have scalar := ((lowerAt_spec (point :: before) other after).2 next inside).2.2.2.1 half
            unfold Pair at pair
            simp only [isSurrogate, Bool.and_eq_false_iff, decide_eq_false_iff_not] at scalar
            omega
          | true =>
            rw [lowerAt_surrogate half, List.mem_singleton] at inside
            exact (List.isChain_cons_cons.mp chain).1 (inside ▸ pair)

/-- A lower case is its own. -/
theorem toLowerCase_toLowerCase (s : JsString) : table.toLowerCase (table.toLowerCase s) = table.toLowerCase s := by
  have own : ∀ point ∈ table.lowerFrom [] (codePoints s), table.lower point = [point] ∧ point ≠ 0x3A3 := by
    intro mapped member
    obtain ⟨earlier, point, after, -, here⟩ := mem_lowerFrom member
    obtain ⟨same, notSigma, -⟩ := (lowerAt_spec earlier point after).2 mapped here
    exact ⟨same, notSigma⟩
  have read : codePoints (table.toLowerCase s) = table.lowerFrom [] (codePoints s) :=
    codePoints_ofCodePoints (spelled_lowerFrom (spelled_codePoints s))
  rw [toLowerCase, read, lowerFrom_own own]
  rfl

/-! ## Lower case and white space -/

end CaseTable

theorem ofCodePoints_codePoints (s : JsString) : ofCodePoints (codePoints s) = s := by
  fun_induction codePoints s with
  | case1 => rfl
  | case2 unit =>
    obtain ⟨only, units, value⟩ := unitsOfPoint_small unit.isLt
    rw [ofCodePoints_cons, units, Fin.ext value]
    rfl
  | case3 first second rest pair ih =>
    have ranges := pair
    simp only [isHighSurrogate, isLowSurrogate, Bool.and_eq_true, decide_eq_true_eq] at ranges
    obtain ⟨high, low, units, isHigh, isLow, value⟩ :=
      unitsOfPoint_large (show ¬ 0x10000 + (first.val - 0xD800) * 0x400 + (second.val - 0xDC00) < 0x10000 by omega)
        (by omega)
    simp only [isHighSurrogate, isLowSurrogate, Bool.and_eq_true, decide_eq_true_eq] at isHigh isLow
    rw [ofCodePoints_cons, units, ih]
    have left : high = first := Fin.ext (by omega)
    have right : low = second := Fin.ext (by omega)
    rw [left, right]
    rfl
  | case4 first second rest apart ih =>
    obtain ⟨only, units, value⟩ := unitsOfPoint_small first.isLt
    rw [ofCodePoints_cons, units, Fin.ext value, ih]
    rfl

private theorem white_basic {point : Nat} (large : ¬ point < 0x10000) : isWhiteSpace point = false := by
  simp only [isWhiteSpace, List.mem_cons, List.not_mem_nil, or_false, Bool.or_eq_false_iff, decide_eq_false_iff_not,
    Bool.and_eq_false_iff]
  omega

/-- The units of a code point are white space exactly if it is. -/
theorem white_unit {point : Nat} {unit : CodeUnit} (range : point < 0x110000) (member : unit ∈ unitsOfPoint point) :
    isWhiteSpace unit.val = isWhiteSpace point := by
  by_cases small : point < 0x10000
  · obtain ⟨only, units, value⟩ := unitsOfPoint_small small
    rw [units, List.mem_singleton] at member
    rw [member, value]
  · obtain ⟨high, low, units, isHigh, isLow, -⟩ := unitsOfPoint_large small range
    have surrogate : 0xD800 ≤ unit.val ∧ unit.val ≤ 0xDFFF := by
      simp only [isHighSurrogate, isLowSurrogate, Bool.and_eq_true, decide_eq_true_eq] at isHigh isLow
      rw [units] at member
      simp only [List.mem_cons, List.not_mem_nil, or_false] at member
      rcases member with rfl | rfl <;> omega
    rw [white_basic small]
    simp only [isWhiteSpace, List.mem_cons, List.not_mem_nil, or_false, Bool.or_eq_false_iff,
      decide_eq_false_iff_not, Bool.and_eq_false_iff]
    omega

theorem unitsOfPoint_ne_nil (point : Nat) : unitsOfPoint point ≠ [] := by
  unfold unitsOfPoint
  split <;> simp

/-- There is no white space at the ends of some code points. -/
def TrimmedPoints (points : List Nat) : Prop :=
  (∀ point ∈ points.head?, isWhiteSpace point = false) ∧ ∀ point ∈ points.getLast?, isWhiteSpace point = false

theorem trimmed_ofCodePoints {points : List Nat} (range : ∀ point ∈ points, point < 0x110000) :
    Trimmed (ofCodePoints points) ↔ TrimmedPoints points := by
  refine and_congr ?_ ?_
  · cases points with
    | nil => simp [ofCodePoints]
    | cons point rest =>
      obtain ⟨unit, more, units⟩ := List.exists_cons_of_ne_nil (unitsOfPoint_ne_nil point)
      have same := white_unit (range point List.mem_cons_self) (show unit ∈ unitsOfPoint point by simp [units])
      rw [ofCodePoints_cons, units]
      simp [same]
  · rcases List.eq_nil_or_concat' points with rfl | ⟨front, point, rfl⟩
    · simp [ofCodePoints]
    · obtain ⟨more, unit, units⟩ :=
        (List.eq_nil_or_concat' (unitsOfPoint point)).resolve_left (unitsOfPoint_ne_nil point)
      have same := white_unit (range point (by simp)) (show unit ∈ unitsOfPoint point by simp [units])
      have whole : ofCodePoints (front ++ [point]) = ofCodePoints front ++ more ++ [unit] := by
        rw [ofCodePoints, List.flatMap_append, List.flatMap_singleton, units, List.append_assoc]
        rfl
      rw [whole]
      simp [same]

namespace CaseTable
variable {table : CaseTable}

/-- A text without white space at its ends has none there in lower case. -/
theorem trimmed_toLowerCase {s : JsString} (trimmed : Trimmed s) : Trimmed (table.toLowerCase s) := by
  have spelled := spelled_codePoints s
  rw [← ofCodePoints_codePoints s, trimmed_ofCodePoints spelled.1] at trimmed
  rw [toLowerCase, trimmed_ofCodePoints (spelled_lowerFrom spelled).1]
  constructor
  · intro mapped first
    obtain ⟨point, after, isFirst, inside⟩ := head_lowerFrom first
    exact ((lowerAt_spec [] point after).2 mapped inside).2.2.2.2 (trimmed.1 point isFirst)
  · intro mapped last
    obtain ⟨earlier, point, after, isLast, inside⟩ := last_lowerFrom last
    exact ((lowerAt_spec earlier point after).2 mapped inside).2.2.2.2 (trimmed.2 point isLast)

/-- The text `s.trim().toLowerCase()` is left alone by both. -/
theorem fold_fold (s : JsString) :
    table.toLowerCase (trim (table.toLowerCase (trim s))) = table.toLowerCase (trim s) := by
  rw [trim_of_trimmed (trimmed_toLowerCase (trimmed_trim s)), toLowerCase_toLowerCase]

end CaseTable

/-! ## A table of the basic letters -/

def basicLower (point : Nat) : Nat :=
  if 0x41 ≤ point ∧ point ≤ 0x5A then point + 0x20 else if point = 0x3A3 then 0x3C3 else point

private theorem basicLower_cases (point : Nat) :
    (0x41 ≤ point ∧ point ≤ 0x5A ∧ basicLower point = point + 0x20) ∨ (point = 0x3A3 ∧ basicLower point = 0x3C3) ∨
      (¬ (0x41 ≤ point ∧ point ≤ 0x5A) ∧ point ≠ 0x3A3 ∧ basicLower point = point) := by
  unfold basicLower
  split
  · rename_i upper
    exact .inl ⟨upper.1, upper.2, rfl⟩
  · rename_i other
    split
    · rename_i sigma
      exact .inr (.inl ⟨sigma, rfl⟩)
    · rename_i notSigma
      exact .inr (.inr ⟨other, notSigma, rfl⟩)

private theorem basicLower_own (point : Nat) :
    basicLower (basicLower point) = basicLower point ∧ basicLower point ≠ 0x3A3 := by
  rcases basicLower_cases point with ⟨low, high, same⟩ | ⟨-, same⟩ | ⟨outside, notSigma, same⟩
  · rw [same]
    refine ⟨?_, by omega⟩
    rw [basicLower, if_neg (by omega), if_neg (by omega)]
  · rw [same]
    exact ⟨rfl, by omega⟩
  · rw [same]
    exact ⟨same, notSigma⟩

/-- The letters of English and the sigma, which are right on texts of them. -/
def basicTable : CaseTable where
  lower point := [basicLower point]
  cased point := (0x41 ≤ point && point ≤ 0x5A) || (0x61 ≤ point && point ≤ 0x7A) || point = 0x3A3 || point = 0x3C3
  caseIgnorable point := point = 0x27
  some point := List.cons_ne_nil _ _
  own point mapped member := by
    rw [List.mem_singleton] at member
    subst member
    exact ⟨congrArg (fun point => [point]) (basicLower_own point).1, (basicLower_own point).2⟩
  finalSigma := rfl
  range point small mapped member := by
    rw [List.mem_singleton] at member
    rcases basicLower_cases point with ⟨low, high, same⟩ | ⟨-, same⟩ | ⟨-, -, same⟩ <;> omega
  surrogate point surrogate := by
    simp only [isSurrogate, Bool.and_eq_true, decide_eq_true_eq] at surrogate
    rcases basicLower_cases point with ⟨low, high, same⟩ | ⟨sigma, same⟩ | ⟨-, -, same⟩
    · omega
    · omega
    · rw [same]
  scalar point scalar mapped member := by
    rw [List.mem_singleton] at member
    simp only [isSurrogate, Bool.and_eq_false_iff, decide_eq_false_iff_not] at scalar ⊢
    rcases basicLower_cases point with ⟨low, high, same⟩ | ⟨sigma, same⟩ | ⟨-, -, same⟩ <;> omega
  white point white := by
    rcases basicLower_cases point with ⟨low, high, same⟩ | ⟨sigma, same⟩ | ⟨-, -, same⟩
    · simp only [isWhiteSpace, List.mem_cons, List.not_mem_nil, or_false, Bool.or_eq_true, decide_eq_true_eq,
        Bool.and_eq_true] at white
      omega
    · subst sigma
      cases white
    · rw [same]
  black point black mapped member := by
    rw [List.mem_singleton] at member
    rcases basicLower_cases point with ⟨low, high, same⟩ | ⟨sigma, same⟩ | ⟨-, -, same⟩
    · simp only [isWhiteSpace, List.mem_cons, List.not_mem_nil, or_false, Bool.or_eq_false_iff,
        decide_eq_false_iff_not, Bool.and_eq_false_iff]
      omega
    · rw [member, same]
      rfl
    · rw [member, same]
      exact black

end Js
