import RemoteSqlAgent.JsCase
import RemoteSqlAgent.JsDigits
import RemoteSqlAgent.JsRegExp

/-! Regular expressions as they are written, without the flag `u`. What one matches is every
way to match it, in the order in which the engine tries them. A repeat is over a class of
units, so all its ways are known at once. -/
namespace Js

inductive Regex where
  | empty
  | single (accepts : CodeUnit → Bool)
  | sequence (first second : Regex)
  | either (first second : Regex)
  | repeated (greedy : Bool) (least : Nat) (most : Option Nat) (accepts : CodeUnit → Bool)
  | optional (body : Regex)
  | group (number : Nat) (body : Regex)
  /-- An assertion that takes nothing. -/
  | edge (holds : JsString → Nat → Bool)
  /-- `(?=…)` if it is expected, `(?!…)` if not. -/
  | ahead (expected : Bool) (body : Regex)

/-- `MatchState`. -/
structure MatchState where
  index : Nat
  groups : List (Option JsString)

namespace Regex

/-- How many units a repeat can take. -/
def run (most : Option Nat) (accepts : CodeUnit → Bool) (rest : JsString) : Nat :=
  match most with
  | some most => min most (rest.takeWhile accepts).length
  | none => (rest.takeWhile accepts).length

/-- The counts a repeat tries, in order. -/
def counts (greedy : Bool) (least run : Nat) : List Nat :=
  if greedy then (List.range' least (run + 1 - least)).reverse else List.range' least (run + 1 - least)

/-- The ways to go on from a state, in the order they are tried. -/
def ways (s : JsString) : Regex → MatchState → List MatchState
  | empty, state => [state]
  | single accepts, state =>
    match s[state.index]? with
    | some unit => if accepts unit then [{ state with index := state.index + 1 }] else []
    | none => []
  | sequence first second, state => (ways s first state).flatMap (ways s second)
  | either first second, state => ways s first state ++ ways s second state
  | repeated greedy least most accepts, state =>
    (counts greedy least (run most accepts (s.drop state.index))).map fun count =>
      { state with index := state.index + count }
  | optional body, state =>
    -- An iteration that took nothing is not an iteration.
    ((ways s body state).filter fun after => after.index ≠ state.index) ++ [state]
  | group number body, state =>
    (ways s body state).map fun after =>
      { after with groups := after.groups.set (number - 1) (some (slice s state.index after.index)) }
  | edge holds, state => if holds s state.index then [state] else []
  | ahead true body, state => (ways s body state).take 1 |>.map fun after => { after with index := state.index }
  | ahead false body, state => if (ways s body state).isEmpty then [state] else []

/-- The fewest units a match has. -/
def width : Regex → Nat
  | empty => 0
  | single _ => 1
  | sequence first second => first.width + second.width
  | either first second => min first.width second.width
  | repeated _ least _ _ => least
  | optional _ => 0
  | group _ body => body.width
  | edge _ => 0
  | ahead _ _ => 0

theorem run_le (most : Option Nat) (accepts : CodeUnit → Bool) (rest : JsString) :
    run most accepts rest ≤ rest.length := by
  have taken : (rest.takeWhile accepts).length ≤ rest.length := (List.takeWhile_sublist _).length_le
  cases most with
  | none => exact taken
  | some most => exact (Nat.min_le_right ..).trans taken

theorem mem_counts {greedy : Bool} {least run count : Nat} :
    count ∈ counts greedy least run ↔ least ≤ count ∧ count ≤ run := by
  unfold counts
  split <;> simp only [List.mem_reverse, List.mem_range'_1] <;> omega

/-- A match takes at least the width, and never runs past the end. -/
theorem forward {s : JsString} (regex : Regex) {state after : MatchState} (way : after ∈ ways s regex state)
    (within : state.index ≤ s.length) : state.index + regex.width ≤ after.index ∧ after.index ≤ s.length := by
  induction regex generalizing state after with
  | empty =>
    rw [ways, List.mem_singleton] at way
    subst way
    exact ⟨le_refl _, within⟩
  | single accepts =>
    rw [ways] at way
    split at way
    next unit here =>
      have bound := (List.getElem?_eq_some_iff.mp here).1
      split at way
      next accepted =>
        rw [List.mem_singleton] at way
        subst way
        exact ⟨le_refl _, bound⟩
      next refused => cases way
    next => cases way
  | sequence first second firstForward secondForward =>
    rw [ways, List.mem_flatMap] at way
    obtain ⟨middle, firstWay, secondWay⟩ := way
    have one := firstForward firstWay within
    have two := secondForward secondWay one.2
    simp only [width]
    omega
  | either first second firstForward secondForward =>
    rw [ways, List.mem_append] at way
    simp only [width]
    cases way with
    | inl way =>
      have := firstForward way within
      omega
    | inr way =>
      have := secondForward way within
      omega
  | repeated greedy least most accepts =>
    rw [ways, List.mem_map] at way
    obtain ⟨count, counted, rfl⟩ := way
    have bounds := mem_counts.mp counted
    have taken := run_le most accepts (s.drop state.index)
    rw [List.length_drop] at taken
    simp only [width]
    omega
  | optional body bodyForward =>
    rw [ways, List.mem_append, List.mem_filter, List.mem_singleton] at way
    simp only [width]
    cases way with
    | inl way =>
      have := bodyForward way.1 within
      omega
    | inr same =>
      subst same
      omega
  | group number body bodyForward =>
    rw [ways, List.mem_map] at way
    obtain ⟨inner, innerWay, rfl⟩ := way
    have bounds := bodyForward innerWay within
    exact bounds
  | edge holds =>
    rw [ways] at way
    split at way
    next =>
      rw [List.mem_singleton] at way
      subst way
      exact ⟨le_refl _, within⟩
    next => cases way
  | ahead expected body _ =>
    cases expected with
    | true =>
      rw [ways, List.mem_map] at way
      obtain ⟨inner, _, rfl⟩ := way
      exact ⟨le_refl _, within⟩
    | false =>
      rw [ways] at way
      split at way
      next =>
        rw [List.mem_singleton] at way
        subst way
        exact ⟨le_refl _, within⟩
      next => cases way

/-- The first way to match at an index. -/
def matchAt (groups : Nat) (regex : Regex) (s : JsString) (index : Nat) : Option (Nat × List (Option JsString)) :=
  if index ≤ s.length then
    (ways s regex ⟨index, List.replicate groups none⟩).head?.map fun after => (after.index, after.groups)
  else none

theorem matchAt_forward {groups : Nat} {regex : Regex} {s : JsString} {index stop : Nat}
    {captured : List (Option JsString)} (matched : matchAt groups regex s index = some (stop, captured)) :
    index + regex.width ≤ stop ∧ stop ≤ s.length := by
  unfold matchAt at matched
  split at matched
  next within =>
    obtain ⟨after, first, pair⟩ := Option.map_eq_some_iff.mp matched
    have bounds := forward regex (List.mem_of_mem_head? first) within
    cases pair
    exact bounds
  next => cases matched

theorem matchAt_bounds {groups : Nat} {regex : Regex} {s : JsString} {index stop : Nat}
    {captured : List (Option JsString)} (matched : matchAt groups regex s index = some (stop, captured)) :
    index ≤ stop ∧ stop ≤ s.length := by
  have := matchAt_forward matched
  omega

/-- The expression compiled, with this many groups. -/
def compiled (groups : Nat) (regex : Regex) : Pattern where
  unicode := false
  matchAt := regex.matchAt groups
  forward := matchAt_bounds

/-! ## Writing them -/

/-- `Canonicalize` with the flag `i`, on ASCII: without `u` it takes nothing else there. -/
def canonicalize (unit : CodeUnit) : CodeUnit :=
  if 0x61 ≤ unit.val ∧ unit.val ≤ 0x7A then unit - 0x20 else unit

/-- A text under the flag `i`. -/
def literal (text : String) : Regex :=
  (js text).foldr (fun letter rest => sequence (single fun unit => canonicalize unit == canonicalize letter) rest) empty

/-- One expression after another. -/
def all (parts : List Regex) : Regex := parts.foldr sequence empty

/-- `[…]` -/
def oneOf (text : String) (unit : CodeUnit) : Bool := (js text).contains unit

/-- `\s` -/
def isSpace (unit : CodeUnit) : Bool := isWhiteSpace unit.val

/-- `\w` -/
def isWord (unit : CodeUnit) : Bool :=
  isDigit unit || 0x41 ≤ unit.val && unit.val ≤ 0x5A || 0x61 ≤ unit.val && unit.val ≤ 0x7A || unit.val = 0x5F

/-- `LineTerminator`. -/
def isLineTerminator (unit : CodeUnit) : Bool := unit.val ∈ [0x0A, 0x0D, 0x2028, 0x2029]

/-- `*` -/
def star (accepts : CodeUnit → Bool) : Regex := repeated true 0 none accepts

/-- `+` -/
def plus (accepts : CodeUnit → Bool) : Regex := repeated true 1 none accepts

/-- The unit before an index. -/
def before (s : JsString) (index : Nat) : Option CodeUnit := if index = 0 then none else s[index - 1]?

/-- `\b` -/
def wordBoundary : Regex :=
  edge fun s index => (before s index).any isWord != s[index]?.any isWord

/-- `^` -/
def inputStart : Regex := edge fun _ index => index = 0

/-- `$` -/
def inputEnd : Regex := edge fun s index => index = s.length

/-- `^` under the flag `m`. -/
def lineStart : Regex := edge fun s index => (before s index).all isLineTerminator

/-- `$` under the flag `m`. -/
def lineEnd : Regex := edge fun s index => s[index]?.all isLineTerminator

end Regex

/-! ## Loops over `exec` -/

/-- A search never ends where it began if no match is empty. -/
theorem Regex.search_wide {groups : Nat} {regex : Regex} {s : JsString} {index : Nat} {found : Found}
    (searched : (regex.compiled groups).search s index = some found) :
    found.index + regex.width ≤ found.stop := by
  induction index using Pattern.search.induct (regex.compiled groups) s with
  | case1 index beyond =>
    rw [Pattern.search, if_pos beyond] at searched
    cases searched
  | case2 index within stop captured here =>
    rw [Pattern.search, if_neg within, here] at searched
    cases searched
    exact (matchAt_forward here).1
  | case3 index within here later ih =>
    rw [Pattern.search, if_neg within, here] at searched
    exact ih searched

/-- An expression with the flag `g` no match of which is empty, so that a loop over `exec`
comes to an end. -/
structure GlobalRegex where
  groups : Nat
  regex : Regex
  wide : 0 < regex.width

/-- `while ((match = pattern.exec(s)) !== null)`, from `lastIndex` on. -/
def GlobalRegex.execFrom (pattern : GlobalRegex) (s : JsString) (lastIndex : Nat) : List Found :=
  match _searched : (pattern.regex.compiled pattern.groups).search s lastIndex with
  | none => []
  | some found => found :: pattern.execFrom s found.stop
termination_by s.length + 1 - lastIndex
decreasing_by
  have ahead := Pattern.search_forward _searched
  have wide := Regex.search_wide _searched
  have some := pattern.wide
  omega

end Js
