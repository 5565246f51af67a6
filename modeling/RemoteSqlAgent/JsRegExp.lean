import RemoteSqlAgent.JsText

/-! Regular expression objects. A global one keeps where its next search starts, so what it
answers can depend on what it was asked before. -/
namespace Js

/-- A match: where it starts, where it ends, and what its groups took. -/
structure Found where
  index : Nat
  stop : Nat
  groups : List (Option JsString)
deriving DecidableEq

/-- A compiled pattern. -/
structure Pattern where
  /-- The flag `u`: a search never starts inside a surrogate pair. -/
  unicode : Bool
  /-- The end of the match that starts at an index, if one does, and its groups. -/
  matchAt : JsString → Nat → Option (Nat × List (Option JsString))
  forward : ∀ {s index stop groups}, matchAt s index = some (stop, groups) → index ≤ stop ∧ stop ≤ s.length

/-- `AdvanceStringIndex`. -/
def advanceStringIndex (unicode : Bool) (s : JsString) (index : Nat) : Nat :=
  match unicode, s[index]?, s[index + 1]? with
  | true, some first, some second => if isHighSurrogate first && isLowSurrogate second then index + 2 else index + 1
  | _, _, _ => index + 1

theorem lt_advanceStringIndex (unicode : Bool) (s : JsString) (index : Nat) :
    index < advanceStringIndex unicode s index := by
  unfold advanceStringIndex
  split
  · split <;> omega
  · omega

namespace Pattern

/-- The first match at or after an index. -/
def search (pattern : Pattern) (s : JsString) (index : Nat) : Option Found :=
  if s.length < index then none
  else
    match pattern.matchAt s index with
    | some (stop, groups) => some ⟨index, stop, groups⟩
    | none =>
      have := lt_advanceStringIndex pattern.unicode s index
      search pattern s (advanceStringIndex pattern.unicode s index)
termination_by s.length + 1 - index

theorem search_forward {pattern : Pattern} {s : JsString} {index : Nat} {found : Found}
    (searched : pattern.search s index = some found) :
    index ≤ found.index ∧ found.index ≤ found.stop ∧ found.stop ≤ s.length := by
  induction index using search.induct pattern s with
  | case1 index beyond =>
    rw [search, if_pos beyond] at searched
    cases searched
  | case2 index within stop groups here =>
    rw [search, if_neg within, here] at searched
    cases searched
    exact ⟨le_refl _, pattern.forward here⟩
  | case3 index within here later ih =>
    rw [search, if_neg within, here] at searched
    have ahead := ih searched
    exact ⟨by omega, ahead.2⟩

/-- Where a search goes on after a match. After an empty one it steps on. -/
def resume (pattern : Pattern) (s : JsString) (found : Found) : Nat :=
  if found.stop = found.index then advanceStringIndex pattern.unicode s found.stop else found.stop

theorem lt_resume {pattern : Pattern} {s : JsString} {found : Found} (forward : found.index ≤ found.stop) :
    found.index < pattern.resume s found := by
  unfold resume
  split
  next empty => exact Nat.lt_of_le_of_lt forward (lt_advanceStringIndex ..)
  next some => omega

/-- The matches at or after an index, each from where the last one ended. -/
def matchesFrom (pattern : Pattern) (s : JsString) (index : Nat) : List Found :=
  match _searched : pattern.search s index with
  | none => []
  | some found => found :: matchesFrom pattern s (pattern.resume s found)
termination_by s.length + 1 - index
decreasing_by
  have ahead := search_forward _searched
  have later : found.index < pattern.resume s found := lt_resume ahead.2.1
  omega

/-- Whether there is a match anywhere. -/
def occursIn (pattern : Pattern) (s : JsString) : Bool := (pattern.search s 0).isSome

end Pattern

/-- A `RegExp` with the flag `g`. -/
structure RegExp where
  pattern : Pattern
  lastIndex : Nat

namespace RegExp

/-- `regex.lastIndex = index`. -/
def setLastIndex (regex : RegExp) (index : Nat) : RegExp := { regex with lastIndex := index }

@[simp] theorem setLastIndex_pattern (regex : RegExp) (index : Nat) :
    (regex.setLastIndex index).pattern = regex.pattern := rfl

/-- `RegExp.prototype.exec`. -/
def exec (regex : RegExp) (s : JsString) : Option Found × RegExp :=
  match regex.pattern.search s regex.lastIndex with
  | some found => (some found, regex.setLastIndex found.stop)
  | none => (none, regex.setLastIndex 0)

@[simp] theorem exec_found (regex : RegExp) (s : JsString) :
    (regex.exec s).1 = regex.pattern.search s regex.lastIndex := by
  unfold exec
  split
  next found searched => exact searched.symm
  next searched => exact searched.symm

@[simp] theorem exec_pattern (regex : RegExp) (s : JsString) : (regex.exec s).2.pattern = regex.pattern := by
  unfold exec
  split <;> rfl

/-- `RegExp.prototype.test`. -/
def test (regex : RegExp) (s : JsString) : Bool × RegExp :=
  let (found, regex) := regex.exec s
  (found.isSome, regex)

@[simp] theorem test_pattern (regex : RegExp) (s : JsString) : (regex.test s).2.pattern = regex.pattern :=
  exec_pattern regex s

/-- From the start, a test tells whether there is a match. -/
@[simp] theorem test_setLastIndex_zero (regex : RegExp) (s : JsString) :
    ((regex.setLastIndex 0).test s).1 = regex.pattern.occursIn s := by
  simp [test, Pattern.occursIn, setLastIndex]

/-- `exec` until it finds nothing more, as `replace` calls it. -/
def execAll (regex : RegExp) (s : JsString) : List Found × RegExp :=
  match _searched : regex.exec s with
  | (none, regex) => ([], regex)
  | (some found, after) =>
    let (later, last) := execAll (after.setLastIndex (after.pattern.resume s found)) s
    (found :: later, last)
termination_by s.length + 1 - regex.lastIndex
decreasing_by
  have searched : regex.pattern.search s regex.lastIndex = some found := by rw [← exec_found, _searched]
  have ahead := Pattern.search_forward searched
  have later : found.index < after.pattern.resume s found := Pattern.lt_resume ahead.2.1
  simp only [setLastIndex]
  omega

theorem execAll_eq (regex : RegExp) (s : JsString) :
    regex.execAll s = (regex.pattern.matchesFrom s regex.lastIndex, regex.setLastIndex 0) := by
  induction regex using execAll.induct s with
  | case1 regex after searched =>
    have none := congrArg Prod.fst searched
    rw [exec_found] at none
    rw [execAll, searched, Pattern.matchesFrom, none]
    simp only [exec, none] at searched
    rw [← (Prod.mk.inj searched).2]
  | case2 regex found after searched later last parts ih =>
    have some := congrArg Prod.fst searched
    rw [exec_found] at some
    rw [execAll, searched, Pattern.matchesFrom, some]
    simp only [ih]
    simp only [exec, some] at searched
    rw [← (Prod.mk.inj searched).2]
    rfl

/-- The text from an index on with a replacement for each match. -/
def substitute (s replacement : JsString) : Nat → List Found → JsString
  | index, [] => s.drop index
  | index, found :: later =>
    if index ≤ found.index then
      (s.drop index).take (found.index - index) ++ replacement ++ substitute s replacement found.stop later
    else substitute s replacement index later

/-- `String.prototype.replace` with a replacement that has no `$`. -/
def replace (regex : RegExp) (s replacement : JsString) : JsString × RegExp :=
  let (found, regex) := (regex.setLastIndex 0).execAll s
  (substitute s replacement 0 found, regex)

end RegExp

/-- A text with each match replaced. -/
def Pattern.replaced (pattern : Pattern) (s replacement : JsString) : JsString :=
  RegExp.substitute s replacement 0 (pattern.matchesFrom s 0)

/-- Where a regular expression stands is nothing to `replace`, which leaves it at the start. -/
theorem RegExp.replace_eq (regex : RegExp) (s replacement : JsString) :
    regex.replace s replacement = (regex.pattern.replaced s replacement, regex.setLastIndex 0) := by
  rw [replace, execAll_eq]
  rfl

end Js
