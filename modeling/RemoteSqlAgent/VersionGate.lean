import RemoteSqlAgent.JsParseInt
import RemoteSqlAgent.LexComparison
import Mathlib.Data.Int.ConditionallyCompleteOrder
import Mathlib.Data.List.GetD
import Mathlib.Order.ConditionallyCompleteLattice.Basic

/-! The hub refuses a worker below the minimum version. Versions are ordered by their parts,
and what is not a part of one counts as zero. -/
namespace RemoteSqlAgent
open Js LexComparison

structure VersionCheck where
  allowed : Bool
  reason : Option JsString
deriving DecidableEq

def dot : CodeUnit := 0x2E

/-- The parts of a version, up to the first hyphen. -/
def parseVersion (v : JsString) : List Int :=
  (((v.splitOn minusSign).headD []).splitOn dot).map fun part => (parseInt part).finiteOrZero

/-- Compare two dotted numeric versions. Pre-release suffixes are ignored. -/
def compareVersions (a b : JsString) : Int :=
  let left := parseVersion a
  let right := parseVersion b
  let length := max left.length right.length
  firstDifference (left.getD · 0) (right.getD · 0) (List.range length)

def checkWorkerVersion (reportedVersion : JsString) (minimumVersion : Option JsString) : VersionCheck :=
  let minimum := minimumVersion.getD []
  if minimum = [] then ⟨true, none⟩
  -- a worker that will not say what it is cannot be assessed
  else if reportedVersion = [] then
    ⟨false, some (js "This control plane requires worker version " ++ minimum ++
      js " or newer, and this worker did not report a version.")⟩
  else if compareVersions reportedVersion minimum < 0 then
    ⟨false, some (js "Worker version " ++ reportedVersion ++
      js " is older than the minimum this control plane accepts (" ++ minimum ++
      js "). Upgrade the worker on this host; it will reconnect on its own.")⟩
  else ⟨true, none⟩

/-- A refusal says why, and only a refusal does. -/
theorem checkWorkerVersion_reason (reportedVersion : JsString) (minimumVersion : Option JsString) :
    (checkWorkerVersion reportedVersion minimumVersion).allowed = true ↔
      (checkWorkerVersion reportedVersion minimumVersion).reason = none := by
  simp only [checkWorkerVersion]
  repeat' split
  all_goals simp

/-! ## Versions as sequences -/

/-- A version has every part, from some place on 0. The order is that of the first difference. -/
def version (v : JsString) : Lex (Nat → Int) := toLex fun i => (parseVersion v).getD i 0

theorem compared_versions (a b : JsString) : Compared (version a) (version b) (compareVersions a b) := by
  rw [compareVersions, List.range_eq_range']
  apply compared_firstDifference
  · intro i none_
    exact absurd none_ (Nat.not_lt_zero i)
  · intro i beyond
    rw [List.getD_eq_default _ _ (by omega), List.getD_eq_default _ _ (by omega)]

theorem compareVersions_nonpos {a b : JsString} : compareVersions a b ≤ 0 ↔ version a ≤ version b :=
  (compared_versions a b).nonpos_iff

theorem compareVersions_neg {a b : JsString} : compareVersions a b < 0 ↔ version a < version b :=
  (compared_versions a b).neg_iff

/-- No part is below zero: the hyphen that could make it so ends the version. -/
theorem parseVersion_nonneg {v : JsString} {part : Int} (member : part ∈ parseVersion v) : 0 ≤ part := by
  obtain ⟨text, piece, rfl⟩ := List.mem_map.mp member
  apply parseInt_nonneg
  intro hyphen
  have inside := (mem_splitOn piece).2 _ hyphen
  obtain ⟨first, rest, split⟩ := List.exists_cons_of_ne_nil (List.splitOn_ne_nil minusSign v)
  rw [split, List.headD_cons] at inside
  exact (mem_splitOn (split ▸ List.mem_cons_self)).1 inside

/-- The empty text is the least version there is. -/
theorem version_nil_le (v : JsString) : version [] ≤ version v := by
  apply Pi.toLex_monotone
  intro i
  have zero : (parseVersion []).getD i 0 = 0 := by
    rcases i with _ | i <;> rfl
  show (parseVersion []).getD i 0 ≤ (parseVersion v).getD i 0
  rw [zero]
  rcases Nat.lt_or_ge i (parseVersion v).length with inside | beyond
  · rw [List.getD_eq_getElem _ _ inside]
    exact parseVersion_nonneg (List.getElem_mem inside)
  · rw [List.getD_eq_default _ _ beyond]

/-- Who is admitted. -/
theorem checkWorkerVersion_allowed {reportedVersion : JsString} {minimumVersion : Option JsString} :
    (checkWorkerVersion reportedVersion minimumVersion).allowed = true ↔
      minimumVersion.getD [] = [] ∨
        reportedVersion ≠ [] ∧ version (minimumVersion.getD []) ≤ version reportedVersion := by
  simp only [checkWorkerVersion]
  split
  next none_ => simp [none_]
  next gated =>
    split
    next silent => simp [gated, silent]
    next reported =>
      split
      next older =>
        have below : ¬ version (minimumVersion.getD []) ≤ version reportedVersion :=
          not_le.mpr (compareVersions_neg.mp older)
        simp [gated, below]
      next current => simp [gated, reported, not_lt.mp (mt compareVersions_neg.mpr current)]

/-- The comparison is a total preorder, and the gate follows it for workers that report a version. -/
theorem versions_preordered :
    (∀ a : JsString, compareVersions a a = 0) ∧
      (∀ a b : JsString, compareVersions a b = -compareVersions b a) ∧
      (∀ a b c : JsString, compareVersions a b ≤ 0 → compareVersions b c ≤ 0 → compareVersions a c ≤ 0) ∧
      (∀ (minimum : Option JsString) (v w : JsString), v ≠ [] → w ≠ [] →
        (checkWorkerVersion v minimum).allowed = true → compareVersions v w ≤ 0 →
          (checkWorkerVersion w minimum).allowed = true) ∧
      (∀ (minimum : Option JsString) (raised reported : JsString),
        compareVersions (minimum.getD []) raised < 0 ∨
          compareVersions (minimum.getD []) raised = 0 ∧ raised ≠ [] →
        (checkWorkerVersion reported minimum).allowed = false →
          (checkWorkerVersion reported (some raised)).allowed = false) := by
  have reversed : ∀ a b : JsString, compareVersions a b = -compareVersions b a := fun a b =>
    (compared_versions a b).eq_neg (compared_versions b a)
  refine ⟨?_, reversed, ?_, ?_, ?_⟩
  · intro a
    have self := reversed a a
    omega
  · intro a b c
    simp only [compareVersions_nonpos]
    exact le_trans
  · intro minimum v w _ reported admitted ordered
    rw [checkWorkerVersion_allowed] at admitted ⊢
    rcases admitted with ungated | ⟨_, above⟩
    · exact .inl ungated
    · exact .inr ⟨reported, above.trans (compareVersions_nonpos.mp ordered)⟩
  · intro minimum raised reported raises refused
    have above : version (minimum.getD []) ≤ version raised :=
      compareVersions_nonpos.mp (by omega)
    have gated : raised ≠ [] := by
      rcases raises with strictly | ⟨_, gated⟩
      · rintro rfl
        exact not_le.mpr (compareVersions_neg.mp strictly) (version_nil_le _)
      · exact gated
    rw [← Bool.not_eq_true, checkWorkerVersion_allowed] at refused ⊢
    rintro (ungated | ⟨reports, admitted⟩)
    · exact gated ungated
    · exact refused (.inr ⟨reports, above.trans admitted⟩)

/-- The empty version is no older than `0`, but a worker has to report one. -/
theorem empty_version_refused :
    ¬ ∀ (minimum : Option JsString) (v w : JsString), v ≠ [] → (checkWorkerVersion v minimum).allowed = true →
      compareVersions v w ≤ 0 → (checkWorkerVersion w minimum).allowed = true := by
  intro admits
  have refused : (checkWorkerVersion [] (some (js "0"))).allowed = false := by decide
  have admitted := admits (some (js "0")) (js "0") [] (by decide) (by decide) (by decide)
  rw [refused] at admitted
  cases admitted

/-! ## Versions as they are written -/

/-- `1.10.0` -/
def dotted (parts : List Nat) : JsString := [dot].intercalate (parts.map digits)

theorem hyphen_not_mem_dotted (parts : List Nat) : minusSign ∉ dotted parts := by
  have numeral : ∀ part : Nat, minusSign ∉ digits part := by
    intro part member
    cases digits_are_digits member
  induction parts with
  | nil => exact List.not_mem_nil
  | cons part later ih =>
    cases later with
    | nil => simpa [dotted] using numeral part
    | cons next later =>
      intro member
      rw [dotted, List.map_cons, List.map_cons, List.intercalate_cons_cons] at member
      rcases List.mem_append.mp member with before | after
      · rcases List.mem_append.mp before with inside | separator
        · exact numeral part inside
        · cases List.mem_singleton.mp separator
      · exact ih after

/-- The parts of a version are read as they are written. -/
theorem parseVersion_dotted {parts : List Nat} (some_ : parts ≠ []) (exact : ∀ part ∈ parts, part < 2 ^ 53) :
    parseVersion (dotted parts) = parts.map Int.ofNat := by
  have pieces : (dotted parts).splitOn dot = parts.map digits := by
    apply List.splitOn_intercalate
    · intro piece member
      obtain ⟨part, _, rfl⟩ := List.mem_map.mp member
      intro inside
      cases digits_are_digits inside
    · simpa using some_
  rw [parseVersion, List.splitOn_eq_singleton (hyphen_not_mem_dotted parts), List.headD_cons, pieces, List.map_map]
  apply List.map_congr_left
  intro part member
  rw [Function.comp_apply, parseInt_digits (exact part member)]
  rfl

example : compareVersions (js "1.10.0") (js "1.9.0-rc.1") = 1 := by decide

end RemoteSqlAgent
