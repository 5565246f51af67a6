import Mathlib.Data.List.Sort
import Mathlib.Data.List.Nodup
import Mathlib.Data.Rat.Floor

/-! `Array.prototype.sort` and the numbers an array method takes as a position.
Sorting is stable, so a comparator that tells all elements apart makes the
result a function of which elements there are, not of the order they came in. -/
namespace Js

/-- What a comparator must satisfy for sorting to be specified. -/
structure Consistent {α : Type} (compare : α → α → Int) : Prop where
  total : ∀ a b, compare a b ≤ 0 ∨ compare b a ≤ 0
  trans : ∀ a b c, compare a b ≤ 0 → compare b c ≤ 0 → compare a c ≤ 0

/-- `[...elements].sort(compare)`: the stable sort. -/
def sortBy {α : Type} (compare : α → α → Int) (elements : List α) : List α :=
  elements.insertionSort fun a b => compare a b ≤ 0

section Sorting
variable {α : Type} {compare : α → α → Int} {elements others : List α} {a : α}

@[simp] theorem mem_sortBy : a ∈ sortBy compare elements ↔ a ∈ elements :=
  List.mem_insertionSort _

theorem sortBy_perm (compare : α → α → Int) (elements : List α) :
    (sortBy compare elements).Perm elements := List.perm_insertionSort _ _

@[simp] theorem length_sortBy : (sortBy compare elements).length = elements.length :=
  (sortBy_perm compare elements).length_eq

theorem sortBy_sorted (consistent : Consistent compare) (elements : List α) :
    (sortBy compare elements).Pairwise fun a b => compare a b ≤ 0 :=
  haveI : Std.Total fun a b => compare a b ≤ 0 := ⟨consistent.total⟩
  haveI : IsTrans α fun a b => compare a b ≤ 0 := ⟨consistent.trans⟩
  List.pairwise_insertionSort _ _

/-- Sorting leaves a sorted array as it is. -/
theorem sortBy_eq_self (sorted : elements.Pairwise fun a b => compare a b ≤ 0) :
    sortBy compare elements = elements := sorted.insertionSort_eq

/-- The sorted array depends only on which elements there are, provided no two
different elements compare as equal. -/
theorem sortBy_eq_of_perm (consistent : Consistent compare)
    (separates : ∀ a ∈ elements, ∀ b ∈ elements, compare a b ≤ 0 → compare b a ≤ 0 → a = b)
    (same : elements.Perm others) : sortBy compare elements = sortBy compare others := by
  refine List.Perm.eq_of_pairwise (fun a b left right => ?_) (sortBy_sorted consistent _)
    (sortBy_sorted consistent _)
    ((sortBy_perm _ _).trans (same.trans (sortBy_perm _ _).symm))
  exact separates a (mem_sortBy.mp left) b (same.mem_iff.mpr (mem_sortBy.mp right))

/-- Arrays that sort to one array have the same elements. -/
theorem perm_of_sortBy_eq (same : sortBy compare elements = sortBy compare others) :
    elements.Perm others :=
  (sortBy_perm compare elements).symm.trans (same ▸ sortBy_perm compare others)

/-- `(a, b) => key(a) - key(b)`. -/
theorem consistent_byNumber (key : α → Int) : Consistent fun a b => key a - key b where
  total a b := by omega
  trans a b c first second := by omega

/-- `(a, b) => key(b) - key(a)`. -/
theorem consistent_descending (key : α → Int) : Consistent fun a b => key b - key a where
  total a b := by omega
  trans a b c first second := by omega

end Sorting

/-- `Array.prototype.sort()` on elements of a linear order. -/
def compareDefault {α : Type} [LinearOrder α] (a b : α) : Int :=
  if a < b then -1 else if b < a then 1 else 0

theorem compareDefault_le {α : Type} [LinearOrder α] {a b : α} : compareDefault a b ≤ 0 ↔ a ≤ b := by
  unfold compareDefault
  split
  · rename_i less
    simp [less.le]
  · rename_i notLess
    split
    · rename_i greater
      simp [greater]
    · rename_i notGreater
      simp [not_lt.mp notGreater]

theorem consistent_default {α : Type} [LinearOrder α] : Consistent (compareDefault (α := α)) where
  total a b := by simpa only [compareDefault_le] using le_total a b
  trans a b c := by simpa only [compareDefault_le] using le_trans

/-! ## Maps built from an array -/

/-- `new Map(elements.map((e) => [key(e), e])).get(k)`: of several elements with
one key the map keeps the last. -/
def mapGet {α κ : Type} [DecidableEq κ] (key : α → κ) (elements : List α) (k : κ) : Option α :=
  elements.reverse.find? fun element => key element = k

section Maps
variable {α κ : Type} [DecidableEq κ] {key : α → κ} {elements : List α} {k : κ} {a : α}

theorem mapGet_mem (found : mapGet key elements k = some a) : a ∈ elements ∧ key a = k :=
  ⟨List.mem_reverse.mp (List.mem_of_find?_eq_some found), by simpa using List.find?_some found⟩

theorem mapGet_eq_none : mapGet key elements k = none ↔ ∀ a ∈ elements, key a ≠ k := by
  simp [mapGet]

theorem mapGet_isSome : (mapGet key elements k).isSome = true ↔ ∃ a ∈ elements, key a = k := by
  simp [mapGet]

omit [DecidableEq κ] in
private theorem eq_of_nodup_key (distinct : (elements.map key).Nodup) {b : α} (left : a ∈ elements)
    (right : b ∈ elements) (same : key a = key b) : a = b :=
  List.inj_on_of_nodup_map distinct left right same

/-- With distinct keys the map finds exactly the element that has the key. -/
theorem mapGet_eq_some (distinct : (elements.map key).Nodup) :
    mapGet key elements k = some a ↔ a ∈ elements ∧ key a = k := by
  refine ⟨mapGet_mem, fun ⟨member, keyed⟩ => ?_⟩
  cases found : mapGet key elements k with
  | none => exact absurd keyed (mapGet_eq_none.mp found a member)
  | some b =>
    obtain ⟨memberB, keyedB⟩ := mapGet_mem found
    rw [eq_of_nodup_key distinct memberB member (keyedB.trans keyed.symm)]

/-- `elements.find((e) => key(e) === k)` with distinct keys. -/
theorem find_eq_some (distinct : (elements.map key).Nodup) :
    elements.find? (fun element => decide (key element = k)) = some a ↔ a ∈ elements ∧ key a = k := by
  constructor
  · exact fun found => ⟨List.mem_of_find?_eq_some found, by simpa using List.find?_some found⟩
  · rintro ⟨member, keyed⟩
    cases found : elements.find? fun element => decide (key element = k) with
    | none => exact absurd keyed (by simpa using List.find?_eq_none.mp found a member)
    | some b =>
      have keyedB : key b = k := by simpa using List.find?_some found
      rw [eq_of_nodup_key distinct (List.mem_of_find?_eq_some found) member (keyedB.trans keyed.symm)]

end Maps

/-- A JavaScript number as an array method takes it for a position. -/
inductive JsNumber where
  | nan
  | negInfinity
  | posInfinity
  | finite (value : Rat)
  deriving DecidableEq

/-- `Math.trunc` of a finite number. -/
def trunc (value : Rat) : Int := if 0 ≤ value then value.floor else value.ceil

end Js
