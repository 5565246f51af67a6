import RemoteSqlAgent.JsArray

/-! Rows in the order of a number that tells them apart, as `ORDER BY` has them. Filtering
goes through the order, and a bound cuts the rows in two. -/
namespace Js

variable {Row : Type} {id : Row → Int} {rows : List Row} {row : Row}

/-- `ORDER BY id ASC`. -/
def ascending (id : Row → Int) (rows : List Row) : List Row := sortBy (fun a b => id a - id b) rows

/-- `ORDER BY id DESC`. -/
def descending (id : Row → Int) (rows : List Row) : List Row := sortBy (fun a b => id b - id a) rows

@[simp] theorem mem_ascending : row ∈ ascending id rows ↔ row ∈ rows := mem_sortBy

@[simp] theorem mem_descending : row ∈ descending id rows ↔ row ∈ rows := mem_sortBy

theorem ascending_pairwise (distinct : (rows.map id).Nodup) :
    (ascending id rows).Pairwise fun a b => id a < id b := by
  have sorted := sortBy_sorted (consistent_byNumber id) rows
  have apart : ((ascending id rows).map id).Nodup := ((sortBy_perm _ _).map _).nodup_iff.mpr distinct
  refine (sorted.and (List.pairwise_map.mp apart)).imp ?_
  intro a b both
  have below : id a - id b ≤ 0 := both.1
  exact lt_of_le_of_ne (by omega) both.2

theorem descending_pairwise (distinct : (rows.map id).Nodup) :
    (descending id rows).Pairwise fun a b => id b < id a := by
  have sorted := sortBy_sorted (consistent_descending id) rows
  have apart : ((descending id rows).map id).Nodup := ((sortBy_perm _ _).map _).nodup_iff.mpr distinct
  refine (sorted.and (List.pairwise_map.mp apart)).imp ?_
  intro a b both
  have below : id b - id a ≤ 0 := both.1
  exact lt_of_le_of_ne (by omega) both.2.symm

/-- Rows in order are told by which they are. -/
theorem eq_of_ascending {others : List Row} (sorted : rows.Pairwise fun a b => id a < id b)
    (also : others.Pairwise fun a b => id a < id b) (same : ∀ row, row ∈ rows ↔ row ∈ others) : rows = others := by
  refine List.Perm.eq_of_pairwise (fun a b _ _ first second => absurd first (lt_asymm second)) sorted also ?_
  refine (List.perm_ext_iff_of_nodup ?_ ?_).mpr same
  · exact sorted.imp fun less equal => less.ne (congrArg _ equal)
  · exact also.imp fun less equal => less.ne (congrArg _ equal)

theorem filter_ascending (distinct : (rows.map id).Nodup) (keep : Row → Bool) :
    (ascending id rows).filter keep = ascending id (rows.filter keep) := by
  refine eq_of_ascending ((ascending_pairwise distinct).filter _)
    (ascending_pairwise (distinct.sublist (List.filter_sublist.map _))) fun row => ?_
  rw [List.mem_filter, mem_ascending, mem_ascending, List.mem_filter]

/-- In order, the rows up to a bound come first. -/
theorem takeWhile_le (sorted : rows.Pairwise fun a b => id a < id b) (bound : Int) :
    rows.takeWhile (fun row => id row ≤ bound) = rows.filter (fun row => id row ≤ bound) ∧
      rows.dropWhile (fun row => id row ≤ bound) = rows.filter (fun row => bound < id row) := by
  induction rows with
  | nil => exact ⟨rfl, rfl⟩
  | cons first rest ih =>
    obtain ⟨later, sorted⟩ := List.pairwise_cons.mp sorted
    obtain ⟨taken, dropped⟩ := ih sorted
    by_cases within : id first ≤ bound
    · have notAbove : ¬ bound < id first := not_lt.mpr within
      simp [within, notAbove, taken, dropped]
    · have above : bound < id first := not_le.mp within
      have none_ : ∀ row ∈ rest, ¬ id row ≤ bound := fun row member =>
        not_le.mpr (above.trans (later row member))
      have all : ∀ row ∈ rest, bound < id row := fun row member => above.trans (later row member)
      rw [List.takeWhile_cons_of_neg (by simpa using within), List.dropWhile_cons_of_neg (by simpa using within),
        List.filter_cons_of_neg (by simpa using within), List.filter_cons_of_pos (by simpa using above)]
      refine ⟨(List.filter_eq_nil_iff.mpr fun row member => by simpa using none_ row member).symm, ?_⟩
      rw [List.filter_eq_self.mpr fun row member => decide_eq_true (all row member)]

end Js
