import Mathlib.Data.List.Basic
import Mathlib.Order.Basic
import Mathlib.Data.Int.Order.Basic

/-! A collection of dated items that changes over time. If all that appears in it
has a date later than everything that was there before, then the latest date tells
what has not changed: whatever is there now and is not newer than all that was
there at an earlier moment has been there ever since. -/
namespace DatedHistory

variable {Item : Type} {date : Item → Int} {past : List (List Item)} {present : List Item} {item : Item}

/-- The item has been there at every moment since. -/
def Stands (past : List (List Item)) (present : List Item) (since : Nat) (item : Item) : Prop :=
  ∀ collection ∈ (past ++ [present]).drop since, item ∈ collection

/-- What appears is newer than all that was there before. -/
def Newer (date : Item → Int) (past : List (List Item)) (present next : List Item) : Prop :=
  ∀ item ∈ next, item ∉ present → ∀ collection ∈ past ++ [present], ∀ old ∈ collection, date old < date item

/-- A history in which all that appeared was newer than what was there before. -/
inductive Dated (date : Item → Int) : List (List Item) → List Item → Prop where
  | start (present : List Item) : Dated date [] present
  | change {past : List (List Item)} {present next : List Item} (dated : Dated date past present)
      (newer : Newer date past present next) : Dated date (past ++ [present]) next

/-- The latest date of a collection. -/
def latest (date : Item → Int) (collection : List Item) : Option Int := (collection.map date).max?

theorem Stands.here {since : Nat} (stands : Stands past present since item) (small : since ≤ past.length) :
    item ∈ present := by
  apply stands
  rw [List.drop_append_of_le_length small]
  exact List.mem_append_right _ (List.mem_singleton_self present)

theorem stands_now (here : item ∈ present) : Stands past present past.length item := by
  intro collection member
  rw [List.drop_left, List.mem_singleton] at member
  exact member ▸ here

theorem Stands.later {since later : Nat} (stands : Stands past present since item) (ordered : since ≤ later) :
    Stands past present later item := fun collection member =>
  stands collection ((List.drop_sublist_drop_left _ ordered).mem member)

theorem Stands.before {since : Nat} {next : List Item} (stands : Stands (past ++ [present]) next since item)
    (small : since ≤ past.length) : Stands past present since item := by
  intro collection member
  apply stands
  rw [List.drop_append_of_le_length (by simpa using Nat.le_succ_of_le small)]
  exact List.mem_append_left _ member

/-- What is not newer than all of an earlier moment has been there since. -/
theorem Dated.stands (dated : Dated date past present) {moment : Nat} {earlier : List Item} {old : Item}
    (found : (past ++ [present])[moment]? = some earlier) (there : old ∈ earlier) (here : item ∈ present)
    (notNewer : date item ≤ date old) : Stands past present moment item := by
  induction dated generalizing item with
  | start present =>
    intro collection member
    have inside := List.mem_of_mem_drop member
    rw [List.nil_append, List.mem_singleton] at inside
    exact inside ▸ here
  | @change past present next dated newer ih =>
    by_cases small : moment < (past ++ [present]).length
    · rw [List.getElem?_append_left small] at found
      have stood : item ∈ present := by
        by_contra absent
        exact absurd (newer item here absent earlier (List.mem_of_getElem? found) old there) (not_lt.mpr notNewer)
      intro collection member
      rw [List.drop_append_of_le_length (Nat.le_of_lt small)] at member
      rcases List.mem_append.mp member with before | last
      · exact ih found stood notNewer collection before
      · exact List.mem_singleton.mp last ▸ here
    · have last : moment = (past ++ [present]).length := by
        have bounded := (List.getElem?_eq_some_iff.mp found).1
        rw [List.length_append, List.length_singleton] at bounded
        omega
      exact last ▸ stands_now here

theorem latest_bound (here : item ∈ present) : ∃ newest ∈ latest date present, date item ≤ newest := by
  obtain ⟨newest, isNewest⟩ := Option.isSome_iff_exists.mp
    (List.isSome_max?_of_mem (List.mem_map_of_mem here) : (latest date present).isSome = true)
  exact ⟨newest, isNewest, (List.max?_eq_some_iff.mp isNewest).2 _ (List.mem_map_of_mem here)⟩

/-- **The latest date tells what has not changed**: if it is what it was at an
earlier moment, then all that is there now has been there since. -/
theorem Dated.stands_of_latest (dated : Dated date past present) {moment : Nat} {earlier : List Item}
    (found : (past ++ [present])[moment]? = some earlier) (same : latest date earlier = latest date present)
    (here : item ∈ present) : Stands past present moment item := by
  obtain ⟨newest, isNewest, bound⟩ := latest_bound here
  obtain ⟨old, there, dated'⟩ := List.mem_map.mp (List.max?_eq_some_iff.mp (same.trans isNewest)).1
  exact dated.stands found there here (dated' ▸ bound)

end DatedHistory
