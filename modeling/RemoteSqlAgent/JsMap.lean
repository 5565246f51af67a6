import RemoteSqlAgent.JsJson
import Mathlib.Data.List.Basic
import Mathlib.Data.List.Nodup
import Mathlib.Logic.Function.Basic

/-! `Map`s with string keys. The entries are in the order in which their keys were
set first; setting a key again leaves it where it is. -/
namespace Js

abbrev JsMap (α : Type) := List (JsString × α)

namespace JsMap

variable {α : Type}

def get (map : JsMap α) (key : JsString) : Option α := property key map

def set (map : JsMap α) (key : JsString) (value : α) : JsMap α :=
  if (map.get key).isSome then map.map fun entry => if entry.1 = key then (key, value) else entry
  else map ++ [(key, value)]

def delete (map : JsMap α) (key : JsString) : JsMap α := map.filter fun entry => entry.1 ≠ key

def keys (map : JsMap α) : List JsString := map.map Prod.fst

def values (map : JsMap α) : List α := map.map Prod.snd

/-- `new Map(entries)`. -/
def ofEntries (entries : List (JsString × α)) : JsMap α :=
  entries.foldl (fun map entry => map.set entry.1 entry.2) []

@[simp] theorem get_nil (key : JsString) : get ([] : JsMap α) key = none := rfl

theorem get_cons (entry : JsString × α) (map : JsMap α) (key : JsString) :
    get (entry :: map) key = if entry.1 = key then some entry.2 else map.get key := by
  unfold get property
  rw [List.find?_cons]
  by_cases same : entry.1 = key
  · simp [same]
  · rw [beq_eq_false_iff_ne.mpr same, if_neg same]

theorem get_append (first second : JsMap α) (key : JsString) :
    get (first ++ second) key = (first.get key).or (second.get key) := by
  unfold get property
  rw [List.find?_append, Option.map_or]

theorem get_eq_none {map : JsMap α} {key : JsString} : map.get key = none ↔ key ∉ map.keys := by
  induction map with
  | nil => simp [keys]
  | cons entry map ih =>
    rw [get_cons, keys, List.map_cons, List.mem_cons, not_or, ← keys, ← ih]
    by_cases same : entry.1 = key
    · simp [same]
    · simp [same, Ne.symm same]

theorem mem_keys {map : JsMap α} {key : JsString} : key ∈ map.keys ↔ (map.get key).isSome = true := by
  rw [← not_iff_not, ← get_eq_none, Option.not_isSome_iff_eq_none]

/-- Where each key has one entry, an entry is what the map has for its key. -/
theorem mem_iff_get {map : JsMap α} (distinct : map.keys.Nodup) {key : JsString} {value : α} :
    (key, value) ∈ map ↔ map.get key = some value := by
  induction map with
  | nil => simp
  | cons entry map ih =>
    obtain ⟨absent, distinct⟩ := List.nodup_cons.mp distinct
    rw [get_cons, List.mem_cons]
    by_cases same : entry.1 = key
    · subst same
      rw [if_pos rfl, Option.some.injEq]
      refine ⟨fun member => ?_, fun same => .inl (Prod.ext rfl same.symm)⟩
      rcases member with here | later
      · exact (congrArg Prod.snd here).symm
      · exact absurd (List.mem_map_of_mem later) absent
    · rw [if_neg same, ← ih distinct]
      refine or_iff_right fun here => same ?_
      exact (congrArg Prod.fst here).symm

@[simp] theorem get_set (map : JsMap α) (key other : JsString) (value : α) :
    (map.set key value).get other = if key = other then some value else map.get other := by
  have replaced : get (map.map fun entry => if entry.1 = key then (key, value) else entry) other =
      if key = other then (map.get other).map fun _ => value else map.get other := by
    induction map with
    | nil => simp
    | cons entry map ih =>
      rw [List.map_cons, get_cons, get_cons, ih]
      by_cases mine : entry.1 = key
      · rw [if_pos mine, mine]
        split <;> rfl
      · rw [if_neg mine]
        by_cases here : entry.1 = other
        · have apart : key ≠ other := fun same => mine (here.trans same.symm)
          rw [if_pos here, if_neg apart, if_pos here]
        · rw [if_neg here, if_neg here]
  unfold set
  split
  · rename_i found
    rw [replaced]
    split
    · rename_i same
      rw [← same]
      obtain ⟨old, was⟩ := Option.isSome_iff_exists.mp found
      rw [was, Option.map_some]
    · rfl
  · rename_i absent
    rw [get_append, get_cons, get_nil]
    split
    · rename_i same
      rw [← same, Option.not_isSome_iff_eq_none.mp absent, Option.none_or]
    · rw [Option.or_none]

@[simp] theorem get_delete (map : JsMap α) (key other : JsString) :
    (map.delete key).get other = if key = other then none else map.get other := by
  induction map with
  | nil => simp [delete]
  | cons entry map ih =>
    unfold delete at ih ⊢
    rw [List.filter_cons]
    by_cases mine : entry.1 = key
    · rw [if_neg (by simpa using mine), ih, get_cons, mine]
      split <;> rfl
    · rw [if_pos (by simpa using mine), get_cons, ih, get_cons]
      by_cases here : entry.1 = other
      · have apart : key ≠ other := fun same => mine (here.trans same.symm)
        rw [if_pos here, if_neg apart, if_pos here]
      · rw [if_neg here, if_neg here]

/-- Setting a key makes no second entry of it. -/
theorem nodup_set {map : JsMap α} (distinct : map.keys.Nodup) (key : JsString) (value : α) :
    (map.set key value).keys.Nodup := by
  unfold set
  split
  · have same : keys (map.map fun entry => if entry.1 = key then (key, value) else entry) = map.keys := by
      rw [keys, keys, List.map_map]
      refine List.map_congr_left fun entry _ => ?_
      by_cases mine : entry.1 = key
      · simp [mine]
      · simp [mine]
    rw [same]
    exact distinct
  · rename_i absent
    have free : key ∉ map.keys := fun member => absent (mem_keys.mp member)
    rw [keys, List.map_append, List.map_singleton, ← List.concat_eq_append]
    exact List.Nodup.concat free distinct

theorem nodup_delete {map : JsMap α} (distinct : map.keys.Nodup) (key : JsString) : (map.delete key).keys.Nodup :=
  distinct.sublist (List.filter_sublist.map _)

theorem delete_absent {map : JsMap α} {key : JsString} (absent : map.get key = none) : map.delete key = map := by
  refine List.filter_eq_self.mpr fun entry member => decide_eq_true ?_
  rintro rfl
  exact get_eq_none.mp absent (List.mem_map_of_mem member)

/-- An entry after setting a key is the new one, or was there under another key. -/
theorem mem_set {map : JsMap α} {key : JsString} {value : α} {entry : JsString × α}
    (member : entry ∈ map.set key value) :
    entry = (key, value) ∨ (entry ∈ map ∧ key ≠ entry.1) := by
  unfold set at member
  split at member
  · obtain ⟨old, there, same⟩ := List.mem_map.mp member
    split at same
    · exact .inl same.symm
    · rename_i different
      exact .inr ⟨same ▸ there, same ▸ Ne.symm different⟩
  · rename_i absent
    rcases List.mem_append.mp member with old | new
    · refine .inr ⟨old, ?_⟩
      rintro rfl
      exact absent (mem_keys.mp (List.mem_map_of_mem old))
    · exact .inl (List.mem_singleton.mp new)

theorem mem_delete {map : JsMap α} {key : JsString} {entry : JsString × α} (member : entry ∈ map.delete key) :
    entry ∈ map ∧ key ≠ entry.1 := by
  obtain ⟨there, different⟩ := List.mem_filter.mp member
  exact ⟨there, Ne.symm (of_decide_eq_true different)⟩

/-- Entries with keys of their own are the map. -/
theorem ofEntries_of_nodup {entries : List (JsString × α)} (distinct : (entries.map Prod.fst).Nodup) :
    ofEntries entries = entries := by
  have run : ∀ map : JsMap α, (map.map Prod.fst ++ entries.map Prod.fst).Nodup →
      entries.foldl (fun map entry => map.set entry.1 entry.2) map = map ++ entries := by
    induction entries with
    | nil =>
      intro map _
      simp
    | cons entry rest ih =>
      intro map apart
      have fresh : map.get entry.1 = none := by
        rw [get_eq_none]
        intro member
        exact (List.nodup_append.mp apart).2.2 _ member _ List.mem_cons_self rfl
      have added : map.set entry.1 entry.2 = map ++ [entry] := by
        rw [set, fresh, Option.isSome_none, if_neg Bool.false_ne_true]
      rw [List.foldl_cons, added, ih (List.nodup_cons.mp distinct).2, List.append_assoc, List.singleton_append]
      rwa [List.map_append, List.append_assoc]
  exact run [] distinct

/-- A map of entries that a function gives has them. -/
theorem get_ofEntries {entries : List (JsString × α)} {value : JsString → Option α}
    (given : ∀ entry ∈ entries, value entry.1 = some entry.2) (key : JsString) :
    (ofEntries entries).get key = if key ∈ entries.map Prod.fst then value key else none := by
  have run : ∀ map : JsMap α, (entries.foldl (fun map entry => map.set entry.1 entry.2) map).get key =
      if key ∈ entries.map Prod.fst then value key else map.get key := by
    induction entries with
    | nil => intro map; rfl
    | cons entry rest ih =>
      intro map
      rw [List.foldl_cons, ih fun other member => given other (List.mem_cons_of_mem _ member), List.map_cons]
      by_cases later : key ∈ rest.map Prod.fst
      · simp [later]
      · rw [if_neg later, get_set]
        by_cases here : entry.1 = key
        · rw [if_pos here, if_pos (here ▸ List.mem_cons_self), ← here, given entry List.mem_cons_self]
        · have other : key ∉ entry.1 :: rest.map Prod.fst := by
            rw [List.mem_cons, not_or]
            exact ⟨Ne.symm here, later⟩
          rw [if_neg here, if_neg other]
  exact run []

end JsMap

end Js
