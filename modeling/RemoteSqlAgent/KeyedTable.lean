import Mathlib.Data.List.MinMax
import Mathlib.Data.List.Nodup

/-! Tables with a unique key. A row whose key is taken is not inserted, and the
row that has the key stays. After any insertions there is one row for each key
that was ever offered, and which rows were new depends only on which keys were
there before. -/

/-- A table whose rows have different keys. Rows are in the order of insertion. -/
structure KeyedTable {Row Key : Type} (key : Row → Key) where
  rows : List Row
  unique : (rows.map key).Nodup

namespace KeyedTable

variable {Row Key : Type} {key : Row → Key} {table : KeyedTable key} {row other : Row} {rows : List Row}

instance : Membership Row (KeyedTable key) := ⟨fun table row => row ∈ table.rows⟩

def empty : KeyedTable key := ⟨[], List.nodup_nil⟩

/-- There is a row with this key. -/
def Holds (table : KeyedTable key) (wanted : Key) : Prop := wanted ∈ table.rows.map key

instance [DecidableEq Key] (table : KeyedTable key) (wanted : Key) : Decidable (table.Holds wanted) :=
  inferInstanceAs (Decidable (wanted ∈ table.rows.map key))

theorem eq_of_rows {first second : KeyedTable key} (same : first.rows = second.rows) : first = second := by
  cases first
  cases second
  cases same
  rfl

theorem mem_iff : row ∈ table ↔ row ∈ table.rows := Iff.rfl

@[simp] theorem not_mem_empty : row ∉ (empty : KeyedTable key) := List.not_mem_nil

@[simp] theorem not_holds_empty {wanted : Key} : ¬ (empty : KeyedTable key).Holds wanted := List.not_mem_nil

theorem holds_iff {wanted : Key} : table.Holds wanted ↔ ∃ row ∈ table, key row = wanted := List.mem_map

theorem holds_of_mem (member : row ∈ table) : table.Holds (key row) := List.mem_map_of_mem member

/-- The key of a row determines it. -/
theorem eq_of_key (member : row ∈ table) (there : other ∈ table) (same : key row = key other) : row = other :=
  List.inj_on_of_nodup_map table.unique member there same

/-- One row has the key of a row. -/
theorem filter_key [DecidableEq Key] (member : row ∈ table) :
    (table.rows.filter fun other => key other = key row) = [row] := by
  have distinct : table.rows.Nodup := List.Nodup.of_map key table.unique
  refine List.perm_singleton.mp ((List.perm_ext_iff_of_nodup (distinct.filter _) (List.nodup_singleton row)).mpr ?_)
  intro other
  rw [List.mem_filter, List.mem_singleton, decide_eq_true_eq]
  constructor
  · rintro ⟨there, same⟩
    exact eq_of_key there member same
  · rintro rfl
    exact ⟨member, rfl⟩

/-! ## Insertion -/

/-- Add a row whose key is free. -/
def add (table : KeyedTable key) (row : Row) (free : ¬ table.Holds (key row)) : KeyedTable key where
  rows := table.rows ++ [row]
  unique := by
    rw [List.map_append, List.map_singleton, ← List.concat_eq_append]
    exact List.Nodup.concat free table.unique

@[simp] theorem rows_add (free : ¬ table.Holds (key row)) : (table.add row free).rows = table.rows ++ [row] := rfl

theorem holds_add {wanted : Key} (free : ¬ table.Holds (key row)) :
    (table.add row free).Holds wanted ↔ table.Holds wanted ∨ wanted = key row := by
  simp [Holds]

variable [DecidableEq Key]

/-- `INSERT … ON CONFLICT DO NOTHING RETURNING`: what is returned are the rows
that are new. -/
def insertNew (table : KeyedTable key) : List Row → KeyedTable key × List Row
  | [] => (table, [])
  | row :: rest =>
    if taken : table.Holds (key row) then table.insertNew rest
    else
      let (after, inserted) := (table.add row taken).insertNew rest
      (after, row :: inserted)

theorem insertNew_taken {rest : List Row} (taken : table.Holds (key row)) :
    table.insertNew (row :: rest) = table.insertNew rest := by
  rw [insertNew, dif_pos taken]

theorem insertNew_free {rest : List Row} (free : ¬ table.Holds (key row)) :
    table.insertNew (row :: rest) =
      (((table.add row free).insertNew rest).1, row :: ((table.add row free).insertNew rest).2) := by
  rw [insertNew, dif_neg free]

/-- The table grows by what is returned. -/
theorem rows_insertNew : (table.insertNew rows).1.rows = table.rows ++ (table.insertNew rows).2 := by
  induction rows generalizing table with
  | nil => exact (List.append_nil _).symm
  | cons row rest ih =>
    by_cases taken : table.Holds (key row)
    · rw [insertNew_taken taken, ih]
    · rw [insertNew_free taken, ih, rows_add, List.append_assoc, List.singleton_append]

theorem mem_insertNew : row ∈ (table.insertNew rows).1 ↔ row ∈ table ∨ row ∈ (table.insertNew rows).2 := by
  rw [mem_iff, rows_insertNew, List.mem_append]
  rfl

/-- What is returned was offered, and its key was free. -/
theorem mem_of_inserted (inserted : row ∈ (table.insertNew rows).2) : row ∈ rows ∧ ¬ table.Holds (key row) := by
  induction rows generalizing table with
  | nil => exact absurd inserted List.not_mem_nil
  | cons first rest ih =>
    by_cases taken : table.Holds (key first)
    · rw [insertNew_taken taken] at inserted
      exact ⟨List.mem_cons_of_mem _ (ih inserted).1, (ih inserted).2⟩
    · rw [insertNew_free taken] at inserted
      rcases List.mem_cons.mp inserted with rfl | later
      · exact ⟨List.mem_cons_self, taken⟩
      · refine ⟨List.mem_cons_of_mem _ (ih later).1, fun held => (ih later).2 ?_⟩
        exact (holds_add taken).mpr (.inl held)

/-- Every key that is offered is held afterwards. -/
theorem holds_insertNew {wanted : Key} :
    (table.insertNew rows).1.Holds wanted ↔ table.Holds wanted ∨ wanted ∈ rows.map key := by
  induction rows generalizing table with
  | nil => simp [insertNew]
  | cons first rest ih =>
    rw [List.map_cons, List.mem_cons]
    by_cases taken : table.Holds (key first)
    · rw [insertNew_taken taken, ih]
      constructor
      · exact Or.imp_right .inr
      · rintro (held | rfl | later)
        · exact .inl held
        · exact .inl taken
        · exact .inr later
    · rw [insertNew_free taken, ih, holds_add taken, or_assoc]

/-- Of rows that their keys determine, those with a free key are inserted. -/
theorem mem_inserted (determined : ∀ a ∈ rows, ∀ b ∈ rows, key a = key b → a = b) :
    row ∈ (table.insertNew rows).2 ↔ row ∈ rows ∧ ¬ table.Holds (key row) := by
  refine ⟨mem_of_inserted, fun ⟨offered, free⟩ => ?_⟩
  have held : (table.insertNew rows).1.Holds (key row) := holds_insertNew.mpr (.inr (List.mem_map_of_mem offered))
  obtain ⟨found, member, same⟩ := holds_iff.mp held
  rcases mem_insertNew.mp member with before | inserted
  · exact absurd (same ▸ holds_of_mem before) free
  · exact determined found (mem_of_inserted inserted).1 row offered same ▸ inserted

/-- No row is returned twice. -/
theorem nodup_inserted : ((table.insertNew rows).2.map key).Nodup := by
  have whole := (table.insertNew rows).1.unique
  rw [rows_insertNew, List.map_append] at whole
  exact (List.nodup_append.mp whole).2.1

/-! ## Change and removal -/

section Change
omit [DecidableEq Key]

/-- Change rows, but not their keys. -/
def modify (table : KeyedTable key) (change : Row → Row) (keeps : ∀ row, key (change row) = key row) :
    KeyedTable key where
  rows := table.rows.map change
  unique := by
    rw [List.map_map, show key ∘ change = key from funext keeps]
    exact table.unique

theorem mem_modify {change : Row → Row} {keeps : ∀ row, key (change row) = key row} :
    row ∈ table.modify change keeps ↔ ∃ held ∈ table, change held = row := List.mem_map

/-- Where the row of one key is changed, a row is one with another key or the changed one. -/
theorem mem_rewritten [DecidableEq Key] {after : KeyedTable key} {wanted : Row} {change : Row → Row}
    (isRow : wanted ∈ table)
    (rows : after.rows = table.rows.map fun row => if key row = key wanted then change row else row) :
    row ∈ after ↔ row ∈ table ∧ key row ≠ key wanted ∨ row = change wanted := by
  rw [mem_iff, rows, List.mem_map]
  constructor
  · rintro ⟨source, held, rfl⟩
    by_cases isKey : key source = key wanted
    · rw [if_pos isKey, table.eq_of_key held isRow isKey]
      exact .inr rfl
    · rw [if_neg isKey]
      exact .inl ⟨held, isKey⟩
  · rintro (⟨held, other⟩ | rfl)
    · exact ⟨row, held, if_neg other⟩
    · exact ⟨wanted, isRow, if_pos rfl⟩

/-- Remove the rows of a kind. -/
def remove (table : KeyedTable key) (gone : Row → Bool) : KeyedTable key where
  rows := table.rows.filter fun row => !gone row
  unique := table.unique.sublist (List.filter_sublist.map key)

theorem mem_remove {gone : Row → Bool} : row ∈ table.remove gone ↔ row ∈ table ∧ gone row = false := by
  rw [mem_iff, remove, List.mem_filter]
  simp [mem_iff]

end Change

/-! ## The greatest row -/

/-- The greatest of some rows depends only on which rows there are, if no two
have one rank. -/
theorem argmax_eq_of_mem_iff {Rank : Type} [LinearOrder Rank] {rank : Row → Rank} {others : List Row}
    (separates : ∀ a ∈ rows, ∀ b ∈ rows, rank a = rank b → a = b) (same : ∀ row, row ∈ rows ↔ row ∈ others) :
    rows.argmax rank = others.argmax rank := by
  cases first : rows.argmax rank with
  | none =>
    have empty : rows = [] := List.argmax_eq_none.mp first
    have bare : others = [] := List.eq_nil_iff_forall_not_mem.mpr fun row member => by
      rw [← same, empty] at member
      exact List.not_mem_nil member
    rw [bare, List.argmax_nil]
  | some greatest =>
    have member : greatest ∈ rows := List.argmax_mem first
    cases second : others.argmax rank with
    | none =>
      rw [List.argmax_eq_none.mp second] at same
      exact absurd ((same greatest).mp member) List.not_mem_nil
    | some other =>
      have there : other ∈ rows := (same other).mpr (List.argmax_mem second)
      have above := List.le_of_mem_argmax there first
      have below := List.le_of_mem_argmax ((same greatest).mp member) second
      rw [separates greatest member other there (le_antisymm below above)]

end KeyedTable
