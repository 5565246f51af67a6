import Mathlib.Logic.Function.Basic
import Mathlib.Data.List.Basic

/-! Transactions that lock rows. One transaction at a time holds a row, until it ends,
and whatever it is going to write are rows that it holds. So while a row is held, no other
commit changes it. -/

/-- A transaction in progress: the rows it holds, and what it writes if it commits. -/
structure Transaction (Row Write : Type) where
  locked : List Row
  writes : List Write

/-- The transactions in progress, by their numbers. A number is given once. -/
structure RowLocks {Row Write : Type} (target : Write → Row) where
  next : Nat
  running : Nat → Option (Transaction Row Write)
  early : ∀ number transaction, running number = some transaction → number < next
  apart : ∀ first second one other row, running first = some one → running second = some other →
    row ∈ one.locked → row ∈ other.locked → first = second
  covered : ∀ number transaction, running number = some transaction →
    ∀ write ∈ transaction.writes, target write ∈ transaction.locked

namespace Transaction

variable {Row Write : Type}

def grow (transaction : Transaction Row Write) (row : Row) (writes : List Write) : Transaction Row Write where
  locked := row :: transaction.locked
  writes := transaction.writes ++ writes

end Transaction

namespace RowLocks

variable {Row Write : Type} {target : Write → Row} {locks : RowLocks target} {number other : Nat} {row : Row}
  {writes : List Write} {transaction : Transaction Row Write}

def idle : RowLocks target where
  next := 0
  running := fun _ => none
  early := nofun
  apart := nofun
  covered := nofun

/-- No other transaction holds the row. One that wants it waits until it is free. -/
def Free (locks : RowLocks target) (number : Nat) (row : Row) : Prop :=
  ∀ other transaction, locks.running other = some transaction → row ∈ transaction.locked → other = number

instance [DecidableEq Row] (locks : RowLocks target) (number : Nat) (row : Row) : Decidable (locks.Free number row) :=
  decidable_of_iff (∀ other < locks.next, other = number ∨
      (locks.running other).all (fun transaction => decide (row ∉ transaction.locked)) = true) <| by
    constructor
    · intro each other transaction ran held
      rcases each other (locks.early other transaction ran) with same | apart
      · exact same
      · rw [ran, Option.all_some, decide_eq_true_eq] at apart
        exact absurd held apart
    · intro free other _
      refine or_iff_not_imp_left.mpr fun different => ?_
      cases ran : locks.running other with
      | none => rfl
      | some transaction => exact decide_eq_true fun held => different (free other transaction ran held)

theorem free_of_held (ran : locks.running number = some transaction) (held : row ∈ transaction.locked) :
    locks.Free number row :=
  fun other another runs also => locks.apart other number another transaction row runs ran also held

/-- Put a transaction in the place of one. -/
def put (locks : RowLocks target) (number next : Nat) (put : Option (Transaction Row Write)) (later : locks.next ≤ next)
    (early : ∀ transaction ∈ put, number < next)
    (free : ∀ transaction ∈ put, ∀ row ∈ transaction.locked, locks.Free number row)
    (covered : ∀ transaction ∈ put, ∀ write ∈ transaction.writes, target write ∈ transaction.locked) :
    RowLocks target where
  next := next
  running := Function.update locks.running number put
  early other transaction ran := by
    rcases eq_or_ne other number with rfl | different
    · rw [Function.update_self] at ran
      exact early transaction ran
    · rw [Function.update_of_ne different] at ran
      exact Nat.lt_of_lt_of_le (locks.early other transaction ran) later
  apart first second one other row ran too mine also := by
    rcases eq_or_ne first number with rfl | different
    · rcases eq_or_ne second first with rfl | apart
      · rfl
      · rw [Function.update_self] at ran
        rw [Function.update_of_ne apart] at too
        exact (free one ran row mine second other too also).symm
    · rw [Function.update_of_ne different] at ran
      rcases eq_or_ne second number with rfl | apart
      · rw [Function.update_self] at too
        exact free other too row also first one ran mine
      · rw [Function.update_of_ne apart] at too
        exact locks.apart first second one other row ran too mine also
  covered other transaction ran := by
    rcases eq_or_ne other number with rfl | different
    · rw [Function.update_self] at ran
      exact covered transaction ran
    · rw [Function.update_of_ne different] at ran
      exact locks.covered other transaction ran

/-- Begin a transaction. -/
def start (locks : RowLocks target) : RowLocks target :=
  locks.put locks.next (locks.next + 1) (some ⟨[], []⟩) (Nat.le_succ _) (fun _ _ => Nat.lt_succ_self _)
    (fun transaction isPut row held => by cases isPut; cases held)
    (fun transaction isPut write member => by cases isPut; cases member)

/-- Hold a row that is free, and write to it on commit. -/
def hold (locks : RowLocks target) (number : Nat) (row : Row) (writes : List Write) (free : locks.Free number row)
    (own : ∀ write ∈ writes, target write = row) : RowLocks target :=
  locks.put number locks.next ((locks.running number).map fun transaction => transaction.grow row writes) Nat.le.refl
    (fun transaction grown => by
      obtain ⟨before, ran, -⟩ := Option.map_eq_some_iff.mp grown
      exact locks.early number before ran)
    (fun transaction grown wanted held => by
      obtain ⟨before, ran, rfl⟩ := Option.map_eq_some_iff.mp grown
      rcases List.mem_cons.mp held with rfl | old
      · exact free
      · exact free_of_held ran old)
    (fun transaction grown write member => by
      obtain ⟨before, ran, rfl⟩ := Option.map_eq_some_iff.mp grown
      rcases List.mem_append.mp member with old | new
      · exact List.mem_cons_of_mem _ (locks.covered number before ran write old)
      · rw [own write new]
        exact List.mem_cons_self)

/-- Commit or roll back. -/
def finish (locks : RowLocks target) (number : Nat) : RowLocks target :=
  locks.put number locks.next none Nat.le.refl nofun nofun nofun

theorem running_start : locks.start.running = Function.update locks.running locks.next (some ⟨[], []⟩) := rfl

theorem running_hold {free : locks.Free number row} {own : ∀ write ∈ writes, target write = row} :
    (locks.hold number row writes free own).running = Function.update locks.running number
      ((locks.running number).map fun transaction => transaction.grow row writes) := rfl

theorem running_finish : (locks.finish number).running = Function.update locks.running number none := rfl

/-! ## What stays so while a transaction runs -/

/-- The transaction was started, and as long as it runs this is so of it. -/
def While (locks : RowLocks target) (number : Nat) (holds : Transaction Row Write → Prop) : Prop :=
  number < locks.next ∧ ∀ transaction, locks.running number = some transaction → holds transaction

variable {holds : Transaction Row Write → Prop}

theorem While.start (whilst : locks.While number holds) : locks.start.While number holds := by
  refine ⟨Nat.lt_succ_of_lt whilst.1, fun transaction ran => whilst.2 transaction ?_⟩
  rwa [running_start, Function.update_of_ne (Nat.ne_of_lt whilst.1)] at ran

theorem While.finish (whilst : locks.While number holds) (other : Nat) : (locks.finish other).While number holds := by
  refine ⟨whilst.1, fun transaction ran => ?_⟩
  rcases eq_or_ne number other with rfl | different
  · rw [running_finish, Function.update_self] at ran
    cases ran
  · rw [running_finish, Function.update_of_ne different] at ran
    exact whilst.2 transaction ran

theorem While.hold (whilst : locks.While number holds)
    (grows : ∀ transaction row writes, holds transaction → holds (transaction.grow row writes))
    {free : locks.Free other row}
    {own : ∀ write ∈ writes, target write = row} : (locks.hold other row writes free own).While number holds := by
  refine ⟨whilst.1, fun transaction ran => ?_⟩
  rcases eq_or_ne number other with rfl | different
  · rw [running_hold, Function.update_self] at ran
    obtain ⟨before, was, rfl⟩ := Option.map_eq_some_iff.mp ran
    exact grows before row writes (whilst.2 before was)
  · rw [running_hold, Function.update_of_ne different] at ran
    exact whilst.2 transaction ran

/-- What can become of the transactions. -/
inductive Moves (locks : RowLocks target) : RowLocks target → Prop where
  | stay : Moves locks locks
  | start : Moves locks locks.start
  | hold (number : Nat) (row : Row) (writes : List Write) (free : locks.Free number row)
      (own : ∀ write ∈ writes, target write = row) : Moves locks (locks.hold number row writes free own)
  | finish (number : Nat) : Moves locks (locks.finish number)

theorem While.moves {after : RowLocks target} (whilst : locks.While number holds) (moves : locks.Moves after)
    (grows : ∀ transaction row writes, holds transaction → holds (transaction.grow row writes)) :
    after.While number holds := by
  cases moves with
  | stay => exact whilst
  | start => exact whilst.start
  | hold => exact whilst.hold grows
  | finish other => exact whilst.finish other

/-- What was taken is held, and what was written will be. -/
theorem while_hold (ran : locks.running number = some transaction) {free : locks.Free number row}
    {own : ∀ write ∈ writes, target write = row} :
    (locks.hold number row writes free own).While number fun transaction =>
      row ∈ transaction.locked ∧ ∀ write ∈ writes, write ∈ transaction.writes := by
  refine ⟨locks.early number transaction ran, fun grown after => ?_⟩
  rw [running_hold, Function.update_self, ran, Option.map_some] at after
  cases after
  exact ⟨List.mem_cons_self, fun write member => List.mem_append_right _ member⟩

/-- Another transaction does not write to a row that is held. -/
theorem not_written (held : row ∈ transaction.locked) (ran : locks.running number = some transaction)
    {another : Transaction Row Write} (runs : locks.running other = some another) (different : other ≠ number) :
    ∀ write ∈ another.writes, target write ≠ row := fun write member same =>
  different (locks.apart other number another transaction row runs ran
    (same ▸ locks.covered other another runs write member) held)

end RowLocks
