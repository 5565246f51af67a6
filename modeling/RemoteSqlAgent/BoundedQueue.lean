import Mathlib.Data.List.Sublists
import Mathlib.Data.List.Perm.Basic

/-! Queues of bounded length that drop from the front to make room. Whatever was
offered to one is still waiting, was taken out or was dropped, and what waits is
in the order in which it was offered. A queue can be served from the front until
an item is refused, and batches make no difference to that. -/
namespace BoundedQueue
open scoped List

variable {α : Type}

/-- Append an item, and drop what is too much at the front. -/
def offer (bound : Nat) (waiting : List α) (item : α) : List α :=
  (waiting ++ [item]).drop (waiting.length + 1 - bound)

/-- What an offer drops. -/
def dropped (bound : Nat) (waiting : List α) (item : α) : List α :=
  (waiting ++ [item]).take (waiting.length + 1 - bound)

theorem dropped_append_offer (bound : Nat) (waiting : List α) (item : α) :
    dropped bound waiting item ++ offer bound waiting item = waiting ++ [item] :=
  List.take_append_drop _ _

theorem length_offer_le (bound : Nat) (waiting : List α) (item : α) :
    (offer bound waiting item).length ≤ bound := by
  simp only [offer, List.length_drop, List.length_append, List.length_singleton]
  omega

/-- With room for one item, the newest is never dropped. -/
theorem mem_offer {bound : Nat} (room : 0 < bound) (waiting : List α) (item : α) :
    item ∈ offer bound waiting item := by
  rw [offer, List.drop_append_of_le_length (by omega)]
  exact List.mem_append_right _ List.mem_cons_self

/-- The account of a queue: what was offered in all, and where it is now. -/
structure Accounted (offered waiting taken evicted : List α) : Prop where
  inOrder : waiting.Sublist offered
  each : offered.Perm (waiting ++ (taken ++ evicted))

namespace Accounted

variable {offered waiting taken evicted : List α}

theorem empty : Accounted ([] : List α) [] [] [] := ⟨.slnil, .nil⟩

theorem length (account : Accounted offered waiting taken evicted) :
    offered.length = waiting.length + taken.length + evicted.length := by
  rw [account.each.length_eq, List.length_append, List.length_append, Nat.add_assoc]

theorem offer (account : Accounted offered waiting taken evicted) (bound : Nat) (item : α) :
    Accounted (offered ++ [item]) (BoundedQueue.offer bound waiting item) taken
      (evicted ++ dropped bound waiting item) where
  inOrder := (List.drop_sublist _ _).trans (account.inOrder.append (List.Sublist.refl _))
  each := by
    have whole := (dropped_append_offer bound waiting item).symm
    calc offered ++ [item]
      _ ~ waiting ++ (taken ++ evicted) ++ [item] := account.each.append_right _
      _ ~ (waiting ++ [item]) ++ (taken ++ evicted) := by
        rw [List.append_assoc waiting (taken ++ evicted), List.append_assoc waiting [item]]
        exact List.perm_append_comm.append_left _
      _ = (dropped bound waiting item ++ BoundedQueue.offer bound waiting item) ++ (taken ++ evicted) := by
        rw [whole]
      _ ~ (BoundedQueue.offer bound waiting item ++ dropped bound waiting item) ++ (taken ++ evicted) :=
        List.perm_append_comm.append_right _
      _ ~ BoundedQueue.offer bound waiting item ++ (taken ++ (evicted ++ dropped bound waiting item)) := by
        rw [List.append_assoc]
        refine List.Perm.append_left _ (List.perm_append_comm.trans ?_)
        rw [List.append_assoc]

/-- Taking out whatever passes a test. -/
theorem take (account : Accounted offered waiting taken evicted) (test : α → Bool) :
    Accounted offered (waiting.filter fun item => !test item) (taken ++ waiting.filter test) evicted where
  inOrder := List.filter_sublist.trans account.inOrder
  each := by
    calc offered
      _ ~ waiting ++ (taken ++ evicted) := account.each
      _ ~ (waiting.filter (fun item => !test item) ++ waiting.filter test) ++ (taken ++ evicted) :=
        ((List.filter_append_perm test waiting).symm.trans List.perm_append_comm).append_right _
      _ ~ waiting.filter (fun item => !test item) ++ (taken ++ waiting.filter test ++ evicted) := by
        rw [List.append_assoc, ← List.append_assoc (waiting.filter test)]
        exact (List.perm_append_comm.append_right _).append_left _

/-- Whatever was offered is in one of the three places. -/
theorem mem (account : Accounted offered waiting taken evicted) {item : α} (member : item ∈ offered) :
    item ∈ waiting ∨ item ∈ taken ∨ item ∈ evicted := by
  simpa only [List.mem_append] using account.each.mem_iff.mp member

end Accounted

/-! ## Serving -/

section Serving
variable {σ : Type} {step : σ → α → Bool × σ}

/-- Serve one item after another, until one is refused. What is left starts with that one. -/
def serve (step : σ → α → Bool × σ) : σ → List α → List α × σ
  | state, [] => ([], state)
  | state, item :: rest =>
    if (step state item).1 then serve step (step state item).2 rest else (item :: rest, (step state item).2)

/-- A batch that is served whole is followed by the next. -/
theorem serve_append {state : σ} {first : List α} (whole : (serve step state first).1 = []) (second : List α) :
    serve step state (first ++ second) = serve step (serve step state first).2 second := by
  induction first generalizing state with
  | nil => rfl
  | cons item rest ih =>
    rw [serve] at whole
    rw [List.cons_append, serve, serve]
    split
    · rename_i served
      rw [if_pos served] at whole
      exact ih whole
    · rename_i refused
      rw [if_neg refused] at whole
      cases whole

/-- Nothing is served after a refusal. -/
theorem serve_append_of_refused {state : σ} {first : List α} (refused : (serve step state first).1 ≠ [])
    (second : List α) : serve step state (first ++ second) =
      ((serve step state first).1 ++ second, (serve step state first).2) := by
  induction first generalizing state with
  | nil => exact absurd rfl refused
  | cons item rest ih =>
    rw [serve] at refused
    rw [List.cons_append, serve, serve]
    split
    · rename_i served
      rw [if_pos served] at refused
      exact ih refused
    · rfl

end Serving

end BoundedQueue
