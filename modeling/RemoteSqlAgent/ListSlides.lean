import Mathlib.Data.List.InsertIdx

/-! Moving one element of a list. What stands between the old place and the new one makes room by
one place, and moves that follow each other are one. -/
namespace ListSlides

/-- Where the element was that stands at an index after one was moved from a place to another. -/
def slide (first last index : Nat) : Nat :=
  if index = last then first
  else if first ≤ index ∧ index < last then index + 1
  else if last < index ∧ index ≤ first then index - 1
  else index

variable {first middle last index bound : Nat}

@[simp] theorem slide_self : slide first first index = index := by
  unfold slide
  split_ifs <;> omega

@[simp] theorem slide_last : slide first last last = first := if_pos rfl

/-- The way back. -/
theorem slide_slide : slide last first (slide first last index) = index := by
  unfold slide
  split_ifs <;> omega

/-- Two moves of one element are one. -/
theorem slide_trans : slide first middle (slide middle last index) = slide first last index := by
  unfold slide
  split_ifs <;> omega

theorem slide_lt (isFirst : first < bound) (isLast : last < bound) (inside : index < bound) :
    slide first last index < bound := by
  unfold slide
  split_ifs <;> omega

/-- On the way between two places an element passes the end only if it arrives there or comes from there. -/
theorem slide_between (between : first ≤ middle ∧ middle ≤ last ∨ last ≤ middle ∧ middle ≤ first)
    (inside : index < bound) (isFirst : first < bound) (isLast : last < bound) :
    (slide middle last index + 1 = bound ↔ slide first last index + 1 = bound) ∨
      (slide middle last index + 1 = bound ↔ index + 1 = bound) := by
  unfold slide
  split_ifs <;> omega

section Lists
variable {α : Type} {elements : List α}

/-- Taking an element out and putting it back elsewhere. -/
theorem getElem?_move (isFirst : first < elements.length) (isLast : last < elements.length) (index : Nat) :
    ((elements.eraseIdx first).insertIdx last elements[first])[index]? = elements[slide first last index]? := by
  have shorter := List.length_eraseIdx_of_lt isFirst
  rw [List.getElem?_insertIdx]
  unfold slide
  by_cases here : index = last
  · subst here
    have inside : index ≤ (elements.eraseIdx first).length := by omega
    simp [inside, List.getElem?_eq_getElem isFirst]
  · simp only [here, if_false]
    split_ifs with before passed passed
    · rw [List.getElem?_eraseIdx, if_neg (by omega)]
    · omega
    · rw [List.getElem?_eraseIdx, if_pos (by omega)]
    · omega
    · rw [List.getElem?_eraseIdx, if_pos (by omega)]
    · rw [List.getElem?_eraseIdx, if_neg (by omega)]
      congr 1
      omega

/-- Exchanging two elements that are next to each other moves either past the other. -/
theorem getElem?_exchange (isFirst : first < elements.length) (isLast : last < elements.length)
    (adjacent : first + 1 = last ∨ last + 1 = first) (index : Nat) :
    ((elements.set first elements[last]).set last elements[first])[index]? = elements[slide first last index]? := by
  rw [List.getElem?_set, List.getElem?_set]
  unfold slide
  by_cases here : last = index
  · subst here
    simp [isFirst, isLast]
  · rw [if_neg here, if_neg (Ne.symm here)]
    by_cases other : first = index
    · subst other
      have there : (if first ≤ first ∧ first < last then first + 1
          else if last < first ∧ first ≤ first then first - 1 else first) =
          last := by
        split_ifs <;> omega
      rw [if_pos rfl, there, List.getElem?_eq_getElem isLast]
      simp [isFirst]
    · rw [if_neg other]
      congr 1
      split_ifs <;> omega

end Lists

end ListSlides
