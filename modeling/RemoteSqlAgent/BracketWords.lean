import Mathlib.Data.List.Basic
import Mathlib.Data.List.Induction

/-! Brackets of several kinds in a text: the words in which they are well nested, the
matching of what opens with what closes, and the stack that finds it. The stack goes on after
an error: what closes something else is reported and closes it all the same. -/
namespace BracketWords

/-- What a bracket does. -/
inductive Letter (κ : Type) where
  | opens (kind : κ)
  | closes (kind : κ)

/-- Every bracket is closed by one of its kind, and what is between is well nested. -/
inductive WellNested {κ : Type} : List (Letter κ) → Prop
  | nil : WellNested []
  | pair (kind : κ) {inner rest : List (Letter κ)} (nested : WellNested inner) (later : WellNested rest) :
      WellNested (.opens kind :: (inner ++ .closes kind :: rest))

theorem WellNested.append {κ : Type} {first second : List (Letter κ)} (one : WellNested first)
    (other : WellNested second) : WellNested (first ++ second) := by
  induction one with
  | nil => exact other
  | @pair kind inner rest nested later nestedIh laterIh =>
    have joined := WellNested.pair kind nested laterIh
    rwa [List.cons_append, List.append_assoc, List.cons_append]

variable {α κ : Type} (read : α → Option (Letter κ))

/-- The brackets of a text. -/
def word (text : List α) : List (Letter κ) := text.filterMap read

@[simp] theorem word_nil : word read [] = [] := rfl

@[simp] theorem word_append (first second : List α) :
    word read (first ++ second) = word read first ++ word read second := List.filterMap_append

@[simp] theorem word_cons (c : α) (rest : List α) : word read (c :: rest) = (read c).toList ++ word read rest := by
  cases here : read c <;> simp [word, here]

/-- The places of two brackets of one kind with a well nested text between them. -/
def Matched (text : List α) (i j : Nat) : Prop :=
  ∃ before opener inner closer after kind, text = before ++ opener :: (inner ++ closer :: after) ∧
    before.length = i ∧ before.length + 1 + inner.length = j ∧ read opener = some (.opens kind) ∧
    read closer = some (.closes kind) ∧ WellNested (word read inner)

/-- A bracket that no other is matched with. -/
def Unmatched (text : List α) (i : Nat) : Prop :=
  (∃ c letter, text[i]? = some c ∧ read c = some letter) ∧
    ∀ j, ¬ Matched read text i j ∧ ¬ Matched read text j i

variable {read}

theorem Matched.letters {text : List α} {i j : Nat} (matched : Matched read text i j) :
    (∃ c kind, text[i]? = some c ∧ read c = some (.opens kind)) ∧
      ∃ c kind, text[j]? = some c ∧ read c = some (.closes kind) := by
  obtain ⟨before, opener, inner, closer, after, kind, rfl, rfl, rfl, opens, closes, _⟩ := matched
  refine ⟨⟨opener, kind, ?_, opens⟩, closer, kind, ?_, closes⟩
  · rw [List.getElem?_append_right (Nat.le_refl _), Nat.sub_self]
    rfl
  · rw [List.getElem?_append_right (by omega), Nat.add_assoc, Nat.add_sub_cancel_left, Nat.add_comm,
      List.getElem?_cons_succ, List.getElem?_append_right (Nat.le_refl _), Nat.sub_self]
    rfl

/-! ## What is open -/

/-- What was scanned, as the brackets that are still open and well nested texts after each. -/
inductive Stacked (read : α → Option (Letter κ)) (lost : List α) : List α → List (κ × Nat) → Prop
  | bottom {text : List α} (nested : WellNested (word read text)) : Stacked read lost (lost ++ text) []
  | push {before text : List α} {opener : α} {kind : κ} {below : List (κ × Nat)}
      (deeper : Stacked read lost before below) (opens : read opener = some (.opens kind))
      (nested : WellNested (word read text)) :
      Stacked read lost (before ++ opener :: text) ((kind, before.length) :: below)

theorem Stacked.extend {lost scanned : List α} {opened : List (κ × Nat)} (stacked : Stacked read lost scanned opened)
    {text : List α} (nested : WellNested (word read text)) : Stacked read lost (scanned ++ text) opened := by
  cases stacked with
  | bottom earlier =>
    rw [List.append_assoc]
    exact .bottom (word_append read _ _ ▸ earlier.append nested)
  | push deeper opens earlier =>
    rw [List.append_assoc, List.cons_append]
    exact .push deeper opens (word_append read _ _ ▸ earlier.append nested)

theorem Stacked.opening {lost scanned : List α} {opened : List (κ × Nat)} (stacked : Stacked read lost scanned opened)
    {c : α} {kind : κ} (opens : read c = some (.opens kind)) :
    Stacked read lost (scanned ++ [c]) ((kind, scanned.length) :: opened) := .push stacked opens .nil

theorem Stacked.closing {lost scanned : List α} {kind : κ} {i : Nat} {below : List (κ × Nat)}
    (stacked : Stacked read lost scanned ((kind, i) :: below)) {c : α} (closes : read c = some (.closes kind)) :
    Stacked read lost (scanned ++ [c]) below := by
  cases stacked with
  | @push before text opener _ _ deeper opens nested =>
    rw [List.append_assoc]
    refine deeper.extend ?_
    have pair := WellNested.pair kind nested .nil
    simpa [opens, closes] using pair

/-- What is on top of the stack is what the next closing bracket closes. -/
theorem Stacked.matched {lost scanned : List α} {kind : κ} {i : Nat} {below : List (κ × Nat)}
    (stacked : Stacked read lost scanned ((kind, i) :: below)) {c : α} (closes : read c = some (.closes kind))
    (after : List α) : Matched read (scanned ++ c :: after) i scanned.length := by
  cases stacked with
  | @push before text opener _ _ deeper opens nested =>
    refine ⟨before, opener, text, c, after, kind, ?_, rfl, ?_, opens, closes, nested⟩
    · rw [List.append_assoc, List.cons_append]
    · rw [List.length_append, List.length_cons]
      omega

/-! ## The stack -/

/-- What is open, the latest first, and where something closed that should not. -/
structure Stack (κ : Type) where
  opened : List (κ × Nat)
  stray : List Nat

variable [DecidableEq κ] (read)

def Stack.step (stack : Stack κ) (i : Nat) : Letter κ → Stack κ
  | .opens kind => { stack with opened := (kind, i) :: stack.opened }
  | .closes kind =>
    if stack.opened.head?.map Prod.fst = some kind then { stack with opened := stack.opened.tail }
    else { opened := stack.opened.tail, stray := stack.stray ++ [i] }

def stackFrom : List α → Nat → Stack κ → Stack κ
  | [], _, stack => stack
  | c :: rest, i, stack => stackFrom rest (i + 1) ((read c).elim stack (stack.step i))

def stackOf (text : List α) : Stack κ := stackFrom read text 0 ⟨[], []⟩

variable {read}

theorem stackFrom_append (first second : List α) (i : Nat) (stack : Stack κ) :
    stackFrom read (first ++ second) i stack =
      stackFrom read second (i + first.length) (stackFrom read first i stack) := by
  induction first generalizing i stack with
  | nil => rfl
  | cons c rest ih =>
    rw [List.cons_append, stackFrom, stackFrom, ih, List.length_cons]
    congr 1
    omega

theorem stackFrom_none {text : List α} (none : ∀ c ∈ text, read c = none) (i : Nat) (stack : Stack κ) :
    stackFrom read text i stack = stack := by
  induction text generalizing i with
  | nil => rfl
  | cons c rest ih =>
    rw [stackFrom, none c List.mem_cons_self]
    exact ih (fun c member => none c (List.mem_cons_of_mem _ member)) _

/-- What is scanned of a text that goes on with a bracket. -/
theorem stackOf_concat (text : List α) (c : α) :
    stackOf read (text ++ [c]) = (read c).elim (stackOf read text) ((stackOf read text).step text.length) := by
  rw [stackOf, stackFrom_append, Nat.zero_add]
  rfl

/-- A well nested text leaves the stack as it was. -/
theorem WellNested.passed {letters : List (Letter κ)} (nested : WellNested letters) {text : List α}
    (same : word read text = letters) (i : Nat) (stack : Stack κ) : stackFrom read text i stack = stack := by
  induction nested generalizing text i stack with
  | nil => exact stackFrom_none (List.filterMap_eq_nil_iff.mp same) i stack
  | @pair kind inner rest nested later nestedIh laterIh =>
    obtain ⟨before, opener, afterOpener, rfl, plainBefore, opens, same⟩ := List.filterMap_eq_cons_iff.mp same
    obtain ⟨middle, afterMiddle, rfl, inside, same⟩ := List.filterMap_eq_append_iff.mp same
    obtain ⟨gap, closer, after, rfl, plainGap, closes, same⟩ := List.filterMap_eq_cons_iff.mp same
    rw [stackFrom_append, stackFrom_none plainBefore, stackFrom, opens, stackFrom_append, nestedIh inside,
      stackFrom_append, stackFrom_none plainGap, stackFrom, closes, laterIh same]
    simp [Stack.step]

/-- A text is well nested if the stack ends empty and nothing strayed. -/
theorem clean_of_wellNested {text : List α} (nested : WellNested (word read text)) : stackOf read text = ⟨[], []⟩ :=
  nested.passed rfl 0 _

theorem stacked_of_clean (text : List α) (clean : (stackOf read text).stray = []) :
    Stacked read [] text (stackOf read text).opened := by
  induction text using List.reverseRecOn with
  | nil => exact .bottom .nil
  | append_singleton text c ih =>
    rw [stackOf_concat] at clean ⊢
    cases here : read c with
    | none =>
      rw [here] at clean
      exact (ih clean).extend (by rw [word_cons, here]; exact .nil)
    | some letter =>
      rw [here] at clean
      cases letter with
      | opens kind => exact (ih clean).opening here
      | closes kind =>
        simp only [Option.elim_some, Stack.step] at clean ⊢
        split at clean
        next closed =>
          rw [if_pos closed]
          have stacked := ih clean
          cases opened : (stackOf read text).opened with
          | nil =>
            rw [opened] at closed
            cases closed
          | cons top below =>
            obtain ⟨kind', i⟩ := top
            rw [opened] at closed stacked
            cases closed
            exact stacked.closing here
        next strayed =>
          exact absurd clean (List.append_ne_nil_of_right_ne_nil _ (List.cons_ne_nil _ _))

theorem wellNested_iff_clean (text : List α) :
    WellNested (word read text) ↔ (stackOf read text).stray = [] ∧ (stackOf read text).opened = [] := by
  constructor
  · intro nested
    rw [clean_of_wellNested nested]
    exact ⟨rfl, rfl⟩
  · rintro ⟨clean, closed⟩
    have stacked := stacked_of_clean text clean
    rw [closed] at stacked
    cases stacked with
    | bottom nested => exact nested

/-! ## The matching -/

/-- The stack when so much of the text is scanned. -/
def stackAt (read : α → Option (Letter κ)) (text : List α) (j : Nat) : Stack κ := stackOf read (text.take j)

theorem stackAt_length (text : List α) : stackAt read text text.length = stackOf read text := by
  rw [stackAt, List.take_length]

theorem stackAt_succ {text : List α} {j : Nat} {c : α} (here : text[j]? = some c) :
    stackAt read text (j + 1) = (read c).elim (stackAt read text j) ((stackAt read text j).step j) := by
  obtain ⟨within, same⟩ := List.getElem?_eq_some_iff.mp here
  rw [stackAt, List.take_succ_eq_append_getElem within, stackOf_concat, same, List.length_take,
    Nat.min_eq_left (Nat.le_of_lt within)]
  rfl

/-- What is open was opened before, and where it is. -/
theorem opens_of_opened {text : List α} {j : Nat} (within : j ≤ text.length) {entry : κ × Nat}
    (member : entry ∈ (stackAt read text j).opened) :
    entry.2 < j ∧ ∃ c, text[entry.2]? = some c ∧ read c = some (.opens entry.1) := by
  induction j with
  | zero => cases member
  | succ j ih =>
    have here := List.getElem?_eq_getElem (Nat.lt_of_succ_le within)
    have earlier (member : entry ∈ (stackAt read text j).opened) := ih (Nat.le_of_succ_le within) member
    rw [stackAt_succ here] at member
    cases letter : read text[j] with
    | none =>
      rw [letter] at member
      exact (earlier member).imp_left Nat.lt_succ_of_lt
    | some letter' =>
      rw [letter] at member
      cases letter' with
      | opens kind =>
        rcases List.mem_cons.mp member with rfl | member
        · exact ⟨Nat.lt_succ_self j, _, here, letter⟩
        · exact (earlier member).imp_left Nat.lt_succ_of_lt
      | closes kind =>
        have below : entry ∈ (stackAt read text j).opened.tail := by
          simp only [Option.elim_some, Stack.step] at member
          split at member <;> exact member
        exact (earlier (List.mem_of_mem_tail below)).imp_left Nat.lt_succ_of_lt

/-- What is open was open already, or is opened since. -/
theorem opened_since {text : List α} {i j : Nat} (later : i ≤ j) (within : j ≤ text.length) {entry : κ × Nat}
    (member : entry ∈ (stackAt read text j).opened) : entry ∈ (stackAt read text i).opened ∨ i ≤ entry.2 := by
  induction later with
  | refl => exact Or.inl member
  | @step j later ih =>
    have here := List.getElem?_eq_getElem (Nat.lt_of_succ_le within)
    have earlier (member : entry ∈ (stackAt read text j).opened) := ih (Nat.le_of_succ_le within) member
    rw [stackAt_succ here] at member
    cases letter : read text[j] with
    | none =>
      rw [letter] at member
      exact earlier member
    | some letter' =>
      rw [letter] at member
      cases letter' with
      | opens kind =>
        rcases List.mem_cons.mp member with rfl | member
        · exact Or.inr later
        · exact earlier member
      | closes kind =>
        have below : entry ∈ (stackAt read text j).opened.tail := by
          simp only [Option.elim_some, Stack.step] at member
          split at member <;> exact member
        exact earlier (List.mem_of_mem_tail below)

/-- Where one bracket closes another, that one is on top, and what was open before it is left. -/
theorem Matched.opened {text : List α} {i j : Nat} (matched : Matched read text i j) :
    i < j ∧ j < text.length ∧ (∃ kind, (stackAt read text j).opened = (kind, i) :: (stackAt read text i).opened) ∧
      (stackAt read text (j + 1)).opened = (stackAt read text i).opened := by
  obtain ⟨before, opener, inner, closer, after, kind, rfl, rfl, rfl, opens, closes, nested⟩ := matched
  have split : before ++ opener :: (inner ++ closer :: after) = (before ++ opener :: inner) ++ closer :: after := by
    rw [List.append_assoc, List.cons_append]
  have length : (before ++ opener :: inner).length = before.length + 1 + inner.length := by
    rw [List.length_append, List.length_cons]
    omega
  have closerHere :
      (before ++ opener :: (inner ++ closer :: after))[before.length + 1 + inner.length]? = some closer := by
    rw [split, ← length, List.getElem?_append_right (Nat.le_refl _), Nat.sub_self]
    rfl
  have first : stackAt read (before ++ opener :: (inner ++ closer :: after)) before.length = stackOf read before := by
    rw [stackAt, List.take_left']
    rfl
  have top : (stackAt read (before ++ opener :: (inner ++ closer :: after)) (before.length + 1 + inner.length)).opened =
      (kind, before.length) :: (stackOf read before).opened := by
    rw [stackAt, split, List.take_left' length, List.append_cons, stackOf, stackFrom_append, nested.passed rfl]
    have pushed : stackOf read (before ++ [opener]) = _ := stackOf_concat before opener
    rw [opens] at pushed
    exact congrArg Stack.opened pushed
  refine ⟨by omega, (List.getElem?_eq_some_iff.mp closerHere).1, ⟨kind, ?_⟩, ?_⟩
  · rw [top, first]
  · rw [stackAt_succ closerHere, closes, first]
    simp [Stack.step, top]

section OneKind
variable [Subsingleton κ]

/-- With one kind of bracket, nothing is closed by another kind, and the stack is always in
order. -/
theorem stacked_stackOf (read : α → Option (Letter κ)) (text : List α) :
    ∃ lost, Stacked read lost text (stackOf read text).opened := by
  induction text using List.reverseRecOn with
  | nil => exact ⟨[], .bottom .nil⟩
  | append_singleton text c ih =>
    obtain ⟨lost, stacked⟩ := ih
    rw [stackOf_concat]
    cases here : read c with
    | none => exact ⟨lost, stacked.extend (by rw [word_cons, here]; exact .nil)⟩
    | some letter =>
      cases letter with
      | opens kind => exact ⟨lost, stacked.opening here⟩
      | closes kind =>
        simp only [Option.elim_some, Stack.step]
        cases opened : (stackOf read text).opened with
        | nil =>
          have bottom : Stacked read (text ++ [c]) (text ++ [c] ++ []) _ := .bottom .nil
          rw [List.append_nil] at bottom
          exact ⟨_, bottom⟩
        | cons top below =>
          rw [opened] at stacked
          refine ⟨lost, ?_⟩
          have closed := stacked.closing (i := top.2) (Subsingleton.elim kind top.1 ▸ here)
          split <;> exact closed

/-- What is on top is closed next. -/
theorem matched_of_opened {text : List α} {j : Nat} {c : α} {kind : κ} (here : text[j]? = some c)
    (closes : read c = some (.closes kind)) {top : κ × Nat} {below : List (κ × Nat)}
    (opened : (stackAt read text j).opened = top :: below) : Matched read text top.2 j := by
  obtain ⟨within, same⟩ := List.getElem?_eq_some_iff.mp here
  obtain ⟨lost, stacked⟩ := stacked_stackOf read (text.take j)
  rw [stackAt] at opened
  rw [opened] at stacked
  have matched := stacked.matched (i := top.2) (Subsingleton.elim kind top.1 ▸ closes) (text.drop (j + 1))
  rwa [← same, ← List.drop_eq_getElem_cons, List.take_append_drop, List.length_take,
    Nat.min_eq_left (Nat.le_of_lt within)] at matched

theorem step_closes (stack : Stack κ) (j : Nat) (kind : κ) : stack.step j (.closes kind) =
    if stack.opened = [] then { opened := [], stray := stack.stray ++ [j] }
    else { stack with opened := stack.opened.tail } := by
  rw [Stack.step]
  cases opened : stack.opened with
  | nil => rfl
  | cons top below =>
    have same : (top :: below).head?.map Prod.fst = some kind := congrArg some (Subsingleton.elim _ _)
    rw [if_pos same, if_neg (List.cons_ne_nil _ _)]

/-- Only what closes where nothing is open strays. -/
theorem stray_succ {text : List α} {i j : Nat} {c : α} (here : text[j]? = some c) :
    i ∈ (stackAt read text (j + 1)).stray ↔ i ∈ (stackAt read text j).stray ∨
      i = j ∧ (∃ kind, read c = some (.closes kind)) ∧ (stackAt read text j).opened = [] := by
  rw [stackAt_succ here]
  cases letter : read c with
  | none => simp
  | some letter' =>
    cases letter' with
    | opens kind => simp [Stack.step]
    | closes kind =>
      rw [Option.elim_some, step_closes]
      split
      next empty => simp [empty]
      next busy => simp [busy]

theorem mem_stray {text : List α} {i j : Nat} (within : j ≤ text.length) :
    i ∈ (stackAt read text j).stray ↔
      i < j ∧ ∃ c kind, text[i]? = some c ∧ read c = some (.closes kind) ∧ (stackAt read text i).opened = [] := by
  induction j with
  | zero =>
    refine ⟨fun member => ?_, fun ⟨negative, _⟩ => absurd negative (Nat.not_lt_zero i)⟩
    cases member
  | succ j ih =>
    have here := List.getElem?_eq_getElem (Nat.lt_of_succ_le within)
    rw [stray_succ here, ih (Nat.le_of_succ_le within)]
    constructor
    · rintro (⟨earlier, strayed⟩ | ⟨rfl, ⟨kind, closes⟩, empty⟩)
      · exact ⟨Nat.lt_succ_of_lt earlier, strayed⟩
      · exact ⟨Nat.lt_succ_self i, _, kind, here, closes, empty⟩
    · rintro ⟨earlier, c, kind, present, closes, empty⟩
      rcases Nat.lt_succ_iff_lt_or_eq.mp earlier with earlier | rfl
      · exact Or.inl ⟨earlier, c, kind, present, closes, empty⟩
      · rw [here] at present
        exact Or.inr ⟨rfl, ⟨kind, Option.some.inj present ▸ closes⟩, empty⟩

/-- What strays is what closes and is matched with nothing. -/
theorem stray_iff {text : List α} {i : Nat} : i ∈ (stackOf read text).stray ↔
    (∃ c kind, text[i]? = some c ∧ read c = some (.closes kind)) ∧ Unmatched read text i := by
  rw [← stackAt_length, mem_stray (Nat.le_refl _)]
  constructor
  · rintro ⟨within, c, kind, here, closes, empty⟩
    refine ⟨⟨c, kind, here, closes⟩, ⟨c, _, here, closes⟩, fun j => ⟨fun matched => ?_, fun matched => ?_⟩⟩
    · obtain ⟨c', kind', here', opens⟩ := matched.letters.1
      rw [here] at here'
      rw [← Option.some.inj here', closes] at opens
      cases opens
    · obtain ⟨kind', top⟩ := matched.opened.2.2.1
      rw [empty] at top
      cases top
  · rintro ⟨⟨c, kind, here, closes⟩, _, alone⟩
    refine ⟨(List.getElem?_eq_some_iff.mp here).1, c, kind, here, closes, ?_⟩
    cases opened : (stackAt read text i).opened with
    | nil => rfl
    | cons top below => exact absurd (matched_of_opened here closes opened) (alone top.2).2

/-- What opens and is matched with nothing stays open. -/
theorem opened_of_unmatched {text : List α} {i j : Nat} {c : α} {kind : κ} (here : text[i]? = some c)
    (opens : read c = some (.opens kind)) (alone : ∀ j, ¬ Matched read text i j) (later : i + 1 ≤ j)
    (within : j ≤ text.length) : (kind, i) ∈ (stackAt read text j).opened := by
  induction later with
  | refl =>
    rw [stackAt_succ here, opens]
    exact List.mem_cons_self
  | @step j later ih =>
    have next := List.getElem?_eq_getElem (Nat.lt_of_succ_le within)
    have still := ih (Nat.le_of_succ_le within)
    rw [stackAt_succ next]
    cases letter : read text[j] with
    | none => exact still
    | some letter' =>
      cases letter' with
      | opens kind' => exact List.mem_cons_of_mem _ still
      | closes kind' =>
        rw [Option.elim_some, step_closes]
        cases opened : (stackAt read text j).opened with
        | nil =>
          rw [opened] at still
          cases still
        | cons top below =>
          rw [if_neg (List.cons_ne_nil _ _)]
          rw [opened] at still
          rcases List.mem_cons.mp still with rfl | still
          · exact absurd (matched_of_opened next letter opened) (alone j)
          · exact still

/-- What ends open is what opens and is matched with nothing. -/
theorem opened_iff {text : List α} {i : Nat} : i ∈ (stackOf read text).opened.map Prod.snd ↔
    (∃ c kind, text[i]? = some c ∧ read c = some (.opens kind)) ∧ Unmatched read text i := by
  rw [← stackAt_length, List.mem_map]
  constructor
  · rintro ⟨⟨kind, i⟩, member, rfl⟩
    obtain ⟨within, c, here, opens⟩ := opens_of_opened (Nat.le_refl _) member
    refine ⟨⟨c, kind, here, opens⟩, ⟨c, _, here, opens⟩, fun j => ⟨fun matched => ?_, fun matched => ?_⟩⟩
    · obtain ⟨earlier, bound, _, popped⟩ := matched.opened
      rcases opened_since (Nat.succ_le_of_lt bound) (Nat.le_refl _) member with member | later
      · rw [popped] at member
        exact Nat.lt_irrefl i (opens_of_opened (Nat.le_of_lt within) member).1
      · exact absurd earlier (Nat.not_lt.mpr (Nat.le_of_succ_le later))
    · obtain ⟨c', kind', here', closes⟩ := matched.letters.2
      rw [here] at here'
      rw [← Option.some.inj here', opens] at closes
      cases closes
  · rintro ⟨⟨c, kind, here, opens⟩, _, alone⟩
    have within := (List.getElem?_eq_some_iff.mp here).1
    exact ⟨(kind, i), opened_of_unmatched here opens (fun j => (alone j).1) within (Nat.le_refl _), rfl⟩

/-- What strays and what is open is listed by place. -/
theorem stackAt_sorted (read : α → Option (Letter κ)) {text : List α} {j : Nat} (within : j ≤ text.length) :
    (stackAt read text j).stray.Pairwise (· < ·) ∧ ((stackAt read text j).opened.map Prod.snd).Pairwise (· > ·) := by
  induction j with
  | zero => exact ⟨List.Pairwise.nil, List.Pairwise.nil⟩
  | succ j ih =>
    have here := List.getElem?_eq_getElem (Nat.lt_of_succ_le within)
    have bound := Nat.le_of_succ_le within
    obtain ⟨stray, opened⟩ := ih bound
    rw [stackAt_succ here]
    cases letter : read text[j] with
    | none => exact ⟨stray, opened⟩
    | some letter' =>
      cases letter' with
      | opens kind =>
        refine ⟨stray, List.pairwise_cons.mpr ⟨fun i member => ?_, opened⟩⟩
        obtain ⟨entry, listed, rfl⟩ := List.mem_map.mp member
        exact (opens_of_opened bound listed).1
      | closes kind =>
        rw [Option.elim_some, step_closes]
        split
        · refine ⟨List.pairwise_append.mpr ⟨stray, List.pairwise_singleton _ _, fun i member k last => ?_⟩, .nil⟩
          rw [List.mem_singleton.mp last]
          exact ((mem_stray bound).mp member).1
        · rw [List.map_tail]
          exact ⟨stray, opened.tail⟩

/-- The unmatched brackets, each once: what strays, and then what is never closed. -/
def unmatched (read : α → Option (Letter κ)) (text : List α) : List Nat :=
  (stackOf read text).stray ++ ((stackOf read text).opened.map Prod.snd).reverse

theorem mem_unmatched {text : List α} {i : Nat} : i ∈ unmatched read text ↔ Unmatched read text i := by
  rw [unmatched, List.mem_append, List.mem_reverse, stray_iff, opened_iff]
  constructor
  · rintro (⟨_, alone⟩ | ⟨_, alone⟩) <;> exact alone
  · intro alone
    obtain ⟨c, letter, here, reads⟩ := alone.1
    cases letter with
    | opens kind => exact Or.inr ⟨⟨c, kind, here, reads⟩, alone⟩
    | closes kind => exact Or.inl ⟨⟨c, kind, here, reads⟩, alone⟩

theorem unmatched_nodup (text : List α) : (unmatched read text).Nodup := by
  obtain ⟨stray, opened⟩ := stackAt_sorted read (Nat.le_refl text.length)
  rw [stackAt_length] at stray opened
  refine List.nodup_append.mpr ⟨stray.imp Nat.ne_of_lt, List.pairwise_reverse.mpr (opened.imp Nat.ne_of_lt), ?_⟩
  rintro i strayed j member rfl
  obtain ⟨⟨c, kind, here, closes⟩, _⟩ := stray_iff.mp strayed
  obtain ⟨⟨c', kind', here', opens⟩, _⟩ := opened_iff.mp (List.mem_reverse.mp member)
  rw [here] at here'
  rw [← Option.some.inj here', closes] at opens
  cases opens

end OneKind

end BracketWords
