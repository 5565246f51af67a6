import Mathlib.Data.List.Induction
import Mathlib.Data.List.TakeWhile
import Mathlib.Order.Basic

/-! Reports that come late. A thing is reported to be so or to be gone; a mirror
applies the reports as they come, and what it ought to show is what they say in
the order in which they were made. When a report comes after one that was made
later, the mirror is right exactly if the report tells it nothing new. -/
namespace LateReports

/-- What a mirror shows of a thing: how it is, or was when it went. -/
structure Mirrored (Definition : Type) where
  definition : Definition
  gone : Bool
  deriving DecidableEq

/-- What a report says of a thing. -/
inductive Word (Definition : Type) where
  | present (definition : Definition)
  | gone
  | silent
  deriving DecidableEq

variable {Definition : Type}

/-- A mirror after a word. What was never there cannot go. -/
def Word.apply : Word Definition → Option (Mirrored Definition) → Option (Mirrored Definition)
  | .present definition, _ => some ⟨definition, false⟩
  | .gone, mirror => mirror.map fun shown => { shown with gone := true }
  | .silent, mirror => mirror

/-- What a mirror shows after some words, one after the other. -/
def replay (words : List (Word Definition)) : Option (Mirrored Definition) :=
  words.foldl (fun mirror word => word.apply mirror) none

/-- The mirror shows already what the word says. -/
def Word.Agrees (word : Word Definition) (mirror : Option (Mirrored Definition)) : Prop :=
  match word with
  | .present definition => mirror = some ⟨definition, false⟩
  | .gone => ∀ shown, mirror = some shown → shown.gone = true
  | .silent => True

@[simp] theorem Word.apply_silent (mirror : Option (Mirrored Definition)) : Word.silent.apply mirror = mirror := rfl

/-- Of a thing that is gone, the mirror shows its last definition. -/
theorem Word.apply_gone (mirror : Option (Mirrored Definition)) :
    Word.gone.apply mirror = (mirror.map (·.definition)).map fun definition => ⟨definition, true⟩ := by
  rw [Option.map_map]
  rfl

theorem Word.apply_gone_ne (mirror : Option (Mirrored Definition)) (definition : Definition) :
    Word.gone.apply mirror ≠ some ⟨definition, false⟩ := by
  cases mirror <;> simp [apply]

/-- A word changes nothing exactly if the mirror shows already what it says. -/
theorem Word.apply_eq_self {word : Word Definition} {mirror : Option (Mirrored Definition)} :
    word.apply mirror = mirror ↔ word.Agrees mirror := by
  cases word with
  | present definition => exact eq_comm
  | gone =>
    cases mirror with
    | none => simp [apply, Agrees]
    | some shown =>
      obtain ⟨definition, gone⟩ := shown
      cases gone <;> simp [apply, Agrees]
  | silent => simp [apply, Agrees]

@[simp] theorem replay_append (words : List (Word Definition)) (word : Word Definition) :
    replay (words ++ [word]) = word.apply (replay words) := by
  simp [replay]

theorem replay_silent (earlier later : List (Word Definition)) :
    replay (earlier ++ .silent :: later) = replay (earlier ++ later) := by
  simp [replay, Word.apply]

/-- Words that a thing is gone, wherever they come, leave the definition. -/
theorem definition_replay_gone (earlier later : List (Word Definition)) :
    (replay (earlier ++ .gone :: later)).map (·.definition) = (replay (earlier ++ later)).map (·.definition) := by
  induction later using List.reverseRecOn with
  | nil =>
    rw [List.append_nil, replay_append, Word.apply, Option.map_map]
    rfl
  | append_singleton later word ih =>
    have left : earlier ++ .gone :: (later ++ [word]) = earlier ++ .gone :: later ++ [word] := by simp
    rw [left, ← List.append_assoc, replay_append, replay_append]
    cases word with
    | present definition => rfl
    | gone =>
      simp only [Word.apply, Option.map_map]
      exact ih
    | silent => exact ih

/-- **A mirror that applies a late word is right exactly if nothing was said since,
or it shows already what the word says.** -/
theorem apply_eq_replay_iff (earlier later : List (Word Definition)) (word : Word Definition) :
    word.apply (replay (earlier ++ later)) = replay (earlier ++ word :: later) ↔
      (∀ other ∈ later, other = .silent) ∨ word.Agrees (replay (earlier ++ later)) := by
  induction later using List.reverseRecOn with
  | nil => simp
  | append_singleton later last ih =>
    have right : earlier ++ word :: (later ++ [last]) = earlier ++ word :: later ++ [last] := by simp
    rw [right, ← List.append_assoc, replay_append, replay_append]
    cases last with
    | silent =>
      rw [Word.apply_silent, Word.apply_silent, ih]
      simp only [List.mem_append, List.mem_singleton]
      refine or_congr_left ⟨fun quiet other member => ?_, fun quiet other member => quiet other (.inl member)⟩
      exact member.elim (quiet other) id
    | present definition =>
      -- Both are as said last, so the word must have changed nothing.
      have spoken : ¬ ∀ other ∈ later ++ [Word.present definition], other = .silent := by
        intro quiet
        cases quiet _ (List.mem_append_right _ List.mem_cons_self)
      rw [or_iff_right spoken, ← Word.apply_eq_self]
      rfl
    | gone =>
      have spoken : ¬ ∀ other ∈ later ++ [(Word.gone : Word Definition)], other = .silent := by
        intro quiet
        cases quiet _ (List.mem_append_right _ List.mem_cons_self)
      rw [or_iff_right spoken]
      cases word with
      | present definition =>
        exact iff_of_false (Word.apply_gone_ne _ _).symm (Word.apply_gone_ne _ _)
      | gone =>
        refine iff_of_true ?_ (Word.apply_eq_self.mp ?_)
        · rw [Word.apply_gone (replay (earlier ++ .gone :: later)), definition_replay_gone, ← Word.apply_gone]
          exact Word.apply_eq_self.mpr fun shown isShown => by
            obtain ⟨definition, -, rfl⟩ := Option.map_eq_some_iff.mp isShown
            rfl
        · exact Word.apply_eq_self.mpr fun shown isShown => by
            obtain ⟨definition, -, rfl⟩ := Option.map_eq_some_iff.mp isShown
            rfl
      | silent =>
        refine iff_of_true ?_ trivial
        rw [replay_silent]
        rfl

/-! ## The order in which reports were made -/

section Order
variable {Report : Type} (made : Report → Nat)

/-- Put a report after those that were made before it, or with it. -/
def place (ordered : List Report) (report : Report) : List Report :=
  ordered.takeWhile (fun other => made other ≤ made report) ++
    report :: ordered.dropWhile (fun other => made other ≤ made report)

/-- Reports in the order in which they were made. Those made at the same time stay
in the order in which they came. -/
def inOrderMade (came : List Report) : List Report := came.foldl (place made) []

@[simp] theorem inOrderMade_append (came : List Report) (report : Report) :
    inOrderMade made (came ++ [report]) = place made (inOrderMade made came) report := by
  simp [inOrderMade]

theorem mem_place {ordered : List Report} {report other : Report} :
    other ∈ place made ordered report ↔ other = report ∨ other ∈ ordered := by
  conv => rhs; rw [← List.takeWhile_append_dropWhile (p := fun other => made other ≤ made report) (l := ordered)]
  simp only [place, List.mem_append, List.mem_cons]
  tauto

theorem mem_inOrderMade {came : List Report} {report : Report} : report ∈ inOrderMade made came ↔ report ∈ came := by
  induction came using List.reverseRecOn with
  | nil => simp [inOrderMade]
  | append_singleton came last ih =>
    rw [inOrderMade_append, mem_place, ih, List.mem_append, List.mem_singleton, or_comm]

/-- What comes behind a report when it is put in its place was made later. -/
theorem mem_dropWhile_made {ordered : List Report} (sorted : ordered.Pairwise fun a b => made a ≤ made b)
    {time : Nat} {report : Report} :
    report ∈ ordered.dropWhile (fun other => made other ≤ time) ↔ report ∈ ordered ∧ time < made report := by
  induction ordered with
  | nil => simp
  | cons first rest ih =>
    obtain ⟨least, sorted⟩ := List.pairwise_cons.mp sorted
    by_cases early : made first ≤ time
    · rw [List.dropWhile_cons, if_pos (by simpa using early), ih sorted, List.mem_cons]
      refine ⟨fun ⟨member, late⟩ => ⟨.inr member, late⟩, fun ⟨member, late⟩ => ⟨?_, late⟩⟩
      rcases member with rfl | member
      · omega
      · exact member
    · rw [List.dropWhile_cons, if_neg (by simpa using early)]
      refine ⟨fun member => ⟨member, ?_⟩, fun ⟨member, _⟩ => member⟩
      rcases List.mem_cons.mp member with rfl | behind
      · omega
      · have above := least report behind
        omega

theorem pairwise_place {ordered : List Report} (sorted : ordered.Pairwise fun a b => made a ≤ made b)
    (report : Report) : (place made ordered report).Pairwise fun a b => made a ≤ made b := by
  have early : ∀ other ∈ ordered.takeWhile (fun other => made other ≤ made report), made other ≤ made report :=
    fun other member => by simpa using List.mem_takeWhile_imp member
  have late : ∀ other ∈ ordered.dropWhile (fun other => made other ≤ made report), made report ≤ made other :=
    fun other member => ((mem_dropWhile_made made sorted).mp member).2.le
  refine List.pairwise_append.mpr ⟨sorted.sublist (List.takeWhile_sublist _), ?_, fun first member second other => ?_⟩
  · exact List.pairwise_cons.mpr ⟨late, sorted.sublist (List.dropWhile_sublist _)⟩
  · rcases List.mem_cons.mp other with rfl | behind
    · exact early first member
    · exact (early first member).trans (late second behind)

theorem pairwise_inOrderMade (came : List Report) :
    (inOrderMade made came).Pairwise fun a b => made a ≤ made b := by
  induction came using List.reverseRecOn with
  | nil => exact .nil
  | append_singleton came last ih =>
    rw [inOrderMade_append]
    exact pairwise_place made ih last

/-- **A mirror that applies a report when it comes shows what the reports say in the
order in which they were made, exactly if none made later has spoken, or it shows
already what the report says.** -/
theorem apply_eq_inOrderMade_iff (word : Report → Word Definition) (came : List Report) (report : Report) :
    (word report).apply (replay ((inOrderMade made came).map word)) =
        replay ((inOrderMade made (came ++ [report])).map word) ↔
      (∀ other ∈ came, made report < made other → word other = .silent) ∨
        (word report).Agrees (replay ((inOrderMade made came).map word)) := by
  have whole : (inOrderMade made came).map word =
      ((inOrderMade made came).takeWhile fun other => made other ≤ made report).map word ++
        ((inOrderMade made came).dropWhile fun other => made other ≤ made report).map word := by
    rw [← List.map_append, List.takeWhile_append_dropWhile]
  rw [inOrderMade_append, place, List.map_append, List.map_cons, whole, apply_eq_replay_iff]
  refine or_congr_left ?_
  simp only [List.forall_mem_map, mem_dropWhile_made made (pairwise_inOrderMade made came), mem_inOrderMade, and_imp]

end Order

end LateReports
