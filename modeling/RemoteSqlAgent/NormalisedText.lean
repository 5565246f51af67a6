import RemoteSqlAgent.JsText
import Mathlib.Data.List.DropRight

/-! Text bodies are normalised before they are compared or hashed. Normalising
is done once and for all: a normalised text is its own normal form. -/
namespace RemoteSqlAgent
open Js

abbrev newline : CodeUnit := 0x0A
abbrev carriageReturn : CodeUnit := 0x0D

/-- `.replaceAll('\r\n', '\n')`. -/
def replaceCrLf : JsString → JsString
  | 0x0D :: 0x0A :: rest => newline :: replaceCrLf rest
  | unit :: rest => unit :: replaceCrLf rest
  | [] => []

/-- `.replaceAll('\r', '\n')`. -/
def replaceCr (text : JsString) : JsString :=
  text.map fun unit => if unit = carriageReturn then newline else unit

/-- `.replace(/[ \t]+$/u, '')`. -/
def trimLine (line : JsString) : JsString := line.rdropWhile fun unit => unit = 0x20 || unit = 0x09

/-- CRLF and CR become LF; trailing whitespace and trailing blank lines go. -/
def normaliseText (input : JsString) : JsString :=
  let lines := (replaceCr (replaceCrLf input)).splitOn newline
  ([newline].intercalate (lines.map trimLine)).rdropWhile (· = newline)

/-! ## Line ends -/

theorem replaceCrLf_eq_self {text : JsString} (absent : carriageReturn ∉ text) :
    replaceCrLf text = text := by
  induction text using replaceCrLf.induct with
  | case1 rest ih => simp at absent
  | case2 unit rest other ih =>
    rw [replaceCrLf, ih fun member => absent (List.mem_cons_of_mem _ member)]
    exact other
  | case3 => rfl

theorem replaceCr_eq_self {text : JsString} (absent : carriageReturn ∉ text) : replaceCr text = text := by
  refine (List.map_congr_left fun unit member => ?_).trans (List.map_id text)
  have other : unit ≠ carriageReturn := fun same => absent (same ▸ member)
  exact if_neg other

theorem carriageReturn_not_mem_replaceCr (text : JsString) : carriageReturn ∉ replaceCr text := by
  rw [replaceCr, List.mem_map]
  rintro ⟨unit, -, becomes⟩
  split at becomes
  · exact absurd becomes (by decide)
  · rename_i other
    exact other becomes

/-! ## Lines -/

/-- Lines joined by newlines. -/
def joinLines (lines : List JsString) : JsString := [newline].intercalate lines

/-- Lines without the blank ones at the end. -/
def dropBlank (lines : List JsString) : List JsString := lines.rdropWhile (· = [])

private theorem joinLines_concat {lines : List JsString} (nonempty : lines ≠ []) (line : JsString) :
    joinLines (lines ++ [line]) = joinLines lines ++ newline :: line := by
  induction lines with
  | nil => exact absurd rfl nonempty
  | cons first rest ih =>
    cases rest with
    | nil => simp [joinLines]
    | cons second rest =>
      have tail := ih (by simp)
      simp only [joinLines, List.cons_append, List.intercalate_cons_cons] at tail ⊢
      rw [tail]
      simp

/-- Removing newlines from the end of a text removes the blank lines there. -/
private theorem rdropWhile_joinLines {lines : List JsString} (each : ∀ line ∈ lines, newline ∉ line) :
    (joinLines lines).rdropWhile (· = newline) = joinLines (dropBlank lines) := by
  induction lines using List.reverseRecOn with
  | nil => rfl
  | append_singleton lines line ih =>
    have eachBefore : ∀ line ∈ lines, newline ∉ line := fun line member => each line (by simp [member])
    cases line using List.reverseRecOn with
    | nil =>
      rw [dropBlank, List.rdropWhile_concat_pos _ _ _ (by simp)]
      by_cases none_ : lines = []
      · subst none_
        rfl
      · rw [joinLines_concat none_, List.rdropWhile_concat_pos _ _ _ (by simp)]
        exact ih eachBefore
    | append_singleton front last =>
      have other : ¬last = newline := fun same => each (front ++ [last]) (by simp) (by simp [same])
      rw [dropBlank, List.rdropWhile_concat_neg _ _ _ (by simp)]
      by_cases none_ : lines = []
      · subst none_
        simp only [List.nil_append, joinLines, List.intercalate_singleton]
        exact List.rdropWhile_concat_neg _ _ _ (by simpa using other)
      · rw [joinLines_concat none_, ← List.cons_append, ← List.append_assoc]
        exact List.rdropWhile_concat_neg _ _ _ (by simpa using other)

private theorem trimLine_idempotent (line : JsString) : trimLine (trimLine line) = trimLine line :=
  List.rdropWhile_idempotent _ _

/-- The lines of a normalised text. -/
private theorem mem_lines {input line : JsString}
    (member : line ∈ ((replaceCr (replaceCrLf input)).splitOn newline).map trimLine) :
    newline ∉ line ∧ carriageReturn ∉ line ∧ trimLine line = line := by
  obtain ⟨source, from_, rfl⟩ := List.mem_map.mp member
  obtain ⟨clean, within⟩ := mem_splitOn from_
  have kept : ∀ unit ∈ trimLine source, unit ∈ source := fun unit there =>
    (List.rdropWhile_prefix _ _).subset there
  refine ⟨fun there => clean (kept _ there), fun there => ?_, trimLine_idempotent source⟩
  exact carriageReturn_not_mem_replaceCr _ (within _ (kept _ there))

private theorem carriageReturn_not_mem_joinLines {lines : List JsString}
    (each : ∀ line ∈ lines, carriageReturn ∉ line) : carriageReturn ∉ joinLines lines := by
  induction lines using List.reverseRecOn with
  | nil => simp [joinLines]
  | append_singleton lines line ih =>
    have before := ih fun line member => each line (by simp [member])
    have here := each line (by simp)
    by_cases none_ : lines = []
    · subst none_
      simpa [joinLines] using here
    · rw [joinLines_concat none_]
      simpa [before, here] using by decide

/-- **A normalised text is its own normal form.** -/
theorem normaliseText_idempotent (input : JsString) :
    normaliseText (normaliseText input) = normaliseText input := by
  have each : ∀ line ∈ dropBlank (((replaceCr (replaceCrLf input)).splitOn newline).map trimLine),
      newline ∉ line ∧ carriageReturn ∉ line ∧ trimLine line = line := fun line member =>
    mem_lines ((List.rdropWhile_prefix _ _).subset member)
  have normal : normaliseText input =
      joinLines (dropBlank (((replaceCr (replaceCrLf input)).splitOn newline).map trimLine)) :=
    rdropWhile_joinLines fun line member => (mem_lines member).1
  have blank : dropBlank (dropBlank (((replaceCr (replaceCrLf input)).splitOn newline).map trimLine)) =
      dropBlank (((replaceCr (replaceCrLf input)).splitOn newline).map trimLine) :=
    List.rdropWhile_idempotent _ _
  rw [normal]
  generalize dropBlank (((replaceCr (replaceCrLf input)).splitOn newline).map trimLine) = lines at each blank ⊢
  have clean := carriageReturn_not_mem_joinLines fun line member => (each line member).2.1
  have trimmed : lines.map trimLine = lines :=
    (List.map_congr_left fun line member => (each line member).2.2).trans (List.map_id lines)
  have ended := rdropWhile_joinLines fun line member => (each line member).1
  rw [blank] at ended
  unfold normaliseText
  dsimp only
  rw [replaceCrLf_eq_self clean, replaceCr_eq_self clean]
  by_cases none_ : lines = []
  · subst none_
    rfl
  · rw [joinLines, List.splitOn_intercalate _ (fun line member => (each line member).1) none_, trimmed]
    exact ended

end RemoteSqlAgent
