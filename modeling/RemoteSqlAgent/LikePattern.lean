import Mathlib.Data.List.Infix

/-! `LIKE`, on texts over any alphabet: a sign for any text, one for any letter, and one that
takes away the meaning of the next. A text that is escaped, between two signs for any text,
matches what contains it. -/
namespace Like

/-- The signs that mean something in a pattern. -/
structure Wildcards (α : Type) where
  any : α
  one : α
  escape : α
  any_ne_one : any ≠ one
  any_ne_escape : any ≠ escape
  one_ne_escape : one ≠ escape

inductive Token (α : Type) where
  | any
  | one
  | literal (letter : α)

variable {α : Type} [DecidableEq α] (wildcards : Wildcards α)

def Wildcards.token (letter : α) : Token α :=
  if letter = wildcards.any then .any else if letter = wildcards.one then .one else .literal letter

/-- Read a pattern. It must not end with the escape. -/
def tokens : List α → Option (List (Token α))
  | [] => some []
  | [letter] => if letter = wildcards.escape then none else some [wildcards.token letter]
  | letter :: next :: rest =>
    if letter = wildcards.escape then (tokens rest).map (.literal next :: ·)
    else (tokens (next :: rest)).map (wildcards.token letter :: ·)

/-- Whether the whole of a text is what a pattern asks for. -/
def matchesTokens : List (Token α) → List α → Bool
  | [], text => text.isEmpty
  | .any :: rest, text => text.tails.any (matchesTokens rest)
  | .one :: rest, text =>
    match text with
    | [] => false
    | _ :: text => matchesTokens rest text
  | .literal letter :: rest, text =>
    match text with
    | [] => false
    | first :: text => first = letter && matchesTokens rest text

/-- `text LIKE pattern`. A pattern that ends with the escape is an error. -/
def like (pattern text : List α) : Option Bool := (tokens wildcards pattern).map fun read => matchesTokens read text

/-- A letter, with the escape if it is a sign. -/
def Wildcards.escaped (letter : α) : List α :=
  if letter = wildcards.any ∨ letter = wildcards.one ∨ letter = wildcards.escape then [wildcards.escape, letter]
  else [letter]

variable {wildcards}

/-- A literal between escapes is read back letter by letter. -/
theorem tokens_escaped (literal rest : List α) : tokens wildcards (literal.flatMap wildcards.escaped ++ rest) =
    (tokens wildcards rest).map (literal.map .literal ++ ·) := by
  induction literal with
  | nil => simp
  | cons letter literal ih =>
    rw [List.flatMap_cons, List.append_assoc, Wildcards.escaped]
    split
    · rw [List.cons_append, List.singleton_append, tokens, if_pos rfl, ih, Option.map_map]
      rfl
    · rename_i plain
      rw [not_or, not_or] at plain
      have own : wildcards.token letter = .literal letter := by
        rw [Wildcards.token, if_neg plain.1, if_neg plain.2.1]
      have step : ∀ after, tokens wildcards (letter :: after) =
          (tokens wildcards after).map (.literal letter :: ·) := by
        intro after
        cases after with
        | nil => simp only [tokens, if_neg plain.2.2, own, Option.map_some]
        | cons next after => rw [tokens, if_neg plain.2.2, own]
      rw [List.singleton_append, step, ih, Option.map_map]
      rfl

theorem tokens_any (rest : List α) :
    tokens wildcards (wildcards.any :: rest) = (tokens wildcards rest).map (.any :: ·) := by
  have own : wildcards.token wildcards.any = .any := if_pos rfl
  cases rest with
  | nil => simp only [tokens, if_neg wildcards.any_ne_escape, own, Option.map_some]
  | cons next rest => rw [tokens, if_neg wildcards.any_ne_escape, own]

theorem matchesTokens_any {rest : List (Token α)} {text : List α} :
    matchesTokens (.any :: rest) text = true ↔ ∃ after, after <:+ text ∧ matchesTokens rest after = true := by
  simp [matchesTokens, List.any_eq_true, List.mem_tails]

/-- A literal matches at the front of a text. -/
theorem matchesTokens_literal (literal : List α) {rest : List (Token α)} {text : List α} :
    matchesTokens (literal.map .literal ++ rest) text = true ↔
      ∃ after, text = literal ++ after ∧ matchesTokens rest after = true := by
  induction literal generalizing text with
  | nil => simp
  | cons letter literal ih =>
    cases text with
    | nil => simp [matchesTokens]
    | cons first text =>
      rw [List.map_cons, List.cons_append, matchesTokens, Bool.and_eq_true, decide_eq_true_iff, ih]
      constructor
      · rintro ⟨rfl, after, rfl, matched⟩
        exact ⟨after, rfl, matched⟩
      · rintro ⟨after, same, matched⟩
        obtain ⟨rfl, rfl⟩ := List.cons.inj same
        exact ⟨rfl, after, rfl, matched⟩

/-- **An escaped text between two signs for any text matches what contains it.** -/
theorem like_contains (literal text : List α) :
    like wildcards (wildcards.any :: (literal.flatMap wildcards.escaped ++ [wildcards.any])) text =
      some (decide (literal <:+: text)) := by
  have read : tokens wildcards (wildcards.any :: (literal.flatMap wildcards.escaped ++ [wildcards.any])) =
      some (.any :: (literal.map .literal ++ [.any])) := by
    rw [tokens_any, tokens_escaped, tokens_any]
    rfl
  rw [like, read, Option.map_some]
  refine congrArg some (Bool.eq_iff_iff.mpr ?_)
  rw [matchesTokens_any, decide_eq_true_iff]
  constructor
  · rintro ⟨after, ⟨before, rfl⟩, matched⟩
    obtain ⟨rest, rfl, -⟩ := (matchesTokens_literal literal).mp matched
    exact ⟨before, rest, by rw [List.append_assoc]⟩
  · rintro ⟨before, rest, rfl⟩
    refine ⟨literal ++ rest, ⟨before, by rw [List.append_assoc]⟩, (matchesTokens_literal literal).mpr ⟨rest, rfl, ?_⟩⟩
    exact matchesTokens_any.mpr ⟨[], List.nil_suffix, rfl⟩

end Like
