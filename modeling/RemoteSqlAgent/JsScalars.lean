import RemoteSqlAgent.JsText

/-! Strings as UTF-8 has them: what it keeps, where it may be cut, and which texts are part
of which. -/
namespace Js

/-- `String.prototype.toWellFormed`. -/
def toWellFormed (s : JsString) : JsString := ofScalars (toScalars s)

/-- What UTF-8 keeps of a string. -/
theorem utf8_eq_iff {s t : JsString} : utf8 s = utf8 t ↔ toWellFormed s = toWellFormed t := by
  have kept : ∀ s, utf8 (toWellFormed s) = utf8 s := by
    intro s
    rw [utf8, toWellFormed, toScalars_ofScalars, utf8]
  constructor
  · intro same
    exact utf8_injective (ofScalars_wellFormed _) (ofScalars_wellFormed _) ((kept s).trans (same.trans (kept t).symm))
  · intro same
    rw [← kept s, same, kept t]

theorem toWellFormed_of_wellFormed {s : JsString} (wellFormed : IsWellFormed s) : toWellFormed s = s := wellFormed

/-- A text may be cut anywhere but in a surrogate pair. -/
theorem toScalars_append {s rest : JsString} (apart : ∀ high ∈ s.getLast?, ∀ low ∈ rest.head?,
    ¬ (isHighSurrogate high && isLowSurrogate low) = true) : toScalars (s ++ rest) = toScalars s ++ toScalars rest := by
  induction s using toScalars.induct with
  | case1 => rfl
  | case2 last =>
    cases rest with
    | nil => rfl
    | cons first rest =>
      have lone := apart last rfl first rfl
      rw [List.singleton_append, toScalars.eq_3, if_neg lone]
      rfl
  | case3 first second later paired ih =>
    rw [List.cons_append, List.cons_append, toScalars, if_pos paired, toScalars, if_pos paired, List.cons_append, ih]
    intro high isLast low isFirst
    cases later with
    | nil => cases isLast
    | cons third later => exact apart high isLast low isFirst
  | case4 first second later lone ih =>
    have later : toScalars (second :: (later ++ rest)) = toScalars (second :: later) ++ toScalars rest :=
      ih fun high isLast low isFirst => apart high isLast low isFirst
    rw [List.cons_append, List.cons_append, toScalars, if_neg lone, later, toScalars, if_neg lone, List.cons_append]

/-- A unit that is no surrogate parts a text for good. -/
theorem toScalars_append_cons {unit : CodeUnit} (notHigh : isHighSurrogate unit = false)
    (notLow : isLowSurrogate unit = false) (s rest : JsString) :
    toScalars (s ++ unit :: rest) = toScalars s ++ loneScalar unit :: toScalars rest := by
  have after : toScalars ([unit] ++ rest) = loneScalar unit :: toScalars rest := by
    rw [toScalars_append]
    · rfl
    · intro high isLast low _ paired
      obtain rfl := Option.some.inj isLast
      simp [notHigh] at paired
  rw [List.singleton_append] at after
  rw [toScalars_append, after]
  intro high _ low isFirst paired
  obtain rfl := Option.some.inj isFirst
  simp [notLow] at paired

/-- A character does not start with half a pair, nor end with it. -/
theorem unitsOfChar_ends (c : Char) : (∀ unit ∈ (unitsOfChar c).head?, isLowSurrogate unit = false) ∧
    (∀ unit ∈ (unitsOfChar c).getLast?, isHighSurrogate unit = false) ∧ unitsOfChar c ≠ [] := by
  have valid : c.toNat < 0xD800 ∨ (0xDFFF < c.toNat ∧ c.toNat < 0x110000) := c.valid
  unfold unitsOfChar
  split
  · rename_i basic
    have value : (Fin.ofNat 0x10000 c.toNat).val = c.toNat := Nat.mod_eq_of_lt basic
    refine ⟨?_, ?_, List.cons_ne_nil _ _⟩
    · intro unit isFirst
      obtain rfl := Option.some.inj isFirst
      simp only [isLowSurrogate, value, Bool.and_eq_false_iff, decide_eq_false_iff_not]
      omega
    · intro unit isLast
      have same : Fin.ofNat 0x10000 c.toNat = unit := Option.some.inj isLast
      subst same
      simp only [isHighSurrogate, value, Bool.and_eq_false_iff, decide_eq_false_iff_not]
      omega
  · have first : (Fin.ofNat 0x10000 (0xD800 + (c.toNat - 0x10000) / 0x400)).val =
        0xD800 + (c.toNat - 0x10000) / 0x400 := Nat.mod_eq_of_lt (by omega)
    have second : (Fin.ofNat 0x10000 (0xDC00 + (c.toNat - 0x10000) % 0x400)).val =
        0xDC00 + (c.toNat - 0x10000) % 0x400 := Nat.mod_eq_of_lt (by omega)
    refine ⟨?_, ?_, List.cons_ne_nil _ _⟩
    · intro unit isFirst
      obtain rfl := Option.some.inj isFirst
      simp only [isLowSurrogate, first, Bool.and_eq_false_iff, decide_eq_false_iff_not]
      omega
    · intro unit isLast
      have same : Fin.ofNat 0x10000 (0xDC00 + (c.toNat - 0x10000) % 0x400) = unit := Option.some.inj isLast
      subst same
      simp only [isHighSurrogate, second, Bool.and_eq_false_iff, decide_eq_false_iff_not]
      omega

/-- A well-formed text does not start with half a pair, nor end with it. -/
theorem IsWellFormed.ends {s : JsString} (wellFormed : IsWellFormed s) :
    (∀ unit ∈ s.head?, isLowSurrogate unit = false) ∧ ∀ unit ∈ s.getLast?, isHighSurrogate unit = false := by
  rw [← wellFormed]
  generalize toScalars s = scalars
  constructor
  · intro unit isFirst
    cases scalars with
    | nil => cases isFirst
    | cons c rest =>
      obtain ⟨starts, -, some_⟩ := unitsOfChar_ends c
      rw [ofScalars, List.flatMap_cons, List.head?_append_of_ne_nil _ some_] at isFirst
      exact starts unit isFirst
  · intro unit isLast
    rcases List.eq_nil_or_concat scalars with rfl | ⟨rest, c, rfl⟩
    · cases isLast
    · obtain ⟨-, finishes, some_⟩ := unitsOfChar_ends c
      rw [List.concat_eq_append, ofScalars_append, ofScalars, ofScalars, List.flatMap_singleton,
        List.getLast?_append_of_ne_nil _ some_] at isLast
      exact finishes unit isLast

/-- A well-formed text is part of another if its characters are. -/
theorem infix_iff_toScalars {part : JsString} (wellFormed : IsWellFormed part) {s : JsString} (also : IsWellFormed s) :
    part <:+: s ↔ toScalars part <:+: toScalars s := by
  obtain ⟨starts, finishes⟩ := wellFormed.ends
  constructor
  · rintro ⟨before, after, rfl⟩
    cases part with
    | nil => exact List.nil_infix
    | cons first rest =>
      refine ⟨toScalars before, toScalars after, ?_⟩
      rw [toScalars_append, toScalars_append]
      · intro high _ low isFirst paired
        simp [starts low isFirst] at paired
      · intro high isLast low _ paired
        rw [List.getLast?_append_of_ne_nil _ (List.cons_ne_nil first rest)] at isLast
        simp [finishes high isLast] at paired
  · rintro ⟨before, after, same⟩
    refine ⟨ofScalars before, ofScalars after, ?_⟩
    rw [← also, ← same, ofScalars_append, ofScalars_append, wellFormed]

end Js
