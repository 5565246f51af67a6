import RemoteSqlAgent.TsqlMasking
import RemoteSqlAgent.TsqlRules
import Mathlib.Logic.ExistsUnique

/-! The T-SQL linter does not read what is quoted or commented: its findings are of the mask
and the line breaks. -/
namespace RemoteSqlAgent.Lint.Tsql
open Js

/-- Texts that are alike but for what is inside their regions are scanned alike. -/
theorem scan_alike {s t : JsString} {regions : List Region} (lexed : Lexed s 0 regions)
    (alike : AlikeOutside regions s t) :
    makeLocator t = makeLocator s ∧ scan t (makeLocator t) = scan s (makeLocator s) := by
  have also : Lexed t 0 regions := lexed.transport alike.length fun i _ => alike.inside i
  -- A line break of one is a line break of the other.
  have breaks : ∀ i : Nat, t[i]? = some lineFeed ↔ s[i]? = some lineFeed := by
    intro i
    by_cases apart : s[i]? = t[i]?
    · rw [apart]
    · obtain ⟨_, _, _, one, other⟩ := alike.inside i apart
      refine ⟨fun present => ?_, fun present => ?_⟩
      · exact absurd (other _ present).1 (by decide)
      · exact absurd (one _ present).1 (by decide)
  have located : makeLocator t = makeLocator s := makeLocator_congr alike.length.symm breaks
  refine ⟨located, ?_⟩
  have masks : regions.foldl blankRegion t = regions.foldl blankRegion s := by
    refine List.ext_getElem? fun i => ?_
    rw [getElem?_foldl_blank, getElem?_foldl_blank]
    by_cases apart : s[i]? = t[i]?
    · rw [apart]
    · obtain ⟨region, member, inside, one, other⟩ := alike.inside i apart
      have covered : Covered regions i := ⟨region, member, Nat.le_of_lt inside.after, inside.before⟩
      have within : i < s.length := by
        by_contra beyond
        rw [List.getElem?_eq_none (Nat.not_lt.mp beyond),
          List.getElem?_eq_none (alike.length ▸ Nat.not_lt.mp beyond)] at apart
        exact apart rfl
      have within' : i < t.length := alike.length ▸ within
      rw [List.getElem?_eq_getElem within] at one ⊢
      rw [List.getElem?_eq_getElem within'] at other ⊢
      simp only [covered, ↓reduceIte, Option.map_some, blanked, (one _ rfl).1, (other _ rfl).1, Bool.false_eq_true]
  rw [scan, scan, also.scanned, lexed.scanned, masks, located]

/-- The linter never reads literals. A text has one reading as code, comments, strings and
quoted identifiers. Its mask has its length and its line breaks, is blank in these regions and
the text elsewhere; and a text that differs only inside of them, in nothing that breaks a line
or delimits, has the same findings. -/
theorem reads_no_literals (text : JsString) :
    (∃! regions, Lexed text 0 regions) ∧
      ∀ regions, Lexed text 0 regions →
        (scan text (makeLocator text)).masked.length = text.length ∧
        (∀ i : Nat, (scan text (makeLocator text)).masked[i]? = some lineFeed ↔ text[i]? = some lineFeed) ∧
        (∀ i : Nat, (scan text (makeLocator text)).masked[i]? = some carriageReturn ↔
          text[i]? = some carriageReturn) ∧
        (∀ i : Nat, (scan text (makeLocator text)).masked[i]? =
          text[i]?.map fun unit => if Covered regions i then blanked unit else unit) ∧
        ∀ other, AlikeOutside regions text other → lintTsql other = lintTsql text := by
  obtain ⟨regions, lexed⟩ := exists_lexed text 0
  refine ⟨⟨regions, lexed, fun regions' lexed' => lexed'.unique lexed⟩, fun regions lexed => ?_⟩
  refine ⟨length_masked .., masked_break _ _ (by decide), masked_break _ _ (by decide), masked_at lexed _,
    fun other alike => ?_⟩
  obtain ⟨located, scanned⟩ := scan_alike lexed alike
  rw [located] at scanned
  simp only [lintTsql, located, scanned]

/-- The name that is inserted is not seen. -/
theorem reads_no_literals_name : lintTsql (js "N'b'") = lintTsql (js "N'a'") := by
  have region : IsRegion (js "N'a'") ⟨1, 4, .quoted quote, true⟩ :=
    .quoted (by decide) (by decide) (.other (by decide) (by decide) (.done 3)) (by decide) (by decide)
  have plain : ¬ Starts (js "N'a'") 0 := by
    rintro (⟨dashes, _⟩ | ⟨opens, _⟩ | ⟨c, here, quote⟩)
    · exact absurd dashes (by decide)
    · exact absurd opens (by decide)
    · obtain rfl : c = 0x4E := (Option.some.inj here).symm
      exact absurd quote (by decide)
  have lexed : Lexed (js "N'a'") 0 [⟨1, 4, .quoted quote, true⟩] :=
    .code (by decide) plain (.region region (.done (by decide)))
  refine ((reads_no_literals (js "N'a'")).2 _ lexed).2.2.2.2 _ ⟨by decide, fun i apart => ?_⟩
  obtain rfl | other : i = 2 ∨ i ≠ 2 := Decidable.em _
  · refine ⟨_, List.mem_cons_self, ⟨by decide, by decide⟩, fun unit here => ?_, fun unit here => ?_⟩
    · obtain rfl : unit = 0x61 := (Option.some.inj here).symm
      exact ⟨by decide, by decide⟩
    · obtain rfl : unit = 0x62 := (Option.some.inj here).symm
      exact ⟨by decide, by decide⟩
  · refine absurd ?_ apart
    rcases i with _ | _ | _ | _ | i
    · decide
    · decide
    · exact absurd rfl other
    · decide
    · rfl

end RemoteSqlAgent.Lint.Tsql
