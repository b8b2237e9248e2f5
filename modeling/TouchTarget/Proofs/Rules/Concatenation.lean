import TouchTarget.Proofs.Css.Statements
import TouchTarget.Proofs.Rules.Merging
import TouchTarget.Rules.Reading

/-!
# The sheet of texts put together

A sheet is read statement by statement, and each statement adds to what is there. The statements
of a second text therefore add to the sheet of a first one what they would add to an empty sheet.
The main statement says this of texts: behind a complete text and a filler the reading begins anew,
so that the sheet of the whole is that of the first text merged with that of the second.
-/

namespace TouchTarget

open Css

namespace StyleSheet

/-- Rules added for a width are merged like a rule-set of that width. -/
theorem conditional?_addConditional_eq_merge (sheet : StyleSheet) (maxWidth width : Pixels)
    (rules : RuleSet) : (sheet.addConditional maxWidth rules).conditional? width =
      if maxWidth = width then
        Option.merge ConditionalRuleSet.merge (sheet.conditional? width) (some ⟨maxWidth, rules⟩)
      else sheet.conditional? width := by
  rw [conditional?_addConditional]
  split
  · cases sheet.conditional? width with
    | none =>
      rw [Option.getD_none, ConditionalRuleSet.mergeRules, RuleSet.empty_merge,
        Option.merge_none_left]
    | some present => rfl
  · rfl

/-! ## Merged sheets -/

/-- The third sheet is the first two in one, the second one winning: there are rules for a width if
one of them has any. -/
structure IsMerge (sheet others whole : StyleSheet) : Prop where
  base : whole.base = sheet.base.merge others.base
  conditional (width : Pixels) : whole.conditional? width =
    Option.merge ConditionalRuleSet.merge (sheet.conditional? width) (others.conditional? width)

theorem isMerge_empty (sheet : StyleSheet) : IsMerge sheet ∅ sheet where
  base := (RuleSet.merge_empty sheet.base).symm
  conditional width := by
    rw [conditional?_empty, Option.merge_none_right]

namespace IsMerge

variable {sheet others whole : StyleSheet}

theorem insertBase (h : IsMerge sheet others whole) (selector : String)
    (declarations : Declarations) : IsMerge sheet (others.insertBase selector declarations)
      (whole.insertBase selector declarations) where
  base := by rw [base_insertBase, base_insertBase, h.base, RuleSet.merge_insert]
  conditional := h.conditional

theorem addConditional (h : IsMerge sheet others whole) (maxWidth : Pixels) (rules : RuleSet) :
    IsMerge sheet (others.addConditional maxWidth rules)
      (whole.addConditional maxWidth rules) where
  base := h.base
  conditional width := by
    rw [conditional?_addConditional_eq_merge, conditional?_addConditional_eq_merge, h.conditional]
    split
    · exact Std.Associative.assoc _ _ _
    · rfl

/-- A statement read into the second sheet is read into the whole. -/
theorem read (h : IsMerge sheet others whole) (statement : Statement) :
    IsMerge sheet (others.read statement) (whole.read statement) := by
  unfold StyleSheet.read
  split
  · split
    · exact h.addConditional _ _
    · exact h
  · split
    · exact h.insertBase _ _
    · exact h

theorem foldl_read (h : IsMerge sheet others whole) (statements : List Statement) :
    IsMerge sheet (statements.foldl StyleSheet.read others)
      (statements.foldl StyleSheet.read whole) := by
  induction statements generalizing others whole with
  | nil => exact h
  | cons statement statements ih => exact ih (h.read statement)

end IsMerge

/-! ## Texts behind one another -/

/-- The sheet of a complete text, a filler and any other text has the rules of both texts, those of
the second one winning property by property: in the base and for each width for which one of them
has rules. -/
theorem parse_complete_append (text filler more : String) (htext : IsComplete text.toList)
    (hfiller : IsFiller filler.toList) :
    (parse (text ++ filler ++ more)).base = (parse text).base.merge (parse more).base ∧
      ∀ width : Pixels, (parse (text ++ filler ++ more)).conditional? width =
        Option.merge ConditionalRuleSet.merge ((parse text).conditional? width)
          ((parse more).conditional? width) := by
  have hstatements := calc
    Statement.rulesIn (components (text ++ filler ++ more).toList) =
        Statement.rulesIn (components (text.toList ++ (filler.toList ++ more.toList))) := by
      rw [String.toList_append, String.toList_append, List.append_assoc]
    _ = Statement.rulesIn (components text.toList) ++
        Statement.rulesIn (components (filler.toList ++ more.toList)) :=
      htext.rulesIn_append _
    _ = Statement.rulesIn (components text.toList) ++
        Statement.rulesIn (components more.toList) := by
      rw [hfiller.rulesIn_append]
  have hfold := calc
    parse (text ++ filler ++ more) = (Statement.rulesIn (components text.toList) ++
        Statement.rulesIn (components more.toList)).foldl read ∅ := by
      rw [parse, ofComponents, hstatements]
    _ = (Statement.rulesIn (components more.toList)).foldl read (parse text) :=
      List.foldl_append
  have hmerge : IsMerge (parse text) (parse more) (parse (text ++ filler ++ more)) := by
    rw [hfold]
    exact (isMerge_empty (parse text)).foldl_read _
  exact ⟨hmerge.base, hmerge.conditional⟩

/-- A rule, a filler with a stray bracket in it and a media rule that is cut off. -/
theorem parse_rule_append_media :
    IsComplete "a{width:1px}".toList ∧ IsFiller " <!--/**/)".toList ∧
      (parse ("a{width:1px}" ++ " <!--/**/)" ++ "@media (max-width:9px)\x7ba")).base =
        (parse "a{width:1px}").base.merge (parse "@media (max-width:9px)\x7ba").base ∧
      ∀ width : Pixels, (parse ("a{width:1px}" ++ " <!--/**/)" ++
          "@media (max-width:9px)\x7ba")).conditional? width =
        Option.merge ConditionalRuleSet.merge ((parse "a{width:1px}").conditional? width)
          ((parse "@media (max-width:9px)\x7ba").conditional? width) := by
  have htext : IsComplete "a{width:1px}".toList := by decide
  have hfiller : IsFiller " <!--/**/)".toList :=
    .space rfl (.markupOpen (@IsFiller.comment [] _ (by decide) (.closer (by decide) .nil)))
  exact ⟨htext, hfiller, parse_complete_append _ _ _ htext hfiller⟩

end StyleSheet

end TouchTarget
