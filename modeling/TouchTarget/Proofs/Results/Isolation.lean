import TouchTarget.Proofs.Cascade.Winner
import TouchTarget.Proofs.Results.Totals
import TouchTarget.Proofs.Rules.Concatenation

/-!
# Targets do not notice the rules of others

A target is checked under its selector alone, and a style takes notice of five properties. Two
sheets that declare the same of these for a selector therefore give it the same style at every
viewport. The main statement puts a text between two others: whatever rules, thresholds and stray
tokens it brings along, the verdicts on a selector stay as they were without it, as long as it
declares no size for that selector.
-/

namespace TouchTarget

open Css

namespace StyleSheet

/-- Neither the base rules nor those for any width declare a size for the selector. -/
def IsSilentOn (sheet : StyleSheet) (selector : String) : Prop :=
  ∀ property ∈ SizeStyle.properties, sheet.base.value? selector property = none ∧
    ∀ conditional ∈ sheet.conditionals, conditional.rules.value? selector property = none

instance (sheet : StyleSheet) (selector : String) : Decidable (sheet.IsSilentOn selector) :=
  inferInstanceAs (Decidable (∀ property ∈ SizeStyle.properties, _ ∧ _))

/-- Two sheets declare the same sizes for a selector. -/
structure AgreeOn (selector : String) (sheet other : StyleSheet) : Prop where
  base : ∀ property ∈ SizeStyle.properties,
    sheet.base.value? selector property = other.base.value? selector property
  conditional : ∀ property ∈ SizeStyle.properties, ∀ maxWidth,
    sheet.declaredFor? maxWidth selector property = other.declaredFor? maxWidth selector property

theorem AgreeOn.resolve_eq {selector : String} {sheet other : StyleSheet}
    (h : AgreeOn selector sheet other) (width : Pixels) :
    sheet.resolve selector width = other.resolve selector width := by
  rw [resolve_eq_overlay, resolve_eq_overlay]
  apply SizeStyle.overlay_congr
  intro property hproperty
  exact winner?_congr (h.base property hproperty)
    fun maxWidth _ ↦ h.conditional property hproperty maxWidth

theorem IsSilentOn.declaredFor?_eq_none {sheet : StyleSheet} {selector property : String}
    (h : sheet.IsSilentOn selector) (hproperty : property ∈ SizeStyle.properties)
    (maxWidth : Pixels) : sheet.declaredFor? maxWidth selector property = none := by
  rw [declaredFor?, Option.bind_eq_none_iff]
  intro conditional hconditional
  apply (h property hproperty).2
  rw [mem_conditionals_iff, maxWidth_of_conditional? hconditional]
  exact hconditional

/-! ## Merged sheets -/

namespace IsMerge

variable {sheet others whole : StyleSheet} {selector : String}

/-- What both declare for a width has the second one's value. -/
theorem declaredFor?_eq (h : IsMerge sheet others whole) (maxWidth : Pixels)
    (selector property : String) :
    whole.declaredFor? maxWidth selector property =
      (others.declaredFor? maxWidth selector property).or
        (sheet.declaredFor? maxWidth selector property) := by
  unfold declaredFor?
  rw [h.conditional]
  cases sheet.conditional? maxWidth with
  | none => rw [Option.merge_none_left, Option.bind_none, Option.or_none]
  | some present =>
    cases others.conditional? maxWidth with
    | none => rfl
    | some other => exact RuleSet.value?_merge present.rules other.rules selector property

/-- A sheet that is silent on a selector may be merged under another without a trace. -/
theorem agreeOn_of_isSilentOn (h : IsMerge sheet others whole)
    (hsilent : sheet.IsSilentOn selector) : AgreeOn selector whole others where
  base property hproperty := by
    rw [h.base, RuleSet.value?_merge, (hsilent property hproperty).1, Option.or_none]
  conditional property hproperty maxWidth := by
    rw [h.declaredFor?_eq, hsilent.declaredFor?_eq_none hproperty, Option.or_none]

/-- Sheets that agree on a selector still do when both are merged over the same one. -/
theorem agreeOn {replacement replaced : StyleSheet} (h : IsMerge sheet others whole)
    (hreplaced : IsMerge sheet replacement replaced)
    (hagree : AgreeOn selector others replacement) : AgreeOn selector whole replaced where
  base property hproperty := by
    rw [h.base, hreplaced.base, RuleSet.value?_merge, RuleSet.value?_merge,
      hagree.base property hproperty]
  conditional property hproperty maxWidth := by
    rw [h.declaredFor?_eq, hreplaced.declaredFor?_eq, hagree.conditional property hproperty]

end IsMerge

theorem isMerge_parse {text : String} (h : IsComplete text.toList) (more : String) :
    IsMerge (parse text) (parse more) (parse (text ++ more)) := by
  have hfold : parse (text ++ more) =
      (Statement.rulesIn (components more.toList)).foldl read (parse text) := by
    rw [parse, ofComponents, String.toList_append, h.rulesIn_append, List.foldl_append]
    rfl
  rw [hfold]
  exact (isMerge_empty (parse text)).foldl_read _

theorem agreeOn_parse_between {before between : String} (hbefore : IsComplete before.toList)
    (hbetween : IsComplete between.toList) (after : String) {selector : String}
    (hsilent : (parse between).IsSilentOn selector) :
    AgreeOn selector (parse (before ++ between ++ after)) (parse (before ++ after)) := by
  have hrest : AgreeOn selector (parse (between ++ after)) (parse after) :=
    (isMerge_parse hbetween after).agreeOn_of_isSilentOn hsilent
  rw [String.append_assoc]
  exact (isMerge_parse hbefore _).agreeOn (isMerge_parse hbefore after) hrest

/-! ## Verdicts -/

theorem AgreeOn.verdict_eq {selector : String} {sheet other : StyleSheet}
    (h : AgreeOn selector sheet other) (viewport : Viewport) (name : String) :
    sheet.verdict viewport ⟨selector, name⟩ = other.verdict viewport ⟨selector, name⟩ := by
  rw [verdict, verdict, boxOf, boxOf, h.resolve_eq]

/-- In the results of a run, the verdicts on the selector are the same. -/
theorem AgreeOn.verdicts_analyze_eq {selector : String} {sheet other : StyleSheet}
    (h : AgreeOn selector sheet other) (config : Config) (timestamp : String) :
    (config.analyze timestamp sheet).verdicts.filter (·.selector = selector) =
      (config.analyze timestamp other).verdicts.filter (·.selector = selector) := by
  rw [Config.verdicts_analyze, Config.verdicts_analyze, List.filter_flatMap, List.filter_flatMap]
  congr 1
  funext viewport
  rw [List.filter_map, List.filter_map]
  apply List.map_congr_left
  intro target htarget
  obtain rfl : target.selector = selector := of_decide_eq_true (List.mem_filter.1 htarget).2
  exact h.verdict_eq viewport target.name

/-- A complete text between a complete text and any other leaves a selector alone if it declares
none of the five size properties for it, neither in its base rules nor for any width. The selector
has the same style at every width then, every target with that selector has the same verdict at
every viewport, and a run has the same verdicts on the selector in the same order, whatever else
the text holds. -/
theorem resolve_parse_between (before between after : String) (hbefore : IsComplete before.toList)
    (hbetween : IsComplete between.toList) (selector : String)
    (hsilent : (parse between).IsSilentOn selector) :
    let withText := parse (before ++ between ++ after)
    let without := parse (before ++ after)
    (∀ width, withText.resolve selector width = without.resolve selector width) ∧
      (∀ viewport name, withText.verdict viewport ⟨selector, name⟩ =
        without.verdict viewport ⟨selector, name⟩) ∧
      ∀ (config : Config) (timestamp : String),
        (config.analyze timestamp withText).verdicts.filter (·.selector = selector) =
          (config.analyze timestamp without).verdicts.filter (·.selector = selector) := by
  intro withText without
  have hagree : AgreeOn selector withText without :=
    agreeOn_parse_between hbefore hbetween after hsilent
  exact ⟨hagree.resolve_eq, hagree.verdict_eq, hagree.verdicts_analyze_eq⟩

/-- A stray bracket, rules for another selector, a new threshold and other properties of the same
selector, in front of a rule that is cut off. -/
theorem resolve_parse_between_new_threshold :
    let between := ")b{width:2px}@import x;a{color:red}" ++
      "@media (max-width:9px)\x7ba{margin:0}b{height:3px}\x7d"
    IsComplete "a{width:1px}".toList ∧ IsComplete between.toList ∧
      (parse between).IsSilentOn "a" ∧
      (∀ width, (parse ("a{width:1px}" ++ between ++ "a\x7bheight:4px")).resolve "a" width =
        (parse ("a{width:1px}" ++ "a\x7bheight:4px")).resolve "a" width) ∧
      (∀ viewport name,
        (parse ("a{width:1px}" ++ between ++ "a\x7bheight:4px")).verdict viewport ⟨"a", name⟩ =
          (parse ("a{width:1px}" ++ "a\x7bheight:4px")).verdict viewport ⟨"a", name⟩) ∧
      ∀ (config : Config) (timestamp : String),
        (config.analyze timestamp (parse ("a{width:1px}" ++ between ++
            "a\x7bheight:4px"))).verdicts.filter (·.selector = "a") =
          (config.analyze timestamp (parse ("a{width:1px}" ++
            "a\x7bheight:4px"))).verdicts.filter (·.selector = "a") := by
  intro between
  have hbefore : IsComplete "a{width:1px}".toList := by decide
  have hbetween : IsComplete between.toList := by decide +kernel
  have hsilent : (parse between).IsSilentOn "a" := by decide +kernel
  exact ⟨hbefore, hbetween, hsilent,
    resolve_parse_between _ _ _ hbefore hbetween "a" hsilent⟩

end StyleSheet

end TouchTarget
