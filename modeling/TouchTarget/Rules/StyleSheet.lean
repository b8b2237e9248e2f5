import TouchTarget.Pixels
import TouchTarget.Rules.RuleSet

/-!
# Style sheets

A sheet has base rules, and conditional rules for widths: these apply as long as the viewport is at
most that wide. There is at most one conditional rule-set for each width, into which all rules for
it are merged.

A conditional rule-set knows its width, and the sheet has it under a width. The two are the same:
each operation that changes a sheet proves that it keeps them so.

The rule-sets that apply to a viewport are ordered from the widest to the narrowest, so that a
narrower one has the last word. They are found by the widths under which the sheet has them, while a
single rule-set is asked for its own.
-/

namespace TouchTarget

structure ConditionalRuleSet where
  /-- The largest width of a viewport to which the rules apply. -/
  maxWidth : Pixels
  rules : RuleSet := ∅
deriving DecidableEq, Inhabited

namespace ConditionalRuleSet

def isActiveAt (conditional : ConditionalRuleSet) (width : Pixels) : Bool :=
  width ≤ conditional.maxWidth

/-- Merges rules into those of a rule-set, which keeps its width. -/
def mergeRules (conditional : ConditionalRuleSet) (rules : RuleSet) : ConditionalRuleSet :=
  { conditional with rules := conditional.rules.merge rules }

/-- Both rule-sets in one of the first one's width, the second one winning. -/
def merge (conditional other : ConditionalRuleSet) : ConditionalRuleSet :=
  conditional.mergeRules other.rules

end ConditionalRuleSet

/-- Conditional rule-sets under the widths for which rules were added. -/
abbrev ConditionalRules := Std.ExtTreeMap Pixels ConditionalRuleSet

namespace ConditionalRules

/-- Every rule-set stands under its own width. -/
def IsKeyed (conditional : ConditionalRules) : Prop :=
  ∀ (width : Pixels) (found : ConditionalRuleSet),
    conditional[width]? = some found → found.maxWidth = width

/-- Merges rules into the rule-set under a width; if there is none, one begins there. -/
def add (conditional : ConditionalRules) (maxWidth : Pixels) (rules : RuleSet) :
    ConditionalRules :=
  conditional.alter maxWidth fun present? ↦ some ((present?.getD { maxWidth }).mergeRules rules)

/-- The rule-sets under a width and those under larger ones, in the order of these widths. -/
def rangeFrom (conditional : ConditionalRules) (width : Pixels) : List ConditionalRuleSet :=
  (conditional.toList.dropWhile (·.1 < width)).map (·.2)

theorem getElem?_add (conditional : ConditionalRules) (maxWidth width : Pixels)
    (rules : RuleSet) : (conditional.add maxWidth rules)[width]? =
      if maxWidth = width then some ((conditional[width]?.getD { maxWidth }).mergeRules rules)
      else conditional[width]? := by
  rw [add, Std.ExtTreeMap.getElem?_alter]
  simp only [Std.LawfulEqOrd.compare_eq_iff_eq]
  split
  next hwidth => rw [hwidth]
  next => rfl

theorem isKeyed_empty : IsKeyed ∅ := by
  intro width found h
  rw [Std.ExtTreeMap.getElem?_empty] at h
  cases h

/-- What is added goes into a rule-set of its width, be it there already or a new one. -/
theorem IsKeyed.add {conditional : ConditionalRules} (h : conditional.IsKeyed)
    (maxWidth : Pixels) (rules : RuleSet) : (conditional.add maxWidth rules).IsKeyed := by
  intro width found hfound
  rw [getElem?_add] at hfound
  split at hfound
  next hwidth =>
    obtain rfl := Option.some.inj hfound
    change (conditional[width]?.getD { maxWidth }).maxWidth = width
    cases hpresent : conditional[width]? with
    | none => exact hwidth
    | some present => exact h width present hpresent
  next => exact h width found hfound

end ConditionalRules

structure StyleSheet where
  base : RuleSet := ∅
  conditional : ConditionalRules := ∅
  isKeyed : conditional.IsKeyed
deriving DecidableEq

namespace StyleSheet

instance : EmptyCollection StyleSheet := ⟨{ isKeyed := ConditionalRules.isKeyed_empty }⟩

instance : Inhabited StyleSheet := ⟨∅⟩

def insertBase (sheet : StyleSheet) (selector : String) (declarations : Declarations) :
    StyleSheet :=
  { sheet with base := sheet.base.insert selector declarations }

/-- Merges rules into those for a width; the width counts even if there are none. -/
def addConditional (sheet : StyleSheet) (maxWidth : Pixels) (rules : RuleSet) : StyleSheet where
  base := sheet.base
  conditional := sheet.conditional.add maxWidth rules
  isKeyed := sheet.isKeyed.add maxWidth rules

/-- The conditional rules for exactly this width. -/
def conditional? (sheet : StyleSheet) (maxWidth : Pixels) : Option ConditionalRuleSet :=
  sheet.conditional[maxWidth]?

/-- All conditional rule-sets, the narrowest first. -/
def conditionals (sheet : StyleSheet) : List ConditionalRuleSet :=
  sheet.conditional.toList.map (·.2)

/-- The conditional rule-sets that apply to a viewport, the widest first. -/
def activeAt (sheet : StyleSheet) (width : Pixels) : List ConditionalRuleSet :=
  (sheet.conditional.rangeFrom width).reverse

def isEmpty (sheet : StyleSheet) : Bool :=
  sheet.base.isEmpty && sheet.conditional.isEmpty

@[simp] theorem base_insertBase (sheet : StyleSheet) (selector : String)
    (declarations : Declarations) :
    (sheet.insertBase selector declarations).base = sheet.base.insert selector declarations := rfl

@[simp] theorem base_addConditional (sheet : StyleSheet) (maxWidth : Pixels) (rules : RuleSet) :
    (sheet.addConditional maxWidth rules).base = sheet.base := rfl

@[simp] theorem conditional?_empty (maxWidth : Pixels) :
    (∅ : StyleSheet).conditional? maxWidth = none :=
  Std.ExtTreeMap.getElem?_empty

theorem conditional?_addConditional (sheet : StyleSheet) (maxWidth width : Pixels)
    (rules : RuleSet) : (sheet.addConditional maxWidth rules).conditional? width =
      if maxWidth = width then
        some (((sheet.conditional? width).getD { maxWidth }).mergeRules rules)
      else sheet.conditional? width :=
  sheet.conditional.getElem?_add maxWidth width rules

end StyleSheet

end TouchTarget
