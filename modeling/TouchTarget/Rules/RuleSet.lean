import Std.Data.ExtTreeMap

/-!
# Declarations and rule-sets

Declarations give each property the text of its value. A rule-set gives each selector its
declarations. Selectors are keys without structure: two of them are the same only if their texts
are equal.

Inserting and merging work property by property, and what comes later wins. Both types are equal
as soon as their look-ups are, so that the order in which entries came does not show.
-/

namespace TouchTarget

/-- The text of the value of each property. -/
abbrev Declarations := Std.ExtTreeMap String String

structure RuleSet where
  rules : Std.ExtTreeMap String Declarations := ∅
deriving DecidableEq, Inhabited

namespace RuleSet

instance : EmptyCollection RuleSet := ⟨{}⟩

def get? (rules : RuleSet) (selector : String) : Option Declarations :=
  rules.rules[selector]?

/-- Puts declarations over those of a selector, which counts even if there are none. -/
def insert (rules : RuleSet) (selector : String) (declarations : Declarations) : RuleSet where
  rules := rules.rules.alter selector fun present? ↦ some (present?.getD ∅ ∪ declarations)

/-- The selectors with their declarations. -/
def toList (rules : RuleSet) : List (String × Declarations) :=
  rules.rules.toList

def insertAll (rules : RuleSet) (entries : List (String × Declarations)) : RuleSet :=
  entries.foldl (fun rules (selector, declarations) ↦ rules.insert selector declarations) rules

def ofList (entries : List (String × Declarations)) : RuleSet :=
  insertAll ∅ entries

/-- All rules of both, the second one winning. -/
def merge (rules others : RuleSet) : RuleSet :=
  rules.insertAll others.toList

def size (rules : RuleSet) : Nat :=
  rules.rules.size

def isEmpty (rules : RuleSet) : Bool :=
  rules.rules.isEmpty

/-! ## Look-ups -/

@[ext] theorem ext_get? {left right : RuleSet} (h : ∀ selector, left.get? selector =
    right.get? selector) : left = right := by
  cases left
  cases right
  congr
  exact Std.ExtTreeMap.ext_getElem? h

@[simp] theorem get?_empty (selector : String) : (∅ : RuleSet).get? selector = none :=
  Std.ExtTreeMap.getElem?_empty

theorem get?_insert (rules : RuleSet) (selector key : String) (declarations : Declarations) :
    (rules.insert selector declarations).get? key =
      if selector = key then some ((rules.get? selector).getD ∅ ∪ declarations)
      else rules.get? key := by
  simp [get?, insert, Std.ExtTreeMap.getElem?_alter]

@[simp] theorem get?_insert_self (rules : RuleSet) (selector : String)
    (declarations : Declarations) : (rules.insert selector declarations).get? selector =
      some ((rules.get? selector).getD ∅ ∪ declarations) := by
  simp [get?_insert]

@[simp] theorem insertAll_nil (rules : RuleSet) : rules.insertAll [] = rules := rfl

@[simp] theorem insertAll_cons (rules : RuleSet) (entry : String × Declarations)
    (entries : List (String × Declarations)) :
    rules.insertAll (entry :: entries) = (rules.insert entry.1 entry.2).insertAll entries := rfl

end RuleSet

end TouchTarget
