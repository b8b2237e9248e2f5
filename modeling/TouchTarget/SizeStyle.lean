import TouchTarget.Css.Length
import TouchTarget.Html.StyleRegion
import TouchTarget.Rules.Reading

/-!
# The sizes that a sheet gives an element

Declarations are cascaded onto a style one after the other. A property that is present replaces
what the style had, also if its value is no length: the length is then unset again. What is absent
stays.

At a viewport width the base rules come first, then the active conditional rules from the widest to
the narrowest.
-/

namespace TouchTarget

structure SizeStyle where
  minWidth? : Option Pixels := none
  minHeight? : Option Pixels := none
  width? : Option Pixels := none
  height? : Option Pixels := none
  padding : Edges := {}
deriving DecidableEq, Repr, Inhabited

namespace SizeStyle

/-- The value of a property if it is declared, and otherwise the one from before. -/
def declared {α : Type} (declarations : Declarations) (property : String) (read : String → α)
    (before : α) : α :=
  (declarations[property]?.map read).getD before

def cascade (style : SizeStyle) (declarations : Declarations) : SizeStyle where
  minWidth? := declared declarations "min-width" Css.length? style.minWidth?
  minHeight? := declared declarations "min-height" Css.length? style.minHeight?
  width? := declared declarations "width" Css.length? style.width?
  height? := declared declarations "height" Css.length? style.height?
  padding := declared declarations "padding" Css.padding style.padding

/-- Cascades what a rule-set declares for a selector, if it has it at all. -/
def cascadeFrom (selector : String) (style : SizeStyle) (rules : RuleSet) : SizeStyle :=
  ((rules.get? selector).map style.cascade).getD style

end SizeStyle

namespace StyleSheet

/-- The style of a selector at a viewport width. -/
def resolve (sheet : StyleSheet) (selector : String) (width : Pixels) : SizeStyle :=
  ((sheet.activeAt width).map (·.rules)).foldl (SizeStyle.cascadeFrom selector)
    (SizeStyle.cascadeFrom selector {} sheet.base)

/-- The sheet of a document, empty if it has no style region. -/
def ofDocument (document : String) : StyleSheet :=
  ((Html.styleRegion? document).map parse).getD ∅

end StyleSheet

end TouchTarget
