import TouchTarget.SizeStyle

/-!
# Overlays of declared values

Cascading declarations changes a style only through the values that they give the five size
properties. An overlay puts such values over a style; it takes them from any source, so that one
set of declarations, a rule-set and a whole list of rule-sets are all laid over a style in the same
way. Two overlays in a row are one overlay, in which the later one is asked first.
-/

namespace TouchTarget

open Css

/-- The value that a rule-set declares for a property of a selector. -/
def RuleSet.value? (rules : RuleSet) (selector property : String) : Option String :=
  (rules.get? selector).bind (·[property]?)

namespace SizeStyle

/-- The style with the given values of the properties in place of what it had. -/
def overlay (values : String → Option String) (style : SizeStyle) : SizeStyle where
  minWidth? := ((values "min-width").map length?).getD style.minWidth?
  minHeight? := ((values "min-height").map length?).getD style.minHeight?
  width? := ((values "width").map length?).getD style.width?
  height? := ((values "height").map length?).getD style.height?
  padding := ((values "padding").map Css.padding).getD style.padding

/-- The properties of which a style takes notice. -/
def properties : List String :=
  ["min-width", "min-height", "width", "height", "padding"]

/-- Values of other properties leave no trace. -/
theorem overlay_congr {values others : String → Option String} (style : SizeStyle)
    (h : ∀ property ∈ properties, values property = others property) :
    overlay values style = overlay others style := by
  have hminWidth := h "min-width" (by simp [properties])
  have hminHeight := h "min-height" (by simp [properties])
  have hwidth := h "width" (by simp [properties])
  have hheight := h "height" (by simp [properties])
  have hpadding := h "padding" (by simp [properties])
  unfold overlay
  rw [hminWidth, hminHeight, hwidth, hheight, hpadding]

/-- The overlay that comes last is asked first. -/
theorem overlay_overlay (values before : String → Option String) (style : SizeStyle) :
    overlay values (overlay before style) =
      overlay (fun property ↦ (values property).or (before property)) style := by
  simp only [overlay, Option.map_or, Option.getD_or]

theorem cascade_eq_overlay (style : SizeStyle) (declarations : Declarations) :
    style.cascade declarations = overlay (declarations[·]?) style := rfl

theorem cascadeFrom_eq_overlay (selector : String) (style : SizeStyle) (rules : RuleSet) :
    cascadeFrom selector style rules = overlay (rules.value? selector) style := by
  unfold cascadeFrom RuleSet.value?
  cases rules.get? selector with
  | none => rfl
  | some declarations => exact cascade_eq_overlay style declarations

/-- Of rule-sets laid over a style one after the other, the last one first in the list, the first
one in the list that declares a property decides. -/
theorem foldr_cascadeFrom (selector : String) (style : SizeStyle) (sets : List RuleSet) :
    sets.foldr (fun rules before ↦ cascadeFrom selector before rules) style =
      overlay (fun property ↦ sets.findSome? (·.value? selector property)) style := by
  induction sets with
  | nil => rfl
  | cons rules sets ih =>
    rw [List.foldr_cons, ih, cascadeFrom_eq_overlay, overlay_overlay]
    congr 1
    funext property
    rw [List.findSome?_cons]
    cases rules.value? selector property <;> rfl

end SizeStyle

end TouchTarget
