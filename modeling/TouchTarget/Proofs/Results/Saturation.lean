import TouchTarget.Proofs.Results.Totals

/-!
# Bounded pixels and unbounded sums

A dimension of a box is a sum of three counts, bounded twice on the way: once for the two paddings
and once for all. The outcome is the unbounded sum, bounded once at the end. No minimum lies beyond
the bound, so that a bounded sum compares with a minimum as the unbounded one does, and a sum that
misses a minimum is not bounded at all. The main statement says that a verdict, its texts and its
totals are what the unbounded sums make of them.
-/

namespace TouchTarget

/-! ## Bounded counts -/

namespace Pixels

/-- Bounding a part of a sum makes no difference if the sum is bounded. -/
theorem add_add (first second third : Pixels) :
    add first (add second third) = clamp (first.toNat + second.toNat + third.toNat) := by
  apply UInt32.toNat_inj.1
  rw [toNat_add, toNat_add, toNat_clamp]
  omega

theorem le_clamp_iff (minimum : Pixels) (count : Nat) :
    minimum ≤ clamp count ↔ minimum.toNat ≤ count := by
  have hminimum : minimum.toNat < UInt32.size := minimum.toNat_lt_size
  rw [UInt32.le_iff_toNat_le, toNat_clamp]
  omega

theorem clamp_lt_iff (count : Nat) (minimum : Pixels) :
    clamp count < minimum ↔ count < minimum.toNat := by
  rw [← UInt32.not_le, le_clamp_iff, Nat.not_le]

/-- What misses a minimum is within the bound. -/
theorem toNat_clamp_of_lt {count : Nat} {minimum : Pixels} (h : count < minimum.toNat) :
    (clamp count).toNat = count := by
  have hminimum : minimum.toNat < UInt32.size := minimum.toNat_lt_size
  rw [toNat_clamp]
  omega

end Pixels

/-! ## The box -/

namespace SizeStyle

/-- The width of the box without a bound. -/
def fullWidth (style : SizeStyle) : Nat :=
  ((style.minWidth?.or style.width?).elim 0 UInt32.toNat) +
    style.padding.left.toNat + style.padding.right.toNat

/-- The height of the box without a bound. -/
def fullHeight (style : SizeStyle) : Nat :=
  ((style.minHeight?.or style.height?).elim 0 UInt32.toNat) +
    style.padding.top.toNat + style.padding.bottom.toNat

theorem box_eq_clamp (style : SizeStyle) :
    style.box = ⟨.clamp style.fullWidth, .clamp style.fullHeight⟩ := by
  have hdimension (dimension? : Option Pixels) :
      (dimension?.getD 0).toNat = dimension?.elim 0 UInt32.toNat := by
    cases dimension? <;> rfl
  rw [box, Edges.horizontal, Edges.vertical, Pixels.add_add, Pixels.add_add, hdimension,
    hdimension]
  rfl

end SizeStyle

/-! ## What is said of a box -/

/-- A width and a height reach a minimum. -/
def Reaches (width height minimum : Nat) : Prop :=
  minimum ≤ width ∧ minimum ≤ height

/-- They reach the minimum and the accessible size, but miss the recommended one. -/
def IsBarelyAccessible (width height minimum : Nat) : Prop :=
  Reaches width height minimum ∧ Reaches width height 44 ∧ (width < 48 ∨ height < 48)

instance (width height minimum : Nat) : Decidable (Reaches width height minimum) :=
  inferInstanceAs (Decidable (_ ∧ _))

instance (width height minimum : Nat) : Decidable (IsBarelyAccessible width height minimum) :=
  inferInstanceAs (Decidable (_ ∧ _))

namespace Box

variable (width height : Nat) (minimum : Pixels)

theorem reaches_clamp_iff :
    (Box.mk (.clamp width) (.clamp height)).reaches minimum ↔
      Reaches width height minimum.toNat := by
  rw [reaches_iff, Pixels.le_clamp_iff, Pixels.le_clamp_iff]
  rfl

theorem isWarnedAbout_clamp_iff :
    (Box.mk (.clamp width) (.clamp height)).isWarnedAbout minimum ↔
      IsBarelyAccessible width height minimum.toNat := by
  rw [isWarnedAbout_iff, reaches_clamp_iff, Pixels.le_clamp_iff, Pixels.le_clamp_iff,
    Pixels.clamp_lt_iff, Pixels.clamp_lt_iff]
  rfl

/-- The issue about a dimension that is too short names the unbounded number. -/
theorem message_clamp (issue : Pixels → Pixels → Issue) (text : Nat → String)
    (htext : ∀ size : Pixels, (issue size minimum).message = text size.toNat) (count : Nat) :
    (if minimum ≤ Pixels.clamp count then [] else [(issue (.clamp count) minimum).message]) =
      if count < minimum.toNat then [text count] else [] := by
  by_cases h : count < minimum.toNat
  · have hle : ¬minimum ≤ Pixels.clamp count :=
      UInt32.not_le.2 ((Pixels.clamp_lt_iff count minimum).2 h)
    rw [if_pos h, if_neg hle, htext, Pixels.toNat_clamp_of_lt h]
  · have hle : minimum ≤ Pixels.clamp count :=
      (Pixels.le_clamp_iff minimum count).2 (Nat.not_lt.1 h)
    rw [if_neg h, if_pos hle]

theorem messages_clamp :
    ((Box.mk (.clamp width) (.clamp height)).issues minimum).map Issue.message =
      (if width < minimum.toNat then
          [s!"Width {width}px is less than minimum {minimum}px"] else []) ++
        (if height < minimum.toNat then
          [s!"Height {height}px is less than minimum {minimum}px"] else []) ++
        if IsBarelyAccessible width height minimum.toNat then
          ["Below recommended 48x48px for mobile (but meets WCAG 44x44px)"] else [] := by
  have hwidth := message_clamp minimum .tooNarrow
    (fun size ↦ s!"Width {size}px is less than minimum {minimum}px") (fun _ ↦ rfl) width
  have hheight := message_clamp minimum .tooLow
    (fun size ↦ s!"Height {size}px is less than minimum {minimum}px") (fun _ ↦ rfl) height
  rw [issues, List.map_append, List.map_append, apply_ite (List.map Issue.message),
    apply_ite (List.map Issue.message), apply_ite (List.map Issue.message)]
  simp only [List.map_nil, List.map_cons, isWarnedAbout_clamp_iff, hwidth, hheight]
  rfl

end Box

theorem Summary.of_eq (target : Target) (viewport : Viewport) (box : Box) :
    of target viewport box =
      ⟨1, if box.reaches viewport.minSize then 1 else 0,
        if box.reaches viewport.minSize then 0 else 1,
        if box.isWarnedAbout viewport.minSize then 1 else 0⟩ := by
  rw [of, record, Verdict.passed_of]
  simp only [totalTests_zero, passed_zero, failed_zero, warnings_zero, Nat.zero_add]

/-- Each dimension of the box of a style is bounded once, after all has been added up. The verdict
passes if the unbounded dimensions reach the minimum of the viewport, each issue of one that does
not names the unbounded number, there is a warning if they pass and are accessible but one of them
is less than recommended, and the totals count just this. -/
theorem SizeStyle.verdict_of_unbounded (style : SizeStyle) (target : Target)
    (viewport : Viewport) :
    let verdict := Verdict.of target viewport style.box
    let width := style.fullWidth
    let height := style.fullHeight
    let minimum := viewport.minSize.toNat
    (verdict.passed ↔ minimum ≤ width ∧ minimum ≤ height) ∧
      verdict.issues =
        (if width < minimum then [s!"Width {width}px is less than minimum {minimum}px"] else []) ++
          (if height < minimum then
            [s!"Height {height}px is less than minimum {minimum}px"] else []) ++
          (if IsBarelyAccessible width height minimum then
            ["Below recommended 48x48px for mobile (but meets WCAG 44x44px)"] else []) ∧
      (verdict.isWarning ↔ IsBarelyAccessible width height minimum) ∧
      Summary.of target viewport style.box =
        ⟨1, if Reaches width height minimum then 1 else 0,
          if Reaches width height minimum then 0 else 1,
          if IsBarelyAccessible width height minimum then 1 else 0⟩ ∧
      verdict.actual.width.toNat = min width (UInt32.size - 1) ∧
      verdict.actual.height.toNat = min height (UInt32.size - 1) := by
  intro verdict width height minimum
  have hbox : style.box = ⟨.clamp width, .clamp height⟩ := style.box_eq_clamp
  have hpassed : verdict.passed = style.box.reaches viewport.minSize := Verdict.passed_of ..
  have hwarning : verdict.isWarning = style.box.isWarnedAbout viewport.minSize :=
    Verdict.isWarning_of ..
  refine ⟨?_, ?_, ?_, ?_, ?_, ?_⟩
  · rw [hpassed, hbox]
    exact Box.reaches_clamp_iff width height viewport.minSize
  · have hissues : verdict.issues = (style.box.issues viewport.minSize).map Issue.message := rfl
    rw [hissues, hbox]
    exact Box.messages_clamp width height viewport.minSize
  · rw [hwarning, hbox]
    exact Box.isWarnedAbout_clamp_iff width height viewport.minSize
  · rw [Summary.of_eq, hbox]
    simp only [Box.reaches_clamp_iff, Box.isWarnedAbout_clamp_iff]
    rfl
  · have hactual : verdict.actual.width = .clamp width := congrArg Box.width hbox
    rw [hactual]
    exact Pixels.toNat_clamp width
  · have hactual : verdict.actual.height = .clamp height := congrArg Box.height hbox
    rw [hactual]
    exact Pixels.toNat_clamp height

end TouchTarget
