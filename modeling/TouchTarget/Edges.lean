import TouchTarget.Pixels

/-!
# Space on the four sides of an element
-/

namespace TouchTarget

structure Edges where
  top : Pixels := 0
  right : Pixels := 0
  bottom : Pixels := 0
  left : Pixels := 0
deriving DecidableEq, Repr, Inhabited

namespace Edges

def zero : Edges := {}

def uniform (side : Pixels) : Edges :=
  ⟨side, side, side, side⟩

def symmetric (vertical horizontal : Pixels) : Edges :=
  ⟨vertical, horizontal, vertical, horizontal⟩

/-- The space on the left and on the right together. -/
def horizontal (edges : Edges) : Pixels :=
  .add edges.left edges.right

/-- The space at the top and at the bottom together. -/
def vertical (edges : Edges) : Pixels :=
  .add edges.top edges.bottom

/-- The sides in the order top, right, bottom, left. -/
def toList (edges : Edges) : List Pixels :=
  [edges.top, edges.right, edges.bottom, edges.left]

/--
The sides that a list of lengths stands for: all of them, first the vertical and then the
horizontal ones, or each in the order of `toList`. Any other number of lengths stands for none.
-/
def ofShorthand : List Pixels → Edges
  | [all] => uniform all
  | [vertical, horizontal] => symmetric vertical horizontal
  | [top, right, bottom, left] => ⟨top, right, bottom, left⟩
  | _ => zero

theorem ofShorthand_eq_zero {lengths : List Pixels} (h : lengths.length ∉ [1, 2, 4]) :
    ofShorthand lengths = zero := by
  unfold ofShorthand
  split
  next => exact absurd List.mem_cons_self h
  next => exact absurd (List.mem_cons_of_mem 1 List.mem_cons_self) h
  next => exact absurd (List.mem_cons_of_mem 1 (List.mem_cons_of_mem 2 List.mem_cons_self)) h
  next => rfl

@[simp] theorem ofShorthand_toList (edges : Edges) : ofShorthand edges.toList = edges := rfl

end Edges

end TouchTarget
