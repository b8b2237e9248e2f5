import TouchTarget.Css.Numeral
import TouchTarget.Css.Statement

/-!
# Media rules

A media rule is evaluated against the width of a viewport only. Its threshold is the width in the
first feature `(max-width: N px)` of its condition; the feature may be followed by anything inside
its brackets and stand among any others.
-/

namespace TouchTarget.Css

open Text

/-- The condition of a media rule, which is what follows the keyword. -/
def Statement.mediaCondition? (statement : Statement) : Option (List Component) :=
  match statement.head with
  | .leaf ⟨.atKeyword name, _⟩ :: condition =>
    if sameLetters name ['m', 'e', 'd', 'i', 'a'] then some condition else none
  | _ => none

def isMaxWidth (name : List Char) : Bool :=
  sameLetters name ['m', 'a', 'x', '-', 'w', 'i', 'd', 't', 'h']

/-- The width of a feature, given what stands between its brackets. -/
def maxWidth? (feature : List Component) : Option Pixels :=
  match feature.filter (!·.isTrivia) with
  | .leaf ⟨.ident name, _⟩ :: .leaf ⟨.colon, _⟩ :: .leaf ⟨width, _⟩ :: _ =>
    if isMaxWidth name then width.pixels? else none
  | _ => none

/-- The first width that a condition asks for. -/
def threshold? (condition : List Component) : Option Pixels :=
  condition.findSome? fun component ↦ component.roundBody?.bind maxWidth?

end TouchTarget.Css
