import TouchTarget.Css.Component
import TouchTarget.Css.Numeral
import TouchTarget.Edges
import TouchTarget.Text.Characters

/-!
# Lengths in declaration values

Only lengths in pixels carry meaning. The first one in the value counts, also if it stands inside
a function or inside round or square brackets; what stands in curly brackets does not count.

The padding shorthand is cut into words up to its first exclamation mark. Each word stands for the
length that it holds, or for no space at all.
-/

namespace TouchTarget.Css

namespace Component

mutual

def length? : Component → Option Pixels
  | leaf lexeme => lexeme.token.pixels?
  | block opener body _ => if opener.token = .opener .curly then none else lengthIn? body

def lengthIn? : List Component → Option Pixels
  | [] => none
  | component :: rest => component.length?.or (lengthIn? rest)

end

end Component

/-- The first length in pixels of a text. -/
def lengthOf? (text : List Char) : Option Pixels :=
  Component.lengthIn? (components text)

/-- The first length in pixels of a declaration value. -/
def length? (value : String) : Option Pixels :=
  lengthOf? value.toList

def wordLength (word : List Char) : Pixels :=
  (lengthOf? word).getD 0

/-- The sides that a value of the padding shorthand gives. -/
def padding (value : String) : Edges :=
  .ofShorthand ((Text.words (value.toList.takeWhile (· != '!'))).map wordLength)

end TouchTarget.Css
