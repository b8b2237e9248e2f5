import TouchTarget.Css.Lexeme

/-!
# The block structure of style text

A function, and an opening bracket of any kind, begins a block that runs to the bracket that closes
it. A closing bracket ends the innermost open block if it is of that block's kind, and has no
effect otherwise. What is open at the end of the text is closed there.

The blocks are found in one pass with a stack of those that are open. No lexeme is lost: the
lexemes of the components, read in order, are those that went in.
-/

namespace TouchTarget.Css

inductive Component
  | leaf (lexeme : Lexeme)
  /-- The closing lexeme is missing if the text ends before it. -/
  | block (opener : Lexeme) (body : List Component) (closer? : Option Lexeme)
deriving Repr, Inhabited

namespace Component

mutual

/-- The lexemes of a component, the brackets of a block included. -/
def lexemes : Component → List Lexeme
  | leaf lexeme => [lexeme]
  | block opener body closer? => opener :: lexemesIn body ++ closer?.toList

def lexemesIn : List Component → List Lexeme
  | [] => []
  | component :: rest => component.lexemes ++ lexemesIn rest

end

/-- The text from which components were read. -/
def text (components : List Component) : List Char :=
  Lexeme.joined (lexemesIn components)

def token? : Component → Option Token
  | leaf lexeme => some lexeme.token
  | block .. => none

/-- Blank space or a comment. -/
def isTrivia (component : Component) : Bool :=
  component.token?.any Token.isTrivia

def isSemicolon (component : Component) : Bool :=
  component.token? = some .semicolon

/-- The inside of a block that the given token begins. -/
def bodyOf? (token : Token) : Component → Option (List Component)
  | leaf _ => none
  | block opener body _ => if opener.token = token then some body else none

/-- The inside of a block in curly brackets. -/
def curlyBody? : Component → Option (List Component) :=
  bodyOf? (.opener .curly)

/-- The inside of a block in round brackets that is no function. -/
def roundBody? : Component → Option (List Component) :=
  bodyOf? (.opener .round)

end Component

/-! ## Finding the blocks -/

/-- A block that is still open, and what had been read around it before. -/
structure OpenBlock where
  opener : Lexeme
  before : List Component
deriving Repr, Inhabited

namespace OpenBlock

/-- What has been read: the innermost open block's body so far, last component in front. -/
abbrev Reading := List Component × List OpenBlock

def closes (lexeme : Lexeme) (block : OpenBlock) : Bool :=
  lexeme.token.closes?.isSome && lexeme.token.closes? == block.opener.token.opens?

def read : Reading → Lexeme → Reading
  | (current, stack), lexeme =>
    if lexeme.token.opens?.isSome then ([], ⟨lexeme, current⟩ :: stack)
    else match stack with
      | [] => (.leaf lexeme :: current, [])
      | block :: outer =>
        if block.closes lexeme then
          (.block block.opener current.reverse (some lexeme) :: block.before, outer)
        else (.leaf lexeme :: current, block :: outer)

/-- Closes what is open. -/
def finish (current : List Component) : List OpenBlock → List Component
  | [] => current.reverse
  | block :: outer => finish (.block block.opener current.reverse none :: block.before) outer

end OpenBlock

/-- The components that a list of lexemes makes up. -/
def Component.ofLexemes (lexemes : List Lexeme) : List Component :=
  let (current, stack) := lexemes.foldl OpenBlock.read ([], [])
  OpenBlock.finish current stack

/-- The components of style text. -/
def components (text : List Char) : List Component :=
  Component.ofLexemes (lexemes text)

/-! ## No lexeme is lost -/

namespace Component

@[simp] theorem lexemesIn_append (left right : List Component) :
    lexemesIn (left ++ right) = lexemesIn left ++ lexemesIn right := by
  induction left with
  | nil => rfl
  | cons component left ih => simp [lexemesIn, ih]

theorem lexemes_ne_nil (component : Component) : component.lexemes ≠ [] := by
  cases component <;> simp [lexemes]

theorem lexemesIn_eq_nil_iff {components : List Component} :
    lexemesIn components = [] ↔ components = [] := by
  cases components with
  | nil => simp [lexemesIn]
  | cons component components => simp [lexemesIn, component.lexemes_ne_nil]

theorem mem_lexemesIn {component : Component} {components : List Component}
    (hcomponent : component ∈ components) {lexeme : Lexeme} (h : lexeme ∈ component.lexemes) :
    lexeme ∈ lexemesIn components := by
  induction components with
  | nil => cases hcomponent
  | cons first components ih =>
    rw [lexemesIn, List.mem_append]
    rcases List.mem_cons.1 hcomponent with rfl | hmem
    · exact .inl h
    · exact .inr (ih hmem)

@[simp] theorem text_nil : text [] = [] := rfl

@[simp] theorem text_append (left right : List Component) :
    text (left ++ right) = text left ++ text right := by
  simp [text]

end Component

namespace OpenBlock

/-- The lexemes before the innermost open block's body. -/
def lexemesBefore : List OpenBlock → List Lexeme
  | [] => []
  | block :: outer =>
    lexemesBefore outer ++ Component.lexemesIn block.before.reverse ++ [block.opener]

/-- The lexemes that have been read. -/
def lexemesRead (reading : Reading) : List Lexeme :=
  lexemesBefore reading.2 ++ Component.lexemesIn reading.1.reverse

theorem lexemesRead_read (reading : Reading) (lexeme : Lexeme) :
    lexemesRead (read reading lexeme) = lexemesRead reading ++ [lexeme] := by
  obtain ⟨current, stack⟩ := reading
  by_cases hopens : lexeme.token.opens?.isSome
  · simp [read, hopens, lexemesRead, lexemesBefore, Component.lexemesIn]
  · cases stack with
    | nil => simp [read, hopens, lexemesRead, Component.lexemesIn, Component.lexemes]
    | cons block outer =>
      by_cases hcloses : block.closes lexeme <;>
        simp [read, hopens, hcloses, lexemesRead, lexemesBefore, Component.lexemesIn,
          Component.lexemes]

theorem lexemesRead_foldl (lexemes : List Lexeme) (reading : Reading) :
    lexemesRead (lexemes.foldl read reading) = lexemesRead reading ++ lexemes := by
  induction lexemes generalizing reading with
  | nil => simp
  | cons lexeme lexemes ih => simp [ih, lexemesRead_read]

theorem lexemesIn_finish (current : List Component) (stack : List OpenBlock) :
    Component.lexemesIn (finish current stack) = lexemesRead (current, stack) := by
  induction stack generalizing current with
  | nil => simp [finish, lexemesRead, lexemesBefore]
  | cons block outer ih =>
    simp [finish, ih, lexemesRead, lexemesBefore, Component.lexemesIn, Component.lexemes]

end OpenBlock

/-- The lexemes of the components are those that they were made of. -/
@[simp] theorem Component.lexemesIn_ofLexemes (lexemes : List Lexeme) :
    Component.lexemesIn (Component.ofLexemes lexemes) = lexemes := by
  rw [Component.ofLexemes, OpenBlock.lexemesIn_finish]
  exact OpenBlock.lexemesRead_foldl lexemes ([], [])

theorem lexemesIn_components (text : List Char) :
    Component.lexemesIn (components text) = lexemes text := by
  rw [components, Component.lexemesIn_ofLexemes]

theorem Component.mem_lexemes {text : List Char} {component : Component}
    (h : component ∈ components text) {lexeme : Lexeme} (hlexeme : lexeme ∈ component.lexemes) :
    lexeme ∈ Css.lexemes text := by
  rw [← lexemesIn_components]
  exact mem_lexemesIn h hlexeme

/-- The text of the components is the text that they were read from. -/
@[simp] theorem Component.text_components (text : List Char) :
    Component.text (components text) = text := by
  simp [Component.text, components]

end TouchTarget.Css
