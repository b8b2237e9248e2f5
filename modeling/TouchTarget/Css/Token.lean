/-!
# Tokens of a style sheet

A token says what a piece of style text is. A lexeme is a token together with the text it was read
from, so that a list of lexemes keeps the text from which it came.

Names are kept with their escapes resolved. Nothing is computed from the digits of a number here.
-/

namespace TouchTarget.Css

/--
A number as it is written. Each digit list holds the digit that was read last in front; a missing
exponent is zero.
-/
structure Numeral where
  negative : Bool := false
  whole : List Nat := []
  fraction : List Nat := []
  exponentNegative : Bool := false
  exponent : Nat := 0
deriving DecidableEq, Repr, Inhabited

inductive Bracket
  | round
  | square
  | curly
deriving DecidableEq, Repr, Inhabited

inductive Token
  | blank
  | comment
  /-- The mark that opens a comment of the surrounding document. -/
  | markupOpen
  /-- The mark that closes a comment of the surrounding document. -/
  | markupClose
  | ident (name : List Char)
  | function (name : List Char)
  | atKeyword (name : List Char)
  | hash (name : List Char)
  | string
  /-- A string that a line break cut off. -/
  | badString
  | url
  /-- An address with a character that no address may hold. -/
  | badUrl
  | number (value : Numeral)
  | percentage (value : Numeral)
  | dimension (value : Numeral) (unit : List Char)
  | colon
  | semicolon
  | opener (bracket : Bracket)
  | closer (bracket : Bracket)
  /-- Any other character, or a character with the equals sign that belongs to it. -/
  | symbol
deriving DecidableEq, Repr, Inhabited

/-- The bracket that a token leaves open, a function leaving its own round one. -/
def Token.opens? : Token → Option Bracket
  | .function _ => some .round
  | .opener bracket => some bracket
  | _ => none

def Token.closes? : Token → Option Bracket
  | .closer bracket => some bracket
  | _ => none

/-- A token that carries no meaning between others. -/
def Token.isTrivia : Token → Bool
  | .blank | .comment => true
  | _ => false

structure Lexeme where
  token : Token
  text : List Char
deriving DecidableEq, Repr, Inhabited

/-- The text from which a list of lexemes was read. -/
def Lexeme.joined (lexemes : List Lexeme) : List Char :=
  lexemes.flatMap (·.text)

@[simp] theorem Lexeme.joined_nil : Lexeme.joined [] = [] := rfl

@[simp] theorem Lexeme.joined_cons (lexeme : Lexeme) (rest : List Lexeme) :
    Lexeme.joined (lexeme :: rest) = lexeme.text ++ Lexeme.joined rest := rfl

@[simp] theorem Lexeme.joined_append (left right : List Lexeme) :
    Lexeme.joined (left ++ right) = Lexeme.joined left ++ Lexeme.joined right := by
  simp [Lexeme.joined]

end TouchTarget.Css
