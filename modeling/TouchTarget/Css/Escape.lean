import TouchTarget.Text.Characters

/-!
# Characters of style text and escapes

The character classes of style text, and the escape that a backslash begins: up to six hexadecimal
digits with one blank that belongs to them, or any one other character. A carriage return and the
line feed behind it count as one blank.
-/

namespace TouchTarget.Css

def isNewline (c : Char) : Bool :=
  c == '\n' || c == '\r' || c == '\x0c'

def isSpace (c : Char) : Bool :=
  c == ' ' || c == '\t' || isNewline c

/-- Letters, the underscore, the null character and all characters outside ASCII. -/
def isNameStart (c : Char) : Bool :=
  c.isAlpha || c == '_' || c.val == 0 || 0x80 ≤ c.val

def isNameChar (c : Char) : Bool :=
  isNameStart c || c.isDigit || c == '-'

def digit (c : Char) : Nat :=
  c.toNat - '0'.toNat

def hexDigit? (c : Char) : Option Nat :=
  if c.isDigit then some (digit c)
  else if 'a' ≤ c.toLower && c.toLower ≤ 'f' then some (c.toLower.toNat - 'a'.toNat + 10)
  else none

/-- What stands for a character that style text cannot name. -/
def replacement : Char := '\uFFFD'

/-- The null character stands for the replacement. -/
def cleaned (c : Char) : Char :=
  if c.val = 0 then replacement else c

/-- The character with a given code; the null character and codes of no character are replaced. -/
def charOfCode (code : Nat) : Char :=
  if code ≠ 0 ∧ code.isValidChar then Char.ofNat code else replacement

/-- How far an escape has been read. -/
inductive Escape
  | opened
  | hex (count code : Nat)
  /-- Behind the carriage return that ends an escape. -/
  | afterReturn (value : Char)
deriving DecidableEq, Repr, Inhabited

namespace Escape

/-- What an escape makes of the next character. -/
inductive Next
  | goesOn (escape : Escape)
  /-- The character ends the escape and belongs to it. -/
  | endsAt (value : Char)
  /-- The escape ended before the character. -/
  | endedBefore (value : Char)
deriving DecidableEq, Repr, Inhabited

/-- The character that an escape stands for if nothing more belongs to it. -/
def value : Escape → Char
  | opened => replacement
  | hex _ code => charOfCode code
  | afterReturn value => value

def next : Escape → Char → Next
  | opened, c =>
    match hexDigit? c with
    | some d => .goesOn (hex 1 d)
    | none => .endsAt (cleaned c)
  | hex count code, c =>
    match hexDigit? c with
    | some d => if count < 6 then .goesOn (hex (count + 1) (code * 16 + d))
      else .endedBefore (charOfCode code)
    | none =>
      if c = '\r' then .goesOn (afterReturn (charOfCode code))
      else if isSpace c then .endsAt (charOfCode code)
      else .endedBefore (charOfCode code)
  | afterReturn value, c => if c = '\n' then .endsAt value else .endedBefore value

end Escape

end TouchTarget.Css
