import TouchTarget.Numeric.Decimal
import TouchTarget.Toml.Reader
import TouchTarget.Toml.Table

/-!
# Texts, numbers and points in time

Digits may be grouped with single underscores. Integers have to fit 64 bits, and a number beyond
the range of double precision is no number; only below zero it counts as infinite.
-/

namespace TouchTarget.Toml

open Numeric Reader

/-! ## Blank space -/

def isGap (c : Char) : Bool :=
  c == ' ' || c == '\t'

/-- Characters that may stand in a comment and, quotes and backslashes apart, in a text. -/
def isPlain (c : Char) : Bool :=
  c == '\t' || (0x20 ≤ c.val && c.val ≠ 0x7F)

def gap : Reader Unit := do
  discard <| taking isGap

def newline : Reader Unit :=
  char '\n' <|> word ['\r', '\n']

def comment : Reader Unit := do
  char '#'
  discard <| taking isPlain

/-- Blank space, line breaks and comments. -/
def gapAndLines : Reader Unit := do
  gap
  discard <| many ((newline *> gap) <|> comment)

/-- What may stand behind a complete line. -/
def lineEnd : Reader Unit := do
  gap
  discard <| optional comment
  newline <|> atEnd

/-! ## Texts -/

def isHexDigit (c : Char) : Bool :=
  c.isDigit || ('a' ≤ c.toLower && c.toLower ≤ 'f')

def hexValue (c : Char) : Nat :=
  if c.isDigit then c.toNat - '0'.toNat else c.toLower.toNat - 'a'.toNat + 10

def valueInBase (base : Nat) (digits : List Char) : Nat :=
  digits.foldl (fun value c ↦ value * base + hexValue c) 0

/-- A character given by the hexadecimal digits of its code. -/
def codePoint (length : Nat) : Reader Char := do
  let digits ← (List.replicate length ()).mapM fun _ ↦ satisfying isHexDigit
  let code := valueInBase 16 digits
  if code.isValidChar then pure (Char.ofNat code) else failure

def escapedChar : Reader Char := do
  match ← satisfying fun _ ↦ true with
  | 'b' => pure '\x08'
  | 'f' => pure '\x0c'
  | 'n' => pure '\n'
  | 'r' => pure '\r'
  | 't' => pure '\t'
  | '\x22' => pure '\x22'
  | '\\' => pure '\\'
  | 'u' => codePoint 4
  | 'U' => codePoint 8
  | _ => failure

def quote : Char := '\x22'

def apostrophe : Char := '\x27'

def plainExcept (excluded : List Char) : Reader (List Char) := do
  return [← satisfying fun c ↦ isPlain c && !excluded.contains c]

def escape : Reader (List Char) := do
  char '\\'
  return [← escapedChar]

/-- A backslash at the end of a line takes away all blank space up to the next visible character. -/
def lineContinuation : Reader (List Char) := do
  char '\\'
  gap
  newline
  discard <| many (newline <|> discard (satisfying isGap))
  return []

def lineBreak : Reader (List Char) := do
  newline
  return ['\n']

/-- One or two quotes that do not end a text of several lines. -/
def looseQuotes (mark : Char) : Reader (List Char) := do
  let marks ← taking (· == mark)
  if marks.length = 1 ∨ marks.length = 2 then pure marks else failure

/-- The end of a text of several lines, with up to two quotes that still belong to it. -/
def closingQuotes (mark : Char) : Reader (List Char) := do
  let marks ← taking (· == mark)
  if 3 ≤ marks.length ∧ marks.length ≤ 5 then pure (marks.drop 3) else failure

def textOfLines (mark : Char) (piece : Reader (List Char)) : Reader String := do
  word [mark, mark, mark]
  discard <| optional newline
  let pieces ← many (looseQuotes mark <|> piece)
  let last ← closingQuotes mark
  return .ofList (pieces.flatten ++ last)

def textOfLine (mark : Char) (piece : Reader (List Char)) : Reader String := do
  char mark
  let pieces ← many piece
  char mark
  return .ofList pieces.flatten

/-- A text on one line, as a key may be written. -/
def lineText : Reader String :=
  textOfLine quote (plainExcept [quote, '\\'] <|> escape) <|>
    textOfLine apostrophe (plainExcept [apostrophe])

def text : Reader String :=
  textOfLines quote
      (plainExcept [quote, '\\'] <|> lineBreak <|> lineContinuation <|> escape) <|>
    textOfLines apostrophe (plainExcept [apostrophe] <|> lineBreak) <|> lineText

/-! ## Numbers -/

/-- Whether underscores stand between digits only. -/
def isGrouped : List Char → Bool
  | [] => false
  | [c] => c != '_'
  | c :: d :: rest => !(c == '_' && d == '_') && isGrouped (d :: rest)

/-- Digits with the underscores taken out. -/
def groupedDigits (isDigit : Char → Bool) : Reader (List Char) := do
  let written ← taking fun c ↦ isDigit c || c == '_'
  if written.head? ≠ some '_' ∧ isGrouped written then pure (written.filter (· != '_'))
  else failure

/-- Whether a minus sign was read. -/
def sign : Reader Bool := do
  match ← optional (satisfying fun c ↦ c == '+' || c == '-') with
  | some '-' => pure true
  | _ => pure false

def integerOf (negative : Bool) (magnitude : Nat) : Reader Value :=
  let value : Int := if negative then -magnitude else magnitude
  if Int64.minValue.toInt ≤ value ∧ value ≤ Int64.maxValue.toInt then pure (.integer value)
  else failure

def basedInteger (letter : Char) (base : Nat) (isDigit : Char → Bool) : Reader Value := do
  word ['0', letter]
  integerOf false (valueInBase base (← groupedDigits isDigit))

/-- Decimal digits without a leading zero. -/
def wholeDigits : Reader (List Char) := do
  let digits ← groupedDigits Char.isDigit
  if digits.head? = some '0' ∧ digits.length ≠ 1 then failure else pure digits

def fractionDigits : Reader (List Char) := do
  char '.'
  groupedDigits Char.isDigit

def exponentPart : Reader Int := do
  discard <| satisfying fun c ↦ c == 'e' || c == 'E'
  let negative ← sign
  let exponent := valueInBase 10 (← groupedDigits Char.isDigit)
  return if negative then -exponent else exponent

def floatOf (negative : Bool) (digits : List Char) (exponent : Int) : Reader Value :=
  let magnitude := .ofDecimal (valueInBase 10 digits) exponent
  if magnitude = .infinite ∧ !negative then failure else pure (.float negative magnitude)

def decimalNumber : Reader Value := do
  let negative ← sign
  let whole ← wholeDigits
  let fraction? ← optional fractionDigits
  let exponent? ← optional exponentPart
  match fraction?, exponent? with
  | none, none => integerOf negative (valueInBase 10 whole)
  | _, _ =>
    let fraction := fraction?.getD []
    floatOf negative (whole ++ fraction) (exponent?.getD 0 - fraction.length)

def specialNumber : Reader Value := do
  let negative ← sign
  (word ['i', 'n', 'f'] *> pure (.float negative .infinite)) <|>
    (word ['n', 'a', 'n'] *> pure (.float negative .undefined))

def number : Reader Value :=
  basedInteger 'x' 16 isHexDigit <|> basedInteger 'o' 8 (fun c ↦ '0' ≤ c && c ≤ '7') <|>
    basedInteger 'b' 2 (fun c ↦ c == '0' || c == '1') <|> decimalNumber <|> specialNumber

/-! ## Points in time -/

/-- A number of exactly so many digits, within bounds. -/
def fixedDigits (length low high : Nat) : Reader Nat := do
  let digits ← (List.replicate length ()).mapM fun _ ↦ satisfying Char.isDigit
  let value := valueInBase 10 digits
  if low ≤ value ∧ value ≤ high then pure value else failure

def isLeapYear (year : Nat) : Bool :=
  year % 4 = 0 && (year % 100 ≠ 0 || year % 400 = 0)

def daysIn (year month : Nat) : Nat :=
  if month = 2 then if isLeapYear year then 29 else 28
  else if month = 4 ∨ month = 6 ∨ month = 9 ∨ month = 11 then 30
  else 31

def date : Reader Unit := do
  let year ← fixedDigits 4 0 9999
  char '-'
  let month ← fixedDigits 2 1 12
  char '-'
  discard <| fixedDigits 2 1 (daysIn year month)

def clock : Reader Unit := do
  discard <| fixedDigits 2 0 23
  char ':'
  discard <| fixedDigits 2 0 59

def time : Reader Unit := do
  clock
  char ':'
  discard <| fixedDigits 2 0 60
  discard <| optional do
    char '.'
    discard <| satisfying Char.isDigit
    taking Char.isDigit

def offset : Reader Unit :=
  discard (satisfying fun c ↦ c == 'Z' || c == 'z') <|> do
    discard <| satisfying fun c ↦ c == '+' || c == '-'
    clock

def moment : Reader Value := do
  (do
    date
    discard <| optional do
      discard <| satisfying fun c ↦ c == 'T' || c == 't' || c == ' '
      time
      optional offset) <|> time
  return .moment

end TouchTarget.Toml
