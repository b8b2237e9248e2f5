import TouchTarget.Css.Escape
import TouchTarget.Css.Token

/-!
# The automaton that reads one token

The automaton reads style text character by character. In some states the text read so far is a
token whatever follows (`accept?`), in some only if the text ends there (`finish?`). Which of the
texts it passes through becomes a lexeme is decided in `TouchTarget.Css.Lexeme`: the longest.

A state holds what the token needs of the text behind it, the letters of a name with the last one
in front.
-/

namespace TouchTarget.Css

open Text

inductive NameRole
  | ident
  | atKeyword
  | hash
  | unit (value : Numeral)
deriving DecidableEq, Repr, Inhabited

def NameRole.token (role : NameRole) (letters : List Char) : Token :=
  match role with
  | ident => .ident letters.reverse
  | atKeyword => .atKeyword letters.reverse
  | hash => .hash letters.reverse
  | unit value => .dimension value letters.reverse

inductive State
  | start
  /-- Nothing extends the token. -/
  | done (token : Token)
  | blank
  | slash
  | comment
  | commentStar
  | quoted (quote : Char) (escape : Option Escape)
  | name (role : NameRole) (letters : List Char) (escape : Option Escape)
  | backslash
  | number (value : Numeral)
  | point (value : Numeral)
  | fraction (value : Numeral)
  /-- Behind a letter that begins an exponent or a unit. -/
  | mark (value : Numeral) (letter : Char)
  | markPlus (value : Numeral)
  | markMinus (value : Numeral) (letter : Char)
  | exponent (value : Numeral)
  | unitHyphen (value : Numeral)
  | plus
  | minus
  | hyphens
  | dot
  | hashSign
  | atSign
  | atHyphen
  | lessThan
  /-- Inside the mark that opens a comment of the surrounding document. -/
  | markup
  | markupHyphen
  /-- A character that an equals sign may follow. -/
  | operator
  | urlStart (letters : List Char)
  | urlMargin
  | url (escape : Option Escape)
  | urlTail
  | badUrl
  | badUrlEscape
deriving DecidableEq, Repr, Inhabited

namespace State

def stepStart (c : Char) : State :=
  if isSpace c then blank
  else if c.isDigit then number ⟨false, [digit c], [], false, 0⟩
  else if isNameStart c then name .ident [cleaned c] none
  else match c with
    | '\x22' | '\x27' => quoted c none
    | '#' => hashSign
    | '+' => plus
    | '-' => minus
    | '.' => dot
    | '/' => slash
    | ':' => done .colon
    | ';' => done .semicolon
    | '(' => done (.opener .round)
    | ')' => done (.closer .round)
    | '[' => done (.opener .square)
    | ']' => done (.closer .square)
    | '\x7b' => done (.opener .curly)
    | '\x7d' => done (.closer .curly)
    | '<' => lessThan
    | '@' => atSign
    | '\\' => backslash
    | '$' | '*' | '^' | '|' | '~' => operator
    | _ => done .symbol

def isUrlName (letters : List Char) : Bool :=
  sameLetters letters ['u', 'r', 'l']

/-- One more character of a name outside an escape. -/
def stepName (role : NameRole) (letters : List Char) (c : Char) : Option State :=
  if c = '\\' then some (name role letters (some .opened))
  else if isNameChar c then some (name role (cleaned c :: letters) none)
  else if c = '(' ∧ role = .ident then
    if isUrlName letters.reverse then some (urlStart letters.reverse)
    else some (done (.function letters.reverse))
  else none

/-- A line break after the backslash leaves the backslash outside the name. -/
def stepNameEscape (role : NameRole) (letters : List Char) (escape : Escape) (c : Char) :
    Option State :=
  if escape = .opened ∧ isNewline c then none
  else match escape.next c with
    | .goesOn escape => some (name role letters (some escape))
    | .endsAt value => some (name role (value :: letters) none)
    | .endedBefore value => stepName role (value :: letters) c

/-- A name that begins here, `letters` having been read before it. -/
def stepNameStart (role : NameRole) (letters : List Char) (c : Char) : Option State :=
  if c = '\\' then some (name role letters (some .opened))
  else if isNameStart c then some (name role (cleaned c :: letters) none)
  else none

def stepString (quote c : Char) : Option State :=
  if c = quote then some (done .string)
  else if isNewline c then none
  else if c = '\\' then some (quoted quote (some .opened))
  else some (quoted quote none)

/-- A line break after the backslash goes on with the string. -/
def stepStringEscape (quote : Char) (escape : Escape) (c : Char) : Option State :=
  if escape = .opened ∧ c = '\r' then some (quoted quote (some (.afterReturn replacement)))
  else if escape = .opened ∧ isNewline c then some (quoted quote none)
  else match escape.next c with
    | .goesOn escape => some (quoted quote (some escape))
    | .endsAt _ => some (quoted quote none)
    | .endedBefore _ => stepString quote c

/-- The characters that no address may hold: control characters, quotes and an opening bracket. -/
def isBadInUrl (c : Char) : Bool :=
  (1 ≤ c.val && c.val ≤ 8) || c.val == 0xB || (0xE ≤ c.val && c.val ≤ 0x1F) || c.val == 0x7F ||
    c == '\x22' || c == '\x27' || c == '('

def stepUrl (c : Char) : State :=
  if isSpace c then urlTail
  else if c = ')' then done .url
  else if c = '\\' then url (some .opened)
  else if isBadInUrl c then badUrl
  else url none

def stepUrlEscape (escape : Escape) (c : Char) : State :=
  if escape = .opened ∧ isNewline c then badUrl
  else match escape.next c with
    | .goesOn escape => url (some escape)
    | .endsAt _ => url none
    | .endedBefore _ => stepUrl c

/-- Before an address: a quote means that this is no bare address at all. -/
def stepUrlMargin (c : Char) : Option State :=
  if isSpace c then some urlMargin
  else if c = '\x22' ∨ c = '\x27' then none
  else some (stepUrl c)

/-- Behind the last digit of a number: a percent sign or a unit. -/
def stepNumberEnd (value : Numeral) (c : Char) : Option State :=
  if c = '%' then some (done (.percentage value))
  else if c = '-' then some (unitHyphen value)
  else stepNameStart (.unit value) [] c

def isExponentMark (c : Char) : Bool :=
  c == 'e' || c == 'E'

def withDigit (value : Numeral) (c : Char) : Numeral :=
  { value with whole := digit c :: value.whole }

def withFractionDigit (value : Numeral) (c : Char) : Numeral :=
  { value with fraction := digit c :: value.fraction }

def withExponentDigit (value : Numeral) (c : Char) : Numeral :=
  { value with exponent := value.exponent * 10 + digit c }

/-- The state after one more character, if the automaton can read it. -/
def step : State → Char → Option State
  | start, c => some (stepStart c)
  | done _, _ => none
  | blank, c => if isSpace c then some blank else none
  | slash, c => if c = '*' then some comment else none
  | comment, c => some (if c = '*' then commentStar else comment)
  | commentStar, c =>
    some (if c = '/' then done .comment else if c = '*' then commentStar else comment)
  | quoted quote none, c => stepString quote c
  | quoted quote (some escape), c => stepStringEscape quote escape c
  | name role letters none, c => stepName role letters c
  | name role letters (some escape), c => stepNameEscape role letters escape c
  | backslash, c => stepNameEscape .ident [] .opened c
  | number value, c =>
    if c.isDigit then some (number (withDigit value c))
    else if c = '.' then some (point value)
    else if isExponentMark c then some (mark value c)
    else stepNumberEnd value c
  | point value, c => if c.isDigit then some (fraction (withFractionDigit value c)) else none
  | fraction value, c =>
    if c.isDigit then some (fraction (withFractionDigit value c))
    else if isExponentMark c then some (mark value c)
    else stepNumberEnd value c
  | mark value letter, c =>
    if c.isDigit then some (exponent (withExponentDigit value c))
    else if c = '+' then some (markPlus value)
    else if c = '-' then some (markMinus value letter)
    else stepName (.unit value) [letter] c
  | markPlus value, c => if c.isDigit then some (exponent (withExponentDigit value c)) else none
  | markMinus value letter, c =>
    if c.isDigit then
      some (exponent (withExponentDigit { value with exponentNegative := true } c))
    else stepName (.unit value) ['-', letter] c
  | exponent value, c =>
    if c.isDigit then some (exponent (withExponentDigit value c)) else stepNumberEnd value c
  | unitHyphen value, c =>
    if c = '-' then some (name (.unit value) ['-', '-'] none)
    else stepNameStart (.unit value) ['-'] c
  | plus, c =>
    if c.isDigit then some (number (withDigit default c))
    else if c = '.' then some (point default) else none
  | minus, c =>
    if c.isDigit then some (number (withDigit { negative := true } c))
    else if c = '.' then some (point { negative := true })
    else if c = '-' then some hyphens
    else stepNameStart .ident ['-'] c
  | hyphens, c => if c = '>' then some (done .markupClose) else stepName .ident ['-', '-'] c
  | dot, c => if c.isDigit then some (fraction (withFractionDigit default c)) else none
  | hashSign, c =>
    if c.isDigit ∨ c = '-' then some (name .hash [c] none) else stepNameStart .hash [] c
  | atSign, c => if c = '-' then some atHyphen else stepNameStart .atKeyword [] c
  | atHyphen, c =>
    if c = '-' then some (name .atKeyword ['-', '-'] none) else stepNameStart .atKeyword ['-'] c
  | lessThan, c => if c = '!' then some markup else none
  | markup, c => if c = '-' then some markupHyphen else none
  | markupHyphen, c => if c = '-' then some (done .markupOpen) else none
  | operator, c => if c = '=' then some (done .symbol) else none
  | urlStart _, c => stepUrlMargin c
  | urlMargin, c => stepUrlMargin c
  | url none, c => some (stepUrl c)
  | url (some escape), c => some (stepUrlEscape escape c)
  | urlTail, c =>
    some (if c = ')' then done .url else if isSpace c then urlTail else badUrl)
  | badUrl, c =>
    some (if c = ')' then done .badUrl else if c = '\\' then badUrlEscape else badUrl)
  | badUrlEscape, _ => some badUrl

/-- The token that the text read so far is, whatever follows. -/
def accept? : State → Option Token
  | done token => some token
  | blank => some .blank
  | quoted _ _ => some .badString
  | name role letters none => some (role.token letters)
  | name _ _ (some .opened) => none
  | name role letters (some escape) => some (role.token (escape.value :: letters))
  | number value | fraction value | exponent value => some (.number value)
  | mark value letter => some (.dimension value [letter])
  | markMinus value letter => some (.dimension value [letter, '-'])
  | hyphens => some (.ident ['-', '-'])
  | urlStart letters => some (.function letters)
  | slash | backslash | plus | minus | dot | hashSign | atSign | lessThan | operator =>
    some .symbol
  | start | comment | commentStar | point _ | markPlus _ | unitHyphen _ | atHyphen | markup
  | markupHyphen | urlMargin | url _ | urlTail | badUrl | badUrlEscape => none

/-- The token that the text read so far is if it ends here: what is open at the end is closed. -/
def finish? : State → Option Token
  | comment | commentStar => some .comment
  | quoted _ _ => some .string
  | name role letters (some escape) => some (role.token (escape.value :: letters))
  | backslash => some (.ident [replacement])
  | urlStart _ | urlMargin | url _ | urlTail => some .url
  | badUrl | badUrlEscape => some .badUrl
  | state => state.accept?

end State

end TouchTarget.Css
