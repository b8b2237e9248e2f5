/-!
# Documents of data

A document of data is a number, a text, a list, or an object whose members keep their order. An
object may have two members of one name.

Rendered, each element and member stands on a line of its own, indented by two blanks for each
level; an empty list or object stays on its line.
-/

namespace TouchTarget

inductive Json
  | number (value : Nat)
  | string (value : String)
  | array (elements : List Json)
  | object (members : List (String × Json))
deriving Repr, Inhabited

namespace Json

def hexDigit (n : Nat) : Char :=
  if n < 10 then Char.ofNat ('0'.toNat + n) else Char.ofNat ('a'.toNat + (n - 10))

/-- A quote, a backslash and a control character are escaped; all else stands for itself. -/
def escape (c : Char) : List Char :=
  match c with
  | '\x22' => ['\\', '\x22']
  | '\\' => ['\\', '\\']
  | '\x08' => ['\\', 'b']
  | '\x0c' => ['\\', 'f']
  | '\n' => ['\\', 'n']
  | '\r' => ['\\', 'r']
  | '\t' => ['\\', 't']
  | c =>
    if c.toNat < 0x20 then ['\\', 'u', '0', '0', hexDigit (c.toNat / 16), hexDigit (c.toNat % 16)]
    else [c]

def quoted (text : String) : List Char :=
  '\x22' :: text.toList.flatMap escape ++ ['\x22']

/-- The start of a line at a level. -/
def newline (level : Nat) : List Char :=
  '\n' :: List.replicate (2 * level) ' '

mutual

/-- The text of a value whose line stands at a level. -/
def renderAt (level : Nat) : Json → List Char
  | number value => Nat.toDigits 10 value
  | string value => quoted value
  | array elements =>
    match elements with
    | [] => ['[', ']']
    | first :: others =>
      '[' :: newline (level + 1) ++ renderAt (level + 1) first ++
        renderElements (level + 1) others ++ newline level ++ [']']
  | object members =>
    match members with
    | [] => ['\x7b', '\x7d']
    | (name, value) :: others =>
      '\x7b' :: newline (level + 1) ++ quoted name ++ [':', ' '] ++ renderAt (level + 1) value ++
        renderMembers (level + 1) others ++ newline level ++ ['\x7d']

/-- The text of the elements behind the first one. -/
def renderElements (level : Nat) : List Json → List Char
  | [] => []
  | element :: others =>
    ',' :: newline level ++ renderAt level element ++ renderElements level others

/-- The text of the members behind the first one. -/
def renderMembers (level : Nat) : List (String × Json) → List Char
  | [] => []
  | (name, value) :: others =>
    ',' :: newline level ++ quoted name ++ [':', ' '] ++ renderAt level value ++
      renderMembers level others

end

def render (json : Json) : String :=
  .ofList (json.renderAt 0)

end Json

end TouchTarget
