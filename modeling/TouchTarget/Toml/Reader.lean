/-!
# Readers

A reader takes a value from the front of a text, or fails. Of two alternatives the second one sees
the text as it was before the first.
-/

namespace TouchTarget.Toml

abbrev Reader := StateT (List Char) Option

namespace Reader

variable {α β : Type}

/-- The next character, which stays where it is. -/
def peek? : Reader (Option Char) := fun text ↦ some (text.head?, text)

def satisfying (accepts : Char → Bool) : Reader Char
  | [] => none
  | c :: rest => if accepts c then some (c, rest) else none

def char (c : Char) : Reader Unit := do
  discard <| satisfying (· == c)

def taking (accepts : Char → Bool) : Reader (List Char) := fun text ↦
  some (text.takeWhile accepts, text.dropWhile accepts)

def word (expected : List Char) : Reader Unit := fun text ↦
  if expected.isPrefixOf text then some ((), text.drop expected.length) else none

def atEnd : Reader Unit
  | [] => some ((), [])
  | _ :: _ => none

def isEmpty : Reader Bool := fun text ↦ some (text.isEmpty, text)

def upTo : Nat → Reader α → Reader (List α)
  | 0, _ => pure []
  | count + 1, reader => do
    match ← optional reader with
    | none => pure []
    | some value => return value :: (← upTo count reader)

/-- As many values as there are, of a reader that always takes something. -/
def many (reader : Reader α) : Reader (List α) := fun text ↦
  upTo text.length reader text

/-- One value or more with separators between them. -/
def separated (separator : Reader β) (reader : Reader α) : Reader (List α) := do
  let first ← reader
  let others ← many (separator *> reader)
  return first :: others

/-- The value of a reader that must take the whole text. -/
def run? (reader : Reader α) (text : List Char) : Option α :=
  match reader text with
  | some (value, []) => some value
  | _ => none

end Reader

end TouchTarget.Toml
