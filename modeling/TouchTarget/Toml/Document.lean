import TouchTarget.Toml.Scalar
import TouchTarget.Toml.Table

/-!
# Settings documents

A document is read line by line into the table of its keys, or it is no document at all. Lists and
tables in brackets may be nested less than `nestingLimit` deep, and a key may have fewer parts than
that.
-/

namespace TouchTarget.Toml

open Reader

def nestingLimit : Nat := 80

/-! ## Keys -/

def isBareKeyChar (c : Char) : Bool :=
  c.isAlphanum || c == '-' || c == '_'

def bareKey : Reader String := do
  let letters ← taking isBareKeyChar
  if letters.isEmpty then failure else pure (.ofList letters)

/-- The parts of a key: the path to its table, and the last one. -/
def key : Reader (List String × String) := do
  let parts ← separated (char '.') (gap *> (lineText <|> bareKey) <* gap)
  match parts.getLast? with
  | some last => if parts.length < nestingLimit then pure (parts.dropLast, last) else failure
  | none => failure

/-! ## Values -/

def scalar : Reader Value := do
  match ← peek? with
  | some '\x22' | some '\x27' => .text <$> text
  | some 't' => word ['t', 'r', 'u', 'e'] *> pure (.boolean true)
  | some 'f' => word ['f', 'a', 'l', 's', 'e'] *> pure (.boolean false)
  | _ => moment <|> number

/-- A list in brackets, which may end with a comma. -/
def array (element : Reader Value) : Reader Value := do
  char '['
  let elements? ← optional do
    let elements ← separated (char ',') (gapAndLines *> element <* gapAndLines)
    discard <| optional (char ',')
    return elements
  gapAndLines
  char ']'
  return .array (elements?.getD [])

/-- A key, an equals sign and a value. -/
def pair (value : Reader Value) : Reader (List String × String × Value) := do
  let (path, last) ← key
  char '='
  gap
  return (path, last, ← value)

/-- A table in curly brackets, on one line. -/
def inlineTable (value : Reader Value) : Reader Value := do
  char '\x7b'
  let pairs? ← optional (separated (char ',') (pair value <* gap))
  gap
  char '\x7d'
  let entries ← (pairs?.getD []).foldlM
    (fun entries (path, last, value) ↦ (Entries.set entries path last value : Option Entries)) []
  return .table (Node.finishedEntries entries)

/-- A value in which at most so many brackets are nested. -/
def value : Nat → Reader Value
  | 0 => scalar
  | room + 1 => do
    match ← peek? with
    | some '[' => array (value room)
    | some '\x7b' => inlineTable (value room)
    | _ => scalar

/-! ## Lines -/

/-- The table whose lines are being read. -/
inductive Section
  | root
  | table (path : List String) (key : String)
  | element (path : List String) (key : String)
deriving Repr, Inhabited

/-- The tables read so far, without the entries of the current one. -/
structure Progress where
  tables : Entries := []
  current : Section := .root
  entries : Entries := []
deriving Repr, Inhabited

namespace Progress

/-- The tables with the current one put in its place. -/
def closed (progress : Progress) : Option Entries :=
  match progress.current with
  | .root => some progress.entries
  | .table path key => progress.tables.closeTable path key progress.entries
  | .element path key => progress.tables.closeElement path key progress.entries

def set (progress : Progress) (path : List String) (key : String) (value : Value) :
    Option Progress := do
  return { progress with entries := ← progress.entries.set path key value }

def openTable (progress : Progress) (path : List String) (key : String) : Option Progress := do
  let (tables, entries) ← (← progress.closed).openTable path key
  return ⟨tables, .table path key, entries⟩

def openElement (progress : Progress) (path : List String) (key : String) : Option Progress := do
  return ⟨← (← progress.closed).openList path key, .element path key, []⟩

end Progress

/-- One line: blank, a comment, a header or a key with its value. -/
def line (progress : Progress) : Reader Progress := do
  match ← peek? with
  | none => failure
  | some '#' => comment *> (newline <|> atEnd) *> pure progress
  | some '\n' | some '\r' => newline *> pure progress
  | some '[' =>
    char '['
    match ← optional (char '[') with
    | some _ => do
      let (path, last) ← key
      char ']'
      char ']'
      lineEnd
      progress.openElement path last
    | none => do
      let (path, last) ← key
      char ']'
      lineEnd
      progress.openTable path last
  | some _ => do
    let (path, last, value) ← pair (value (nestingLimit - 1))
    lineEnd
    progress.set path last value

/-- At most so many lines, up to the end of the text. -/
def lines : Nat → Progress → Reader Progress
  | 0, progress => atEnd *> pure progress
  | count + 1, progress => do
    if ← isEmpty then pure progress
    else do
      let progress ← line progress
      gap
      lines count progress

def byteOrderMark : Char := '\uFEFF'

/-- The entries of the root table of a document. -/
def document? (text : String) : Option (List (String × Value)) := do
  let text := match text.toList with
    | c :: rest => if c = byteOrderMark then rest else c :: rest
    | [] => []
  let progress ← (do gap; lines text.length {}).run? text
  return Node.finishedEntries (← progress.closed)

end TouchTarget.Toml
