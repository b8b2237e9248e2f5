import TouchTarget.Css.Component
import TouchTarget.Text.Characters

/-!
# Statements of style text

A list of components is cut into statements: rules and at-rules inside a sheet, declarations inside
a block. What may stand between two statements is skipped, and a statement runs from the first
component that is not skipped through the one that ends it.
-/

namespace TouchTarget.Css

structure Statement where
  head : List Component
  /-- The component that ends the statement, missing if the text ends before it. -/
  terminator? : Option Component
deriving Repr, Inhabited

namespace Statement

/-- Cuts components into statements; `head` is what the current statement has, last one first. -/
def split (skips ends : Component → Bool) (head : List Component) :
    List Component → List Statement
  | [] => if head.isEmpty then [] else [⟨head.reverse, none⟩]
  | component :: rest =>
    if head.isEmpty && skips component then split skips ends [] rest
    else if ends component then ⟨head.reverse, some component⟩ :: split skips ends [] rest
    else split skips ends (component :: head) rest

/-- A mark of the surrounding document, or a closing bracket that closes nothing. -/
def isStray (component : Component) : Bool :=
  match component.token? with
  | some .markupOpen | some .markupClose | some (.closer _) => true
  | _ => false

/-- The rules and at-rules of a sheet: each ends with a semicolon or with its block. -/
def rulesIn (components : List Component) : List Statement :=
  split (fun component ↦ component.isTrivia || isStray component)
    (fun component ↦ component.isSemicolon || component.curlyBody?.isSome) [] components

/-- The declarations of a block: each ends with a semicolon. -/
def declarationsIn (components : List Component) : List Statement :=
  split Component.isTrivia Component.isSemicolon [] components

/-- The inside of the block that ends a rule. -/
def body? (statement : Statement) : Option (List Component) :=
  statement.terminator?.bind Component.curlyBody?

def headText (statement : Statement) : List Char :=
  Component.text statement.head

/-- The whole text, the end of the statement included. -/
def text (statement : Statement) : List Char :=
  Component.text (statement.head ++ statement.terminator?.toList)

end Statement

end TouchTarget.Css
