import TouchTarget.Css.Media
import TouchTarget.Rules.StyleSheet

/-!
# Reading style text

Reading never fails. A rule whose selector is missing, an at-rule and a declaration without a
colon or a name are passed over, and so is a media rule without a threshold; what is around them
is read as if they were not there.
-/

namespace TouchTarget

open Text Css

/-- The property and the value of a declaration, split at the first colon of its text. -/
def Css.Statement.declaration? (statement : Statement) : Option (String × String) :=
  let text := statement.text
  let text := if text.getLast? = some ';' then text.dropLast else text
  let name := trim (text.takeWhile (· != ':'))
  match text.dropWhile (· != ':') with
  | [] => none
  | _ :: value => if name.isEmpty then none else some (.ofList name, .ofList (trim value))

/-- The declarations of a block, the later ones winning. -/
def Declarations.ofComponents (body : List Component) : Declarations :=
  .ofList ((Statement.declarationsIn body).filterMap Statement.declaration?)

/-- The selector and the declarations of a rule, if it has both and is no at-rule. -/
def Css.Statement.rule? (statement : Statement) : Option (String × Declarations) :=
  let selector := trim statement.headText
  match statement.body? with
  | none => none
  | some body =>
    if selector.isEmpty || selector.head? = some '@' then none
    else some (.ofList selector, .ofComponents body)

def RuleSet.ofComponents (components : List Component) : RuleSet :=
  .ofList ((Statement.rulesIn components).filterMap Statement.rule?)

/-- The rules of style text, without those inside any at-rule. -/
def RuleSet.parse (text : String) : RuleSet :=
  .ofComponents (components text.toList)

namespace StyleSheet

/-- Takes one statement of a sheet in. -/
def read (sheet : StyleSheet) (statement : Statement) : StyleSheet :=
  match statement.mediaCondition? with
  | some condition =>
    match statement.body?, threshold? condition with
    | some body, some maxWidth => sheet.addConditional maxWidth (.ofComponents body)
    | _, _ => sheet
  | none =>
    match statement.rule? with
    | some (selector, declarations) => sheet.insertBase selector declarations
    | none => sheet

def ofComponents (components : List Component) : StyleSheet :=
  (Statement.rulesIn components).foldl read ∅

/-- The sheet of style text. -/
def parse (text : String) : StyleSheet :=
  ofComponents (components text.toList)

end StyleSheet

end TouchTarget
