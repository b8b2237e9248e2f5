import TouchTarget.Proofs.Css.Depth
import TouchTarget.Proofs.Css.Pieces
import TouchTarget.Rules.Reading

/-!
# Rules found in one pass

The rules of a text can be found in one pass over its lexemes that keeps nothing but the list of
open brackets and what has been read of the current statement. This pass finds the rules of the
text, each with the verbatim text in front of its block and the
declarations of the text inside it. No nesting, stray bracket or missing end makes a block end too
early or too late.
-/

namespace TouchTarget

open Text Css

namespace Css

/-- A block in curly brackets outside all others, with what is in front of it. -/
structure Passage where
  head : List Lexeme
  body : List Lexeme

/-- Where a pass stands, with what has been read since the statement or the block began. -/
inductive Place
  | head (read : List Lexeme)
  | body (head read : List Lexeme)

/-- The token means nothing between two statements: a blank, a comment, a mark of the surrounding
document or a closing bracket. -/
def Token.isFiller : Token → Bool
  | .blank | .comment | .markupOpen | .markupClose | .closer _ => true
  | _ => false

theorem Token.isFiller_of_opens {token : Token} {bracket : Bracket}
    (h : token.opens? = some bracket) : token.isFiller = false := by
  cases token <;> cases h <;> rfl

/-- The component may stand between two statements without belonging to either. -/
def Component.isFiller (component : Component) : Bool :=
  component.isTrivia || Statement.isStray component

theorem Component.isFiller_leaf (lexeme : Lexeme) :
    (leaf lexeme).isFiller = lexeme.token.isFiller := by
  obtain ⟨token, text⟩ := lexeme
  cases token <;> rfl

/-- The blocks that end a statement, in the order of the text. A statement without a block, which a
semicolon or the end of the text ends, is dropped. -/
def passages : Place → List Bracket → List Lexeme → List Passage
  | .head _, _, [] => []
  | .body head read, _, [] => [⟨head, read⟩]
  | .head read, opened, lexeme :: rest =>
    if opened = [] ∧ read = [] ∧ lexeme.token.isFiller then passages (.head []) [] rest
    else if opened = [] ∧ lexeme.token = .semicolon then passages (.head []) [] rest
    else if opened = [] ∧ lexeme.token = .opener .curly then passages (.body read []) [.curly] rest
    else passages (.head (read ++ [lexeme])) (lexeme.token.nest opened) rest
  | .body head read, opened, lexeme :: rest =>
    if lexeme.token.nest opened = [] then ⟨head, read⟩ :: passages (.head []) [] rest
    else passages (.body head (read ++ [lexeme])) (lexeme.token.nest opened) rest

namespace Passage

def selector (passage : Passage) : List Char :=
  trim (Lexeme.joined passage.head)

/-- There is a selector, and it is no at-rule's. -/
def isRule (passage : Passage) : Bool :=
  !(passage.selector.isEmpty || passage.selector.head? = some '@')

def declarations (passage : Passage) : Declarations :=
  .ofComponents (components (Lexeme.joined passage.body))

end Passage

/-! ## Passing over blocks -/

/-- Inside a block the pass goes on to the end of the block. -/
theorem passages_body (head read : List Lexeme) (opened : List Bracket) (lexemes : List Lexeme) :
    passages (.body head read) opened lexemes =
      ⟨head, read ++ (enclosed opened lexemes).inside⟩ ::
        passages (.head []) [] (enclosed opened lexemes).after := by
  induction lexemes generalizing read opened with
  | nil => rw [enclosed_nil, passages, passages, List.append_nil]
  | cons lexeme rest ih =>
    by_cases h : lexeme.token.nest opened = []
    · rw [passages, if_pos h, enclosed_cons_of_nest_eq_nil h, List.append_nil]
    · rw [passages, if_neg h, ih, enclosed_cons_of_nest_ne_nil h, List.append_assoc,
        List.singleton_append]

/-- A block in front of the block of a rule belongs to the head of the rule. -/
theorem passages_head {opened : List Bracket} (h : opened ≠ []) (read lexemes : List Lexeme) :
    passages (.head read) opened lexemes =
      passages (.head (read ++ (enclosed opened lexemes).inside ++
        (enclosed opened lexemes).closer?.toList)) [] (enclosed opened lexemes).after := by
  induction lexemes generalizing read opened with
  | nil => rw [enclosed_nil, passages, passages]
  | cons lexeme rest ih =>
    rw [passages, if_neg (fun hnil ↦ h hnil.1), if_neg (fun hnil ↦ h hnil.1),
      if_neg (fun hnil ↦ h hnil.1)]
    by_cases hnil : lexeme.token.nest opened = []
    · rw [hnil, enclosed_cons_of_nest_eq_nil hnil, List.append_nil, Option.toList_some]
    · rw [ih hnil, enclosed_cons_of_nest_ne_nil hnil, List.append_assoc read,
        List.singleton_append]

/-- Outside all blocks, a lexeme that opens nothing is skipped, ends the statement or belongs to
it. -/
theorem passages_leaf {lexeme : Lexeme} (h : lexeme.token.opens? = none)
    (read rest : List Lexeme) :
    passages (.head read) [] (lexeme :: rest) =
      if read = [] ∧ lexeme.token.isFiller then passages (.head []) [] rest
      else if lexeme.token = .semicolon then passages (.head []) [] rest
      else passages (.head (read ++ [lexeme])) [] rest := by
  have hcurly : lexeme.token ≠ .opener .curly := by
    intro htoken
    rw [htoken] at h
    cases h
  rw [passages]
  simp only [hcurly, Token.nest_nil_of_leaf h, true_and, if_false]

/-- Outside all blocks, a block in curly brackets ends the statement, and any other block belongs to
it. -/
theorem passages_block {opener : Lexeme} {bracket : Bracket}
    (h : opener.token.opens? = some bracket) (read rest : List Lexeme) :
    passages (.head read) [] (opener :: rest) =
      if opener.token = .opener .curly then
        ⟨read, (enclosed [bracket] rest).inside⟩ ::
          passages (.head []) [] (enclosed [bracket] rest).after
      else
        passages (.head (read ++ opener :: (enclosed [bracket] rest).inside ++
          (enclosed [bracket] rest).closer?.toList)) [] (enclosed [bracket] rest).after := by
  have hfiller : opener.token.isFiller = false := Token.isFiller_of_opens h
  have hsemicolon : opener.token ≠ .semicolon := Token.ne_semicolon_of_opens h
  rw [passages]
  simp only [hfiller, hsemicolon, true_and, and_false, if_false, Bool.false_eq_true]
  split
  next hcurly =>
    obtain rfl := (Token.eq_opener_curly_iff h).1 hcurly
    rw [passages_body, List.nil_append]
  next =>
    rw [Token.nest_of_opens h, passages_head (List.cons_ne_nil bracket []),
      List.append_assoc read, List.singleton_append]

/-- What a block in curly brackets holds has by itself the lexemes that it has in its place. -/
theorem lexemes_enclosed_curly {text : List Char} {opener : Lexeme} {rest : List Lexeme}
    (h : lexemes text = opener :: rest) :
    lexemes (Lexeme.joined (enclosed [.curly] rest).inside) =
      (enclosed [.curly] rest).inside := by
  have hrest : lexemes (Lexeme.joined rest) = rest := (next?_of_lexemes_eq_cons h).2
  have hsplit := enclosed_append [.curly] rest
  cases hcloser : (enclosed [.curly] rest).closer? with
  | none =>
    rw [hcloser, after_of_enclosed hcloser, Option.toList_none, List.append_nil,
      List.append_nil] at hsplit
    rw [hsplit, hrest]
  | some closer =>
    have hcloser' : (enclosed ([] ++ [.curly]) rest).closer? = some closer := hcloser
    have hcloses : closer.token.closes? = some .curly := closes?_of_enclosed hcloser'
    have htoken : closer.token = .closer .curly := by
      cases htoken : closer.token <;> rw [htoken] at hcloses <;> cases hcloses
      rfl
    rw [hcloser, Option.toList_some, List.singleton_append] at hsplit
    have hmem : closer ∈ lexemes (Lexeme.joined rest) := by
      rw [hrest, ← hsplit]
      exact List.mem_append_right _ List.mem_cons_self
    obtain ⟨c, htext, hstep⟩ := Lexeme.text_of_mark hmem (by rw [htoken]; rfl)
    have hc : isDelimiter c := State.isDelimiter_of_stepStart hstep (.inr htoken)
    exact lexemes_joined_front (hrest.trans hsplit.symm) hc htext

/-- What is behind a block has by itself the lexemes that it has in its place. -/
theorem lexemes_after_enclosed {text : List Char} {opener : Lexeme} {rest : List Lexeme}
    (h : lexemes text = opener :: rest) (opened : List Bracket) :
    lexemes (Lexeme.joined (enclosed opened rest).after) = (enclosed opened rest).after := by
  have hrest : lexemes (Lexeme.joined rest) = rest := (next?_of_lexemes_eq_cons h).2
  have hsplit := enclosed_append opened rest
  rw [← List.append_assoc] at hsplit
  exact lexemes_joined_back (hrest.trans hsplit.symm)

/-! ## The rules of both ways of reading -/

/-- The selector and the declarations of a passage that is a rule. -/
def Passage.rule? (passage : Passage) : Option (String × Declarations) :=
  if passage.isRule then some (.ofList passage.selector, passage.declarations) else none

theorem Component.lexemesIn_block (opener : Lexeme) (inside : List Lexeme)
    (closer? : Option Lexeme) :
    lexemesIn [.block opener (ofLexemes inside) closer?] = opener :: inside ++ closer?.toList := by
  rw [lexemesIn, lexemesIn, lexemes, lexemesIn_ofLexemes, List.append_nil]

namespace Statement

/-- The rules and at-rules of components, if a statement has already begun; the last component of it
comes first. -/
def rulesFrom (head components : List Component) : List Statement :=
  split (fun component ↦ component.isTrivia || isStray component)
    (fun component ↦ component.isSemicolon || component.curlyBody?.isSome) head components

theorem rulesFrom_leaf (head : List Component) (lexeme : Lexeme) (rest : List Component) :
    rulesFrom head (.leaf lexeme :: rest) =
      if head = [] ∧ lexeme.token.isFiller then rulesFrom [] rest
      else if lexeme.token = .semicolon then
        ⟨head.reverse, some (.leaf lexeme)⟩ :: rulesFrom [] rest
      else rulesFrom (.leaf lexeme :: head) rest := by
  have hfiller : ((Component.leaf lexeme).isTrivia || isStray (.leaf lexeme)) =
      lexeme.token.isFiller := Component.isFiller_leaf lexeme
  have hends : ((Component.leaf lexeme).isSemicolon ||
      (Component.leaf lexeme).curlyBody?.isSome) = decide (lexeme.token = .semicolon) := by
    simp [Component.isSemicolon, Component.token?, Component.curlyBody?, Component.bodyOf?]
  unfold rulesFrom
  rw [split, hfiller, hends]
  simp only [Bool.and_eq_true, List.isEmpty_iff, decide_eq_true_eq]

theorem rulesFrom_block (head : List Component) (opener : Lexeme) (body : List Component)
    (closer? : Option Lexeme) (rest : List Component) :
    rulesFrom head (.block opener body closer? :: rest) =
      if opener.token = .opener .curly then
        ⟨head.reverse, some (.block opener body closer?)⟩ :: rulesFrom [] rest
      else rulesFrom (.block opener body closer? :: head) rest := by
  have hends : ((Component.block opener body closer?).isSemicolon ||
      (Component.block opener body closer?).curlyBody?.isSome) =
        decide (opener.token = .opener .curly) := by
    by_cases h : opener.token = .opener .curly <;>
      simp [Component.isSemicolon, Component.token?, Component.curlyBody?, Component.bodyOf?, h]
  have hskips : ((Component.block opener body closer?).isTrivia ||
      isStray (.block opener body closer?)) = false := rfl
  unfold rulesFrom
  rw [split, hskips, hends, Bool.and_false, if_neg Bool.false_ne_true]
  simp only [decide_eq_true_eq]

theorem rule?_of_body?_eq_some {statement : Statement} {body : List Component}
    (h : statement.body? = some body) :
    statement.rule? =
      if trim statement.headText = [] ∨ (trim statement.headText).head? = some '@' then none
      else some (.ofList (trim statement.headText), .ofComponents body) := by
  unfold rule?
  rw [h]
  simp only [Bool.or_eq_true, List.isEmpty_iff, decide_eq_true_eq]

theorem rule?_of_curly (head : List Component) {opener : Lexeme} {inside : List Lexeme}
    {closer? : Option Lexeme} (hopener : opener.token = .opener .curly)
    (hinside : lexemes (Lexeme.joined inside) = inside) :
    (Statement.mk head (some (.block opener (Component.ofLexemes inside) closer?))).rule? =
      (Passage.mk (Component.lexemesIn head) inside).rule? := by
  have hbody : (Statement.mk head
      (some (.block opener (Component.ofLexemes inside) closer?))).body? =
        some (components (Lexeme.joined inside)) := by
    rw [components, hinside]
    simp [body?, Component.curlyBody?, Component.bodyOf?, hopener]
  rw [rule?_of_body?_eq_some hbody, Passage.rule?, Passage.isRule]
  simp only [Bool.not_eq_true', Bool.or_eq_false_iff, List.isEmpty_eq_false_iff,
    decide_eq_false_iff_not, ← not_or, ite_not]
  rfl

theorem rule?_of_body?_eq_none {statement : Statement} (h : statement.body? = none) :
    statement.rule? = none := by
  rw [rule?, h]

/-- The rules among the statements are the rules among the passages. -/
theorem filterMap_rulesFrom {lexemes : List Lexeme}
    (htext : Css.lexemes (Lexeme.joined lexemes) = lexemes) (head : List Component) :
    (rulesFrom head (Component.ofLexemes lexemes)).filterMap rule? =
      (passages (.head (Component.lexemesIn head.reverse)) [] lexemes).filterMap
        Passage.rule? := by
  induction lexemes using Component.induction_on_blocks generalizing head with
  | nil =>
    have hend : rulesFrom head (Component.ofLexemes []) =
        if head.isEmpty then [] else [⟨head.reverse, none⟩] := rfl
    rw [hend, passages]
    split <;> rfl
  | leaf lexeme rest hopens ih =>
    have hhead : Component.lexemesIn head.reverse = [] ↔ head = [] := by
      rw [Component.lexemesIn_eq_nil_iff, List.reverse_eq_nil_iff]
    have ihRest := ih (next?_of_lexemes_eq_cons htext).2
    rw [Component.ofLexemes_cons_of_leaf hopens, rulesFrom_leaf, passages_leaf hopens]
    simp only [hhead]
    split
    next => exact ihRest []
    next =>
      split
      next =>
        rw [List.filterMap_cons_none (rule?_of_body?_eq_none rfl)]
        exact ihRest []
      next =>
        rw [ihRest (.leaf lexeme :: head), List.reverse_cons, Component.lexemesIn_append]
        rfl
  | block opener bracket rest hopens ihInside ihAfter =>
    have ihRest := ihAfter (lexemes_after_enclosed htext [bracket])
    rw [Component.ofLexemes_cons_of_opens hopens, rulesFrom_block, passages_block hopens]
    split
    next hcurly =>
      obtain rfl := (Token.eq_opener_curly_iff hopens).1 hcurly
      rw [List.filterMap_cons, List.filterMap_cons,
        rule?_of_curly head.reverse hcurly (lexemes_enclosed_curly htext), ihRest []]
      rfl
    next =>
      rw [ihRest, List.reverse_cons, Component.lexemesIn_append, Component.lexemesIn_block,
        List.append_assoc]

end Statement

end Css

namespace RuleSet

theorem insertAll_filterMap_rule? (rules : RuleSet) (passages : List Passage) :
    rules.insertAll (passages.filterMap Passage.rule?) =
      (passages.filter (·.isRule)).foldl
        (fun rules passage ↦ rules.insert (.ofList passage.selector) passage.declarations)
        rules := by
  induction passages generalizing rules with
  | nil => rfl
  | cons passage passages ih =>
    rw [List.filter_cons]
    split
    next h =>
      have hrule : passage.rule? = some (.ofList passage.selector, passage.declarations) :=
        if_pos h
      rw [List.filterMap_cons_some hrule, insertAll_cons, ih, List.foldl_cons]
    next h =>
      have hrule : passage.rule? = none := if_neg h
      rw [List.filterMap_cons_none hrule, ih]

/-- The rules of a text are those of the blocks that one pass over its lexemes finds, inserted in
the order of the text, without those that have no selector and those of at-rules. -/
theorem parse_eq_foldl (text : String) :
    RuleSet.parse text =
      ((passages (.head []) [] (lexemes text.toList)).filter (·.isRule)).foldl
        (fun rules passage ↦ rules.insert (.ofList passage.selector) passage.declarations) ∅ := by
  have htext : lexemes (Lexeme.joined (lexemes text.toList)) = lexemes text.toList := by
    rw [joined_lexemes]
  have hrules : ((Statement.rulesIn (components text.toList)).filterMap Statement.rule?) =
      (passages (.head []) [] (lexemes text.toList)).filterMap Passage.rule? :=
    Statement.filterMap_rulesFrom htext []
  rw [RuleSet.parse, ofComponents, ofList, hrules, insertAll_filterMap_rule?]

example : (passages (.head []) [] (lexemes "a(;])b\x7bc:\x7b;)\x7dd\x7d ]e;f\x7bg".toList)).map
    (fun passage ↦ (passage.selector, Lexeme.joined passage.body)) =
      [("a(;])b".toList, "c:\x7b;)\x7dd".toList), ("f".toList, "g".toList)] := by decide

end RuleSet

end TouchTarget
