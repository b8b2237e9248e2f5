import TouchTarget.Proofs.Rules.AtRules
import TouchTarget.Proofs.Rules.Merging
import TouchTarget.Proofs.Rules.OnePass

/-!
# Declarations found in one pass

The declarations of a block can be found by cutting its lexemes behind every semicolon outside all
brackets. What a clause declares is then a matter of its verbatim text. The main statement says that
the block gives a property the value that the last clause declaring it gives, and that the body of a
block has in its place the components that its text has alone, so that this holds of the blocks of
any text. A clause that declares nothing leaves the others as they are.
-/

namespace TouchTarget

open Text Css

namespace Css

/-- Cuts lexemes behind every semicolon outside all brackets; `read` is what the current clause has.
The last clause ends with the lexemes, and may be empty. -/
def clauses (read : List Lexeme) (opened : List Bracket) : List Lexeme → List (List Lexeme)
  | [] => [read]
  | lexeme :: rest =>
    if opened = [] ∧ lexeme.token = .semicolon then (read ++ [lexeme]) :: clauses [] [] rest
    else clauses (read ++ [lexeme]) (lexeme.token.nest opened) rest

/-- A clause without the blanks and the comments that it begins with. -/
def significant (clause : List Lexeme) : List Lexeme :=
  clause.dropWhile (·.token.isTrivia)

def clauseText (clause : List Lexeme) : List Char :=
  Lexeme.joined (significant clause)

/-- What is left of a text without one semicolon at its end. -/
def IsWithoutSemicolon (text stripped : List Char) : Prop :=
  text = stripped ++ [';'] ∨ text = stripped ∧ text.getLast? ≠ some ';'

/-- A text declares a property if there is a name in front of its first colon. What is behind the
colon is the value, without one semicolon at the end of the text. -/
def Declares (text : List Char) (property value : String) : Prop :=
  ∃ left right, IsWithoutSemicolon text (left ++ ':' :: right) ∧ ':' ∉ left ∧ trim left ≠ [] ∧
    property = .ofList (trim left) ∧ value = .ofList (trim right)

/-- The last clause that declares the property gives it the value. -/
def IsLastDeclared (clauses : List (List Lexeme)) (property value : String) : Prop :=
  ∃ before clause after, clauses = before ++ clause :: after ∧
    Declares (clauseText clause) property value ∧
    ∀ later ∈ after, ∀ other, ¬Declares (clauseText later) property other

/-! ## What a text declares -/

theorem isWithoutSemicolon_iff {text stripped : List Char} :
    IsWithoutSemicolon text stripped ↔
      (if text.getLast? = some ';' then text.dropLast else text) = stripped := by
  unfold IsWithoutSemicolon
  split
  next h =>
    obtain ⟨front, rfl⟩ := List.getLast?_eq_some_iff.1 h
    rw [List.dropLast_concat, List.append_cancel_right_eq]
    exact ⟨fun h' ↦ h'.resolve_right fun hne ↦ hne.2 h, .inl⟩
  next h =>
    constructor
    · rintro (rfl | ⟨rfl, -⟩)
      · exact absurd List.getLast?_concat h
      · rfl
    · intro heq
      exact .inr ⟨heq, h⟩

/-- A text is parted at its first colon. -/
theorem eq_append_colon_iff {text left right : List Char} :
    text = left ++ ':' :: right ∧ ':' ∉ left ↔
      text.takeWhile (· != ':') = left ∧ text.dropWhile (· != ':') = ':' :: right := by
  constructor
  · rintro ⟨rfl, hleft⟩
    have hne : ∀ c ∈ left, (c != ':') = true := by
      intro c hc
      rw [bne_iff_ne]
      rintro rfl
      exact hleft hc
    rw [List.takeWhile_append_of_pos hne, List.dropWhile_append_of_pos hne,
      List.takeWhile_cons_of_neg (by decide), List.dropWhile_cons_of_neg (by decide),
      List.append_nil]
    exact ⟨rfl, rfl⟩
  · rintro ⟨rfl, hdrop⟩
    refine ⟨by rw [← hdrop, List.takeWhile_append_dropWhile], ?_⟩
    intro hmem
    have hne := List.all_eq_true.1 (List.all_takeWhile (p := (· != ':')) (l := text)) ':' hmem
    cases hne

namespace Statement

/-- What a statement declares depends on its text only. -/
theorem declaration?_congr {statement other : Statement} (h : statement.text = other.text) :
    statement.declaration? = other.declaration? := by
  unfold declaration?
  rw [h]

theorem declaration?_eq_some_iff {statement : Statement} {property value : String} :
    statement.declaration? = some (property, value) ↔
      Declares statement.text property value := by
  unfold Declares declaration?
  simp only [isWithoutSemicolon_iff]
  generalize (if statement.text.getLast? = some ';' then statement.text.dropLast
    else statement.text) = text
  constructor
  · intro h
    split at h
    next => cases h
    next colon right hdrop =>
      split at h
      next => cases h
      next hname =>
        obtain ⟨rfl, rfl⟩ := Prod.mk.injEq .. ▸ Option.some.inj h
        obtain rfl : colon = ':' := by
          have hcolon := List.head?_dropWhile_not (· != ':') text
          simpa [hdrop] using hcolon
        obtain ⟨htext, hleft⟩ := eq_append_colon_iff.2 ⟨rfl, hdrop⟩
        exact ⟨_, right, htext, hleft, by simpa using hname, rfl, rfl⟩
  · rintro ⟨left, right, htext, hleft, hname, rfl, rfl⟩
    obtain ⟨htake, hdrop⟩ := eq_append_colon_iff.1 ⟨htext, hleft⟩
    simp [htake, hdrop, hname]

end Statement

/-! ## Clauses and the statements of a block -/

/-- A block belongs to the clause in which it stands. -/
theorem clauses_enclosed {opened : List Bracket} (h : opened ≠ []) (read lexemes : List Lexeme) :
    clauses read opened lexemes =
      clauses (read ++ (enclosed opened lexemes).inside ++
        (enclosed opened lexemes).closer?.toList) [] (enclosed opened lexemes).after := by
  induction lexemes generalizing read opened with
  | nil => rw [enclosed_nil, clauses, clauses, Option.toList_none, List.append_nil, List.append_nil]
  | cons lexeme rest ih =>
    rw [clauses, if_neg fun hnil ↦ h hnil.1]
    by_cases hnil : lexeme.token.nest opened = []
    · rw [hnil, enclosed_cons_of_nest_eq_nil hnil, List.append_nil, Option.toList_some]
    · rw [ih hnil, enclosed_cons_of_nest_ne_nil hnil, List.append_assoc read,
        List.singleton_append]

theorem significant_append (read more : List Lexeme) :
    significant (read ++ more) =
      if significant read = [] then significant more else significant read ++ more := by
  unfold significant
  rw [List.dropWhile_append]
  simp only [List.isEmpty_iff]

theorem significant_cons (lexeme : Lexeme) (rest : List Lexeme) :
    significant (lexeme :: rest) =
      if lexeme.token.isTrivia then significant rest else lexeme :: rest :=
  List.dropWhile_cons

/-- A clause as a statement of its own. -/
def clauseStatement (clause : List Lexeme) : Statement where
  head := (significant clause).map .leaf
  terminator? := none

theorem Component.lexemesIn_map_leaf (lexemes : List Lexeme) :
    lexemesIn (lexemes.map .leaf) = lexemes := by
  induction lexemes with
  | nil => rfl
  | cons lexeme rest ih =>
    rw [List.map_cons, lexemesIn, ih, Component.lexemes, List.singleton_append]

theorem text_clauseStatement (clause : List Lexeme) :
    (clauseStatement clause).text = clauseText clause := by
  rw [Statement.text, clauseStatement, Option.toList_none, List.append_nil, Component.text,
    Component.lexemesIn_map_leaf, clauseText]

/-- Outside all brackets, a lexeme that opens nothing ends the clause or belongs to it. -/
theorem clauses_leaf {lexeme : Lexeme} (h : lexeme.token.opens? = none)
    (read rest : List Lexeme) :
    clauses read [] (lexeme :: rest) =
      if lexeme.token = .semicolon then (read ++ [lexeme]) :: clauses [] [] rest
      else clauses (read ++ [lexeme]) [] rest := by
  rw [clauses, Token.nest_nil_of_leaf h]
  simp only [true_and]

/-- Outside all brackets, a block belongs to the clause. -/
theorem clauses_block {opener : Lexeme} {bracket : Bracket}
    (h : opener.token.opens? = some bracket) (read rest : List Lexeme) :
    clauses read [] (opener :: rest) =
      clauses (read ++ opener :: (enclosed [bracket] rest).inside ++
        (enclosed [bracket] rest).closer?.toList) [] (enclosed [bracket] rest).after := by
  have hsemicolon : opener.token ≠ .semicolon := Token.ne_semicolon_of_opens h
  rw [clauses, if_neg fun hand ↦ hsemicolon hand.2, Token.nest_of_opens h,
    clauses_enclosed (List.cons_ne_nil bracket []), List.append_assoc read, List.singleton_append]

namespace Statement

/-- The declarations of components, if a statement has already begun; the last component of it comes
first. -/
def declarationsFrom (head components : List Component) : List Statement :=
  split Component.isTrivia Component.isSemicolon head components

theorem declarationsFrom_leaf (head : List Component) (lexeme : Lexeme) (rest : List Component) :
    declarationsFrom head (.leaf lexeme :: rest) =
      if head = [] ∧ lexeme.token.isTrivia then declarationsFrom [] rest
      else if lexeme.token = .semicolon then
        ⟨head.reverse, some (.leaf lexeme)⟩ :: declarationsFrom [] rest
      else declarationsFrom (.leaf lexeme :: head) rest := by
  have htrivia : (Component.leaf lexeme).isTrivia = lexeme.token.isTrivia := rfl
  have hsemicolon : (Component.leaf lexeme).isSemicolon = decide (lexeme.token = .semicolon) := by
    simp [Component.isSemicolon, Component.token?]
  unfold declarationsFrom
  rw [split, htrivia, hsemicolon]
  simp only [Bool.and_eq_true, List.isEmpty_iff, decide_eq_true_eq]

theorem declarationsFrom_block (head : List Component) (opener : Lexeme) (body : List Component)
    (closer? : Option Lexeme) (rest : List Component) :
    declarationsFrom head (.block opener body closer? :: rest) =
      declarationsFrom (.block opener body closer? :: head) rest := by
  have htrivia : (Component.block opener body closer?).isTrivia = false := rfl
  have hsemicolon : (Component.block opener body closer?).isSemicolon = false := rfl
  unfold declarationsFrom
  rw [split, htrivia, hsemicolon, Bool.and_false, if_neg Bool.false_ne_true,
    if_neg Bool.false_ne_true]

/-- A statement declares what a clause with its lexemes declares. -/
theorem declaration?_eq_of_significant {statement : Statement} {clause : List Lexeme}
    (h : significant clause =
      Component.lexemesIn (statement.head ++ statement.terminator?.toList)) :
    statement.declaration? = (clauseStatement clause).declaration? := by
  apply declaration?_congr
  rw [text_clauseStatement, clauseText, h]
  rfl

/-- The declarations among the statements are those among the clauses. What a statement has so far
is what the clause has so far, without the fillers in front of it. -/
theorem filterMap_declarationsFrom (lexemes : List Lexeme) {head : List Component}
    {read : List Lexeme} (hread : significant read = Component.lexemesIn head.reverse) :
    (declarationsFrom head (Component.ofLexemes lexemes)).filterMap declaration? =
      (clauses read [] lexemes).filterMap fun clause ↦ (clauseStatement clause).declaration? := by
  induction lexemes using Component.induction_on_blocks generalizing head read with
  | nil =>
    have hend : declarationsFrom head (Component.ofLexemes []) =
        if head.isEmpty then [] else [⟨head.reverse, none⟩] := rfl
    have hlast : (Statement.mk head.reverse none).declaration? =
        (clauseStatement read).declaration? := by
      apply declaration?_eq_of_significant
      rw [hread, Option.toList_none, List.append_nil]
    rw [hend, clauses, List.filterMap_cons, ← hlast]
    cases head <;> rfl
  | leaf lexeme rest hopens ih =>
    have hnil : significant read = [] ↔ head = [] := by
      rw [hread, Component.lexemesIn_eq_nil_iff, List.reverse_eq_nil_iff]
    rw [Component.ofLexemes_cons_of_leaf hopens, declarationsFrom_leaf, clauses_leaf hopens]
    by_cases htrivia : head = [] ∧ lexeme.token.isTrivia
    · have hsemicolon : lexeme.token ≠ .semicolon := by
        intro htoken
        rw [htoken] at htrivia
        cases htrivia.2
      rw [if_pos htrivia, if_neg hsemicolon]
      apply ih
      rw [significant_append, if_pos (hnil.2 htrivia.1), significant_cons, if_pos htrivia.2]
      rfl
    · have hclause : significant (read ++ [lexeme]) =
          Component.lexemesIn (head.reverse ++ [.leaf lexeme]) := by
        rw [significant_append, Component.lexemesIn_append, ← hread]
        simp only [hnil]
        split
        next hhead =>
          rw [significant_cons, if_neg fun h ↦ htrivia ⟨hhead, h⟩, hnil.2 hhead]
          rfl
        next => rfl
      rw [if_neg htrivia]
      split
      next =>
        have hstatement : (Statement.mk head.reverse (some (.leaf lexeme))).declaration? =
            (clauseStatement (read ++ [lexeme])).declaration? :=
          declaration?_eq_of_significant hclause
        have hnothing : significant [] = Component.lexemesIn [].reverse := rfl
        have hrest := ih hnothing
        rw [List.filterMap_cons, List.filterMap_cons, hstatement, hrest]
      next =>
        apply ih
        rw [hclause, List.reverse_cons]
  | block opener bracket rest hopens ihInside ihAfter =>
    have htrivia : opener.token.isTrivia = false := by
      cases htoken : opener.token <;> rw [htoken] at hopens <;> cases hopens <;> rfl
    rw [Component.ofLexemes_cons_of_opens hopens, declarationsFrom_block, clauses_block hopens]
    apply ihAfter
    rw [List.append_assoc, significant_append, List.cons_append, significant_cons, htrivia,
      if_neg Bool.false_ne_true, List.reverse_cons, Component.lexemesIn_append, ← hread,
      Component.lexemesIn_block, List.cons_append]
    split
    next hnil => rw [hnil, List.nil_append]
    next => rfl

end Statement

theorem declaration?_clauseStatement {clause : List Lexeme} {property value : String} :
    (clauseStatement clause).declaration? = some (property, value) ↔
      Declares (clauseText clause) property value := by
  rw [Statement.declaration?_eq_some_iff, text_clauseStatement]

/-! ## Bodies in their place -/

/-- The inside of a block in curly brackets has in its place the components that its text has
alone. -/
theorem components_text_of_curlyBody? {lexemes : List Lexeme}
    (hlexemes : Css.lexemes (Lexeme.joined lexemes) = lexemes) {component : Component}
    (hmem : component ∈ Component.ofLexemes lexemes) {body : List Component}
    (hbody : component.curlyBody? = some body) : components (Component.text body) = body := by
  induction lexemes using Component.induction_on_blocks with
  | nil => cases hmem
  | leaf lexeme rest hopens ih =>
    rw [Component.ofLexemes_cons_of_leaf hopens] at hmem
    rcases List.mem_cons.1 hmem with rfl | hmem
    · cases hbody
    · exact ih (next?_of_lexemes_eq_cons hlexemes).2 hmem
  | block opener bracket rest hopens ihInside ihAfter =>
    rw [Component.ofLexemes_cons_of_opens hopens] at hmem
    rcases List.mem_cons.1 hmem with rfl | hmem
    · rw [Component.curlyBody?, Component.bodyOf?] at hbody
      split at hbody
      next hcurly =>
        obtain rfl := (Token.eq_opener_curly_iff hopens).1 hcurly
        obtain rfl := Option.some.inj hbody
        rw [Component.text, Component.lexemesIn_ofLexemes, components,
          lexemes_enclosed_curly hlexemes]
      next => cases hbody
    · exact ihAfter (lexemes_after_enclosed hlexemes [bracket]) hmem

theorem Statement.components_text_of_body? {text : List Char} {statement : Statement}
    (h : statement ∈ rulesIn (components text)) {body : List Component}
    (hbody : statement.body? = some body) : components (Component.text body) = body := by
  obtain ⟨terminator, hterminator, hcurly⟩ := Option.bind_eq_some_iff.1 hbody
  have hlexemes : lexemes (Lexeme.joined (lexemes text)) = lexemes text := by rw [joined_lexemes]
  apply components_text_of_curlyBody? hlexemes _ hcurly
  have hmem : terminator ∈ statement.head ++ statement.terminator?.toList := by
    rw [hterminator]
    exact List.mem_append_right _ List.mem_cons_self
  exact (mem_of_mem_split h hmem).resolve_left List.not_mem_nil

end Css

namespace Declarations

/-- The last entry for a property counts. -/
theorem getElem?_ofList_eq_some_iff {entries : List (String × String)} {property value : String} :
    (Std.ExtTreeMap.ofList entries : Declarations)[property]? = some value ↔
      ∃ before after, entries = before ++ (property, value) :: after ∧
        ∀ entry ∈ after, entry.1 ≠ property := by
  rw [Std.ExtTreeMap.ofList_eq_insertMany_empty, Std.ExtTreeMap.getElem?_insertMany_list,
    Std.ExtTreeMap.getElem?_empty, Option.or_none, List.findSomeRev?_eq_findSome?_reverse,
    findSome?_reverse_eq_some_iff]
  simp only [Std.LawfulEqOrd.compare_eq_iff_eq, Option.ite_none_right_eq_some,
    ite_eq_right_iff, reduceCtorEq, imp_false, Option.some.injEq]
  constructor
  · rintro ⟨before, entry, after, rfl, ⟨rfl, rfl⟩, hafter⟩
    exact ⟨before, after, rfl, hafter⟩
  · rintro ⟨before, after, rfl, hafter⟩
    exact ⟨before, (property, value), after, rfl, ⟨rfl, rfl⟩, hafter⟩

/-- The declarations of a text are those of its clauses. -/
theorem ofComponents_components (text : List Char) :
    ofComponents (components text) = .ofList ((clauses [] [] (lexemes text)).filterMap
      fun clause ↦ (clauseStatement clause).declaration?) := by
  have hentries : (Statement.declarationsIn (components text)).filterMap Statement.declaration? =
      (clauses [] [] (lexemes text)).filterMap
        fun clause ↦ (clauseStatement clause).declaration? :=
    Statement.filterMap_declarationsFrom (lexemes text) rfl
  rw [ofComponents, hentries]

/-- Clauses that declare nothing do not count. -/
theorem getElem?_ofList_filterMap_iff {clauses : List (List Lexeme)} {property value : String} :
    (Std.ExtTreeMap.ofList (clauses.filterMap fun clause ↦ (clauseStatement clause).declaration?) :
        Declarations)[property]? = some value ↔ IsLastDeclared clauses property value := by
  rw [getElem?_ofList_eq_some_iff]
  constructor
  · rintro ⟨before, after, hsplit, hafter⟩
    obtain ⟨front, back, rfl, -, hback⟩ := List.filterMap_eq_append_iff.1 hsplit
    obtain ⟨silent, clause, others, rfl, -, hclause, rfl⟩ := List.filterMap_eq_cons_iff.1 hback
    refine ⟨front ++ silent, clause, others, by rw [List.append_assoc],
      declaration?_clauseStatement.1 hclause, ?_⟩
    intro later hlater other hother
    exact hafter _ (List.mem_filterMap.2 ⟨later, hlater, declaration?_clauseStatement.2 hother⟩) rfl
  · rintro ⟨before, clause, after, rfl, hclause, hafter⟩
    refine ⟨_, _, by rw [List.filterMap_append, List.filterMap_cons,
      declaration?_clauseStatement.2 hclause], ?_⟩
    rintro ⟨name, stored⟩ hentry rfl
    obtain ⟨later, hlater, hdeclared⟩ := List.mem_filterMap.1 hentry
    exact hafter later hlater stored (declaration?_clauseStatement.1 hdeclared)

/-- The value of a property in the declarations of a block is the one that the last clause declaring
it gives it. The components that the text of a block has alone are those that the block has in its
place. -/
theorem getElem?_ofComponents_iff :
    (∀ body property value : String,
      (Declarations.ofComponents (components body.toList))[property]? = some value ↔
        IsLastDeclared (clauses [] [] (lexemes body.toList)) property value) ∧
      ∀ text : String, ∀ statement ∈ Statement.rulesIn (components text.toList),
        ∀ body ∈ statement.body?, components (Component.text body) = body := by
  constructor
  · intro body property value
    rw [ofComponents_components, getElem?_ofList_filterMap_iff]
  · intro text statement hstatement body hbody
    exact Statement.components_text_of_body? hstatement hbody

/-- A bracket that nothing closes takes the semicolon behind it into the value. -/
theorem getElem?_ofComponents_cut_off :
    (∃ statement ∈ Statement.rulesIn (components "a\x7bb:(;c".toList), ∃ body ∈ statement.body?,
        components (Component.text body) = body ∧ Component.text body = "b:(;c".toList) ∧
      (Declarations.ofComponents (components "b:(;c".toList))["b"]? = some "(;c" := by
  constructor
  · have hstatement : (Statement.mk (components ['a'])
        (some (.block ⟨.opener .curly, ['\x7b']⟩ (components "b:(;c".toList) none))) ∈
          Statement.rulesIn (components "a\x7bb:(;c".toList) := List.mem_singleton.2 rfl
    exact ⟨_, hstatement, _, rfl, getElem?_ofComponents_iff.2 _ _ hstatement _ rfl,
      Component.text_components _⟩
  · have hdeclares : Declares "b:(;c".toList "b" "(;c" :=
      ⟨['b'], "(;c".toList, .inr ⟨rfl, by decide⟩, by decide, by decide, rfl, rfl⟩
    exact (getElem?_ofComponents_iff.1 _ _ _).2
      ⟨[], lexemes "b:(;c".toList, [], rfl, hdeclares, List.forall_mem_nil _⟩

end Declarations

end TouchTarget
