import TouchTarget.Proofs.Css.Statements
import TouchTarget.Proofs.Rules.AtRules
import TouchTarget.Proofs.Rules.MediaRule

/-!
# At-rules that can be left out

An at-rule between two texts is one statement of the whole, whatever its prelude and its block hold.
It is no rule by itself, so that the rules of the whole are those of the two texts without it. The
sheet does not notice it either, unless it is a media rule that has a threshold and a block. Inside
the block of a media rule even a media rule with a threshold leaves no trace.
-/

namespace TouchTarget

open Text Css

namespace Css

/-- The parts of an at-rule: a keyword with its prelude, outside the blocks of which there is no
semicolon and no curly bracket, and a semicolon or a block. -/
structure AtRule where
  /-- The name behind the sign of the keyword. -/
  name : List Char
  keyword : List Char
  prelude : List Char
  /-- What the block holds; a semicolon takes the place of a missing block. -/
  body? : Option (List Char)
  isHead : IsHead (keyword ++ prelude)
  lexemes_head : lexemes (keyword ++ prelude) = ⟨.atKeyword name, keyword⟩ :: lexemes prelude
  isBody : ∀ body ∈ body?, IsBody body

namespace AtRule

def endText : Option (List Char) → List Char
  | none => [';']
  | some body => '\x7b' :: (body ++ ['\x7d'])

def endComponent : Option (List Char) → Component
  | none => .leaf ⟨.semicolon, [';']⟩
  | some body => .curly (components body)

variable (rule : AtRule)

def text : List Char :=
  rule.keyword ++ rule.prelude ++ endText rule.body?

def statement : Statement where
  head := .leaf ⟨.atKeyword rule.name, rule.keyword⟩ :: components rule.prelude
  terminator? := some (endComponent rule.body?)

/-- The rule is a media rule with a block, and a feature of its prelude asks for a largest width. -/
def IsConditional : Prop :=
  sameLetters rule.name ['m', 'e', 'd', 'i', 'a'] ∧ rule.body?.isSome ∧
    ∃ feature ∈ featuresIn (components rule.prelude), ∃ width, AsksForMaxWidth feature width

/-! ## The statement of an at-rule -/

theorem components_head : components (rule.keyword ++ rule.prelude) =
    .leaf ⟨.atKeyword rule.name, rule.keyword⟩ :: components rule.prelude := by
  rw [components, rule.lexemes_head, Component.ofLexemes_cons_of_leaf rfl, components]

theorem components_append (more : List Char) : components (rule.text ++ more) =
    components (rule.keyword ++ rule.prelude) ++
      endComponent rule.body? :: components more := by
  rw [text, List.append_assoc]
  cases hbody : rule.body? with
  | none => exact components_append_semicolon rule.isHead.toIsClosed more
  | some body =>
    have hblock : endText (some body) ++ more = '\x7b' :: (body ++ '\x7d' :: more) := by
      simp [endText]
    rw [hblock]
    exact components_append_block rule.isHead.toIsClosed (rule.isBody body hbody) more

/-- The rule is one statement, whatever follows it. -/
theorem rulesIn_append (more : List Char) :
    Statement.rulesIn (components (rule.text ++ more)) =
      rule.statement :: Statement.rulesIn (components more) := by
  have hends : (endComponent rule.body?).isSemicolon ∨
      (endComponent rule.body?).curlyBody?.isSome := by
    cases rule.body? with
    | none => exact .inl rfl
    | some body => exact .inr rfl
  have hhead := rule.isHead.endsNoRule
  rw [rule.components_head] at hhead
  rw [rule.components_append, rule.components_head]
  exact Statement.rulesIn_append_end ⟨rfl, rfl⟩ hhead hends _

theorem rule?_statement : rule.statement.rule? = none := by
  have hmem : rule.statement ∈ Statement.rulesIn (components (rule.text ++ [])) := by
    rw [rule.rulesIn_append]
    exact List.mem_cons_self
  exact Statement.rule?_of_atKeyword hmem rfl

/-- Between a complete text and any other, the rule is a statement of its own. -/
theorem rulesIn_between {before : List Char} (hbefore : IsComplete before) (after : List Char) :
    Statement.rulesIn (components (before ++ (rule.text ++ after))) =
      Statement.rulesIn (components before) ++ rule.statement ::
        Statement.rulesIn (components after) := by
  rw [hbefore.rulesIn_append, rule.rulesIn_append]

end AtRule

/-! ## At-rules inside a block -/

theorem Lexeme.endsInside_delimiter {lexeme : Lexeme} {c : Char} (hc : isDelimiter c)
    (htext : lexeme.text = [c]) : lexeme.endsInside = false := by
  obtain ⟨token, htoken⟩ := stepStart_delimiter hc
  have hrun : State.start.run [c] = some (.done token) := congrArg some htoken
  rw [endsInside, htext, hrun]
  rfl

/-- Nothing is open at the end of a complete text. -/
theorem IsComplete.endsBetweenLexemes {text : List Char} (h : IsComplete text) :
    EndsBetweenLexemes text := by
  by_cases htext : text = []
  · subst htext
    exact nofun
  · obtain ⟨last, hlast, c, hc, hspelling⟩ := h.endsWithDelimiter htext
    intro lexeme hmem
    obtain rfl := Option.some.inj (hlast.symm.trans hmem)
    exact Lexeme.endsInside_delimiter hc hspelling

/-- Behind a complete text it is for the rest to be closed. -/
theorem IsComplete.isClosed_append_iff {text : List Char} (h : IsComplete text)
    (more : List Char) : IsClosed (text ++ more) ↔ IsClosed more := by
  have hcloses : Component.closesAll (lexemes (text ++ more)) =
      Component.closesAll (lexemes more) := by
    rw [h.lexemes_append, Component.closesAll_append h.closesAll]
  have hends : EndsBetweenLexemes (text ++ more) ↔ EndsBetweenLexemes more := by
    unfold EndsBetweenLexemes
    rw [h.lexemes_append, List.getLast?_append]
    cases hlast : (lexemes more).getLast? with
    | none =>
      rw [Option.none_or]
      exact iff_of_true h.endsBetweenLexemes nofun
    | some last => rw [Option.some_or]
  constructor
  · rintro ⟨hwholeEnds, hwholeCloses⟩
    exact ⟨hends.1 hwholeEnds, hcloses ▸ hwholeCloses⟩
  · rintro ⟨hmoreEnds, hmoreCloses⟩
    exact ⟨hends.2 hmoreEnds, hcloses ▸ hmoreCloses⟩

namespace AtRule

theorem isComplete (rule : AtRule) : IsComplete rule.text := by
  have hcomponents : components rule.text =
      components (rule.keyword ++ rule.prelude) ++ [endComponent rule.body?] := by
    rw [← List.append_nil rule.text, rule.components_append]
    rfl
  intro component hlast
  rw [hcomponents, Option.mem_def, List.getLast?_concat] at hlast
  obtain rfl := Option.some.inj hlast
  cases rule.body? with
  | none => exact .inl rfl
  | some body => exact .inr rfl

/-- The body of a block is still one without an at-rule in it. -/
theorem isBody_of_between (rule : AtRule) {before after : List Char} (hbefore : IsComplete before)
    (h : IsBody (before ++ (rule.text ++ after))) : IsBody (before ++ after) where
  toIsClosed := by
    rw [hbefore.isClosed_append_iff]
    have hclosed := h.toIsClosed
    rw [hbefore.isClosed_append_iff, rule.isComplete.isClosed_append_iff] at hclosed
    exact hclosed
  endsNoBlock := by
    have hstays := h.endsNoBlock
    rw [hbefore.components_append, rule.components_append] at hstays
    rw [hbefore.components_append]
    intro component hmem
    apply hstays
    rcases List.mem_append.1 hmem with hbefore | hafter
    · exact List.mem_append_left _ hbefore
    · exact List.mem_append_right _ (List.mem_append_right _ (List.mem_cons_of_mem _ hafter))

end AtRule

end Css

namespace StyleSheet

/-- A sheet does not notice an at-rule that is not conditional. -/
theorem read_atRule {rule : AtRule} (h : ¬rule.IsConditional) (sheet : StyleSheet) :
    sheet.read rule.statement = sheet := by
  cases hname : sameLetters rule.name ['m', 'e', 'd', 'i', 'a'] with
  | false =>
    have hmedia : rule.statement.mediaCondition? = none :=
      if_neg (Bool.eq_false_iff.1 hname)
    rw [read, hmedia, rule.rule?_statement]
  | true =>
    have hmedia : rule.statement.mediaCondition? = some (components rule.prelude) := if_pos hname
    cases hbody : rule.body? with
    | none =>
      have hnone : rule.statement.body? = none := by
        unfold AtRule.statement
        rw [hbody]
        rfl
      rw [read, hmedia, hnone]
    | some body =>
      have hsome : rule.statement.body? = some (components body) := by
        unfold AtRule.statement
        rw [hbody]
        rfl
      have hthreshold : threshold? (components rule.prelude) = none := by
        rw [threshold?_eq_none_iff]
        intro feature hfeature width hasks
        exact h ⟨hname, by rw [hbody]; rfl, feature, hfeature, width, hasks⟩
      rw [read_media hmedia hsome, hthreshold]

/-- An at-rule between a complete text and any other adds no rules to those of the two texts. The
sheet does not notice it either, unless it is conditional. In the block of a media rule it leaves no
trace in any case, also if it is conditional itself. -/
theorem parse_append_atRule (before : String) (hbefore : IsComplete before.toList) (rule : AtRule)
    (after : String) :
    (¬rule.IsConditional → parse (before ++ .ofList rule.text ++ after) = parse (before ++ after)) ∧
      RuleSet.parse (before ++ .ofList rule.text ++ after) = RuleSet.parse (before ++ after) ∧
      ∀ condition : String, IsHead condition.toList → EndsKeyword condition.toList →
        IsBody (before ++ .ofList rule.text ++ after).toList →
        parse ("@media" ++ condition ++ "\x7b" ++ (before ++ .ofList rule.text ++ after) ++
            "\x7d") =
          parse ("@media" ++ condition ++ "\x7b" ++ (before ++ after) ++ "\x7d") := by
  have htext : (before ++ .ofList rule.text ++ after).toList =
      before.toList ++ (rule.text ++ after.toList) := by
    rw [String.toList_append, String.toList_append, String.toList_ofList, List.append_assoc]
  have hwith := rule.rulesIn_between hbefore after.toList
  have hwithout := hbefore.rulesIn_append after.toList
  rw [← String.toList_append] at hwithout
  rw [← htext] at hwith
  have hrules : RuleSet.parse (before ++ .ofList rule.text ++ after) =
      RuleSet.parse (before ++ after) := by
    rw [RuleSet.parse, RuleSet.parse, RuleSet.ofComponents, RuleSet.ofComponents, hwith, hwithout,
      List.filterMap_append, List.filterMap_append, List.filterMap_cons_none rule.rule?_statement]
  refine ⟨?_, hrules, ?_⟩
  · intro hconditional
    rw [parse, parse, ofComponents, ofComponents, hwith, hwithout, List.foldl_append,
      List.foldl_append, List.foldl_cons, read_atRule hconditional]
  · intro condition hcondition hends hbody
    have hbody' : IsBody (before ++ after).toList := by
      rw [htext] at hbody
      rw [String.toList_append]
      exact rule.isBody_of_between hbefore hbody
    rw [parse_media condition _ hcondition hends hbody,
      parse_media condition _ hcondition hends hbody', hrules]

/-- A media rule without a threshold, with a rule and a stray semicolon in its block. -/
def printRule : AtRule where
  name := "Media".toList
  keyword := "@Media".toList
  prelude := " print".toList
  body? := some "b{width:2px};".toList
  isHead := ⟨⟨by decide, by decide⟩, by decide⟩
  lexemes_head := by decide
  isBody := by
    intro body hbody
    obtain rfl := Option.some.inj hbody
    exact ⟨⟨by decide, by decide⟩, by decide⟩

/-- Between two rules, and between two rules in the block of a media rule. -/
theorem parse_rule_append_printRule :
    IsComplete "a{width:1px}".toList ∧ ¬printRule.IsConditional ∧
      parse ("a{width:1px}" ++ .ofList printRule.text ++ "c{height:3px}") =
        parse ("a{width:1px}" ++ "c{height:3px}") ∧
      RuleSet.parse ("a{width:1px}" ++ .ofList printRule.text ++ "c{height:3px}") =
        RuleSet.parse ("a{width:1px}" ++ "c{height:3px}") ∧
      parse ("@media" ++ "(max-width:9px)" ++ "\x7b" ++
          ("a{width:1px}" ++ .ofList printRule.text ++ "c{height:3px}") ++ "\x7d") =
        parse ("@media" ++ "(max-width:9px)" ++ "\x7b" ++ ("a{width:1px}" ++ "c{height:3px}") ++
          "\x7d") := by
  have hbefore : IsComplete "a{width:1px}".toList := by decide
  have hrule : ¬printRule.IsConditional := by
    rintro ⟨-, -, feature, hfeature, -⟩
    have hfeatures : (featuresIn (components printRule.prelude)).length = 0 := by decide
    exact Nat.ne_of_gt (List.length_pos_of_mem hfeature) hfeatures
  have hcondition : IsHead "(max-width:9px)".toList := ⟨⟨by decide, by decide⟩, by decide⟩
  have hends : EndsKeyword "(max-width:9px)".toList := endsKeyword_cons (.inr (.inr rfl)) _
  have hbody : IsBody ("a{width:1px}" ++ .ofList printRule.text ++ "c{height:3px}").toList :=
    ⟨⟨by decide, by decide⟩, by decide⟩
  obtain ⟨hsheet, hrules, hmedia⟩ := parse_append_atRule "a{width:1px}" hbefore printRule
    "c{height:3px}"
  exact ⟨hbefore, hrule, hsheet hrule, hrules, hmedia _ hcondition hends hbody⟩

end StyleSheet

end TouchTarget
