import TouchTarget.Css.Statement
import TouchTarget.Proofs.Css.Nesting
import TouchTarget.Proofs.Css.Spelling

/-!
# Statements of texts put together

A text is complete if its last component ends a rule: a semicolon, or a block in curly brackets
with both of them. The statements of a complete text followed by another are those of the one and
then those of the other, whatever the other is. What may stand between two rules is a filler, and
a filler in front of a text adds nothing to its statements.
-/

namespace TouchTarget.Css

/-- A block from an opening to a closing curly bracket. -/
def Component.isClosedCurly : Component → Bool
  | .block opener _ (some closer) =>
    opener.token = .opener .curly && closer.token = .closer .curly
  | _ => false

/-- The text is empty, or its last token is a semicolon outside all blocks or the bracket that
closes a block in curly brackets which was opened outside all blocks. -/
def IsComplete (text : List Char) : Prop :=
  ∀ component ∈ (components text).getLast?, component.isSemicolon ∨ component.isClosedCurly

instance (text : List Char) : Decidable (IsComplete text) :=
  inferInstanceAs (Decidable (∀ component ∈ (components text).getLast?, _))

theorem Component.isSome_curlyBody?_of_isClosedCurly {component : Component}
    (h : component.isClosedCurly) : component.curlyBody?.isSome := by
  fun_cases isClosedCurly component <;> simp_all [isClosedCurly, curlyBody?, bodyOf?]

/-! ## Cutting a list of components -/

namespace Statement

theorem split_append {skips ends : Component → Bool} {left : List Component}
    (hlast : ∀ component ∈ left.getLast?, ends component) (head right : List Component)
    (hhead : left = [] → head = []) :
    split skips ends head (left ++ right) =
      split skips ends head left ++ split skips ends [] right := by
  induction left generalizing head with
  | nil =>
    rw [hhead rfl]
    rfl
  | cons component left ih =>
    have hrest : ∀ component ∈ left.getLast?, ends component := by
      intro last hmem
      apply hlast
      rw [Option.mem_def, List.getLast?_cons, hmem, Option.getD_some]
    rw [List.cons_append, split, split]
    split
    · exact ih hrest [] fun _ ↦ rfl
    · split
      · rw [ih hrest [] fun _ ↦ rfl, List.cons_append]
      · rename_i hends
        apply ih hrest
        intro hnil
        exact absurd (hlast component (by simp [hnil])) hends

/-- What may be skipped before a statement leaves none. -/
theorem split_cons_of_skips {skips ends : Component → Bool} {component : Component}
    (h : skips component) (rest : List Component) :
    split skips ends [] (component :: rest) = split skips ends [] rest := by
  rw [split, List.isEmpty_nil, h]
  rfl

theorem rulesIn_append {left : List Component}
    (h : ∀ component ∈ left.getLast?, component.isSemicolon ∨ component.isClosedCurly)
    (right : List Component) : rulesIn (left ++ right) = rulesIn left ++ rulesIn right := by
  apply split_append
  · intro component hmem
    rcases h component hmem with hsemicolon | hcurly
    · rw [hsemicolon, Bool.true_or]
    · rw [Component.isSome_curlyBody?_of_isClosedCurly hcurly, Bool.or_true]
  · intro _
    rfl

theorem rulesIn_cons_of_skips {lexeme : Lexeme}
    (h : lexeme.token.isTrivia ∨ isStray (.leaf lexeme)) (rest : List Component) :
    rulesIn (.leaf lexeme :: rest) = rulesIn rest := by
  apply split_cons_of_skips
  rw [Bool.or_eq_true]
  exact h

end Statement

/-! ## Complete texts -/

/-- A complete text leaves no block open. -/
theorem IsComplete.closesAll {text : List Char} (h : IsComplete text) :
    Component.closesAll (lexemes text) := by
  cases hstack : (OpenBlock.readAll (lexemes text)).2 with
  | nil => rw [Component.closesAll, hstack, List.isEmpty_nil]
  | cons block outer =>
    exfalso
    obtain ⟨opener, body, hlast⟩ := OpenBlock.getLast?_finish
      (hstack ▸ List.cons_ne_nil block outer) (OpenBlock.readAll (lexemes text)).1
    rcases h _ hlast with hsemicolon | hcurly
    · cases hsemicolon
    · cases hcurly

/-- The last lexeme of a component that ends a rule. -/
theorem Component.exists_last_lexeme {component : Component}
    (h : component.isSemicolon ∨ component.isClosedCurly) :
    ∃ front lexeme, component.lexemes = front ++ [lexeme] ∧
      (lexeme.token = .semicolon ∨ lexeme.token = .closer .curly) := by
  rcases h with hsemicolon | hcurly
  · cases component with
    | block opener body closer? => cases hsemicolon
    | leaf lexeme =>
      have htoken : lexeme.token = .semicolon := by
        simpa [isSemicolon, token?] using hsemicolon
      exact ⟨[], lexeme, by rw [lexemes, List.nil_append], .inl htoken⟩
  · unfold isClosedCurly at hcurly
    split at hcurly
    next opener body closer =>
      have htoken : closer.token = .closer .curly := by
        simp only [Bool.and_eq_true, decide_eq_true_eq] at hcurly
        exact hcurly.2
      exact ⟨opener :: lexemesIn body, closer, by rw [lexemes, Option.toList_some], .inr htoken⟩
    next => cases hcurly

theorem IsComplete.endsWithDelimiter {text : List Char} (h : IsComplete text)
    (htext : text ≠ []) : EndsWithDelimiter text := by
  have hne : components text ≠ [] := by
    intro hnil
    apply htext
    rw [← Component.text_components text, hnil, Component.text_nil]
  have hlast := List.getLast?_eq_some_getLast hne
  obtain ⟨components, hcomponents⟩ := List.getLast?_eq_some_iff.1 hlast
  obtain ⟨front, lexeme, hlexemes, htoken⟩ := Component.exists_last_lexeme (h _ hlast)
  have hsplit : lexemes text = (Component.lexemesIn components ++ front) ++ [lexeme] := by
    rw [← lexemesIn_components, hcomponents, Component.lexemesIn_append, Component.lexemesIn,
      Component.lexemesIn, hlexemes, List.append_nil, List.append_assoc]
  have hmem : lexeme ∈ lexemes text := by
    rw [hsplit]
    exact List.mem_append_right _ List.mem_cons_self
  have hmark : lexeme.token.isMark := by
    rcases htoken with htoken | htoken <;> rw [htoken] <;> rfl
  obtain ⟨c, htext, hstep⟩ := Lexeme.text_of_mark hmem hmark
  have hc : isDelimiter c := State.isDelimiter_of_stepStart hstep htoken
  exact ⟨lexeme, by rw [hsplit, Option.mem_def, List.getLast?_concat], c, hc, htext⟩

/-- Behind a complete text the lexemes begin anew. -/
theorem IsComplete.lexemes_append {text : List Char} (h : IsComplete text) (more : List Char) :
    lexemes (text ++ more) = lexemes text ++ lexemes more := by
  by_cases htext : text = []
  · rw [htext]
    rfl
  · exact lexemes_append_of_endsWithDelimiter (h.endsWithDelimiter htext) more

theorem IsComplete.components_append {text : List Char} (h : IsComplete text) (more : List Char) :
    components (text ++ more) = components text ++ components more := by
  rw [components, h.lexemes_append, Component.ofLexemes_append h.closesAll, components, components]

/-- Behind a complete text the statements begin anew, whatever follows it. -/
theorem IsComplete.rulesIn_append {text : List Char} (h : IsComplete text) (more : List Char) :
    Statement.rulesIn (components (text ++ more)) =
      Statement.rulesIn (components text) ++ Statement.rulesIn (components more) := by
  rw [h.components_append, Statement.rulesIn_append h]

/-! ## Fillers -/

/-- Text that may stand between two rules: spaces, comments with an end, the marks of a comment of
the surrounding document, and closing brackets, which close nothing there. -/
inductive IsFiller : List Char → Prop
  | nil : IsFiller []
  | space {c : Char} {rest : List Char} (hspace : isSpace c) (hrest : IsFiller rest) :
    IsFiller (c :: rest)
  /-- The first end of a comment behind its beginning is its end. -/
  | comment {body rest : List Char} (hbody : ¬['*', '/'] <:+: body ++ ['*'])
    (hrest : IsFiller rest) : IsFiller ('/' :: '*' :: body ++ '*' :: '/' :: rest)
  | markupOpen {rest : List Char} (hrest : IsFiller rest) :
    IsFiller ('<' :: '!' :: '-' :: '-' :: rest)
  | markupClose {rest : List Char} (hrest : IsFiller rest) : IsFiller ('-' :: '-' :: '>' :: rest)
  | closer {c : Char} {rest : List Char} (hcloser : c = ')' ∨ c = ']' ∨ c = '\x7d')
    (hrest : IsFiller rest) : IsFiller (c :: rest)

/-- A token in front of a text adds nothing to its statements if it may be skipped. -/
theorem rulesIn_components_append_done {text : List Char} {token : Token}
    (hrun : State.start.run text = some (.done token)) (hopens : token.opens? = none)
    (hskips : token.isTrivia ∨ Statement.isStray (.leaf ⟨token, text⟩)) (more : List Char) :
    Statement.rulesIn (components (text ++ more)) = Statement.rulesIn (components more) := by
  rw [components, lexemes_append_done hrun, Component.ofLexemes_cons_of_leaf hopens,
    Statement.rulesIn_cons_of_skips hskips, components]

/-- The spaces in front of a text make no difference to its statements. -/
theorem rulesIn_components_cons_space {c : Char} (hc : isSpace c) (text : List Char) :
    Statement.rulesIn (components (c :: text)) =
      Statement.rulesIn (components (text.dropWhile isSpace)) := by
  rw [components, lexemes_cons_space hc, Component.ofLexemes_cons_of_leaf rfl,
    Statement.rulesIn_cons_of_skips (.inl rfl), components]

theorem rulesIn_components_dropWhile (text : List Char) :
    Statement.rulesIn (components (text.dropWhile isSpace)) =
      Statement.rulesIn (components text) := by
  cases text with
  | nil => rfl
  | cons c text =>
    by_cases hc : isSpace c
    · rw [List.dropWhile_cons_of_pos hc, rulesIn_components_cons_space hc]
    · rw [List.dropWhile_cons_of_neg hc]

/-- A filler in front of a text adds nothing to its statements. -/
theorem IsFiller.rulesIn_append {filler : List Char} (h : IsFiller filler) (text : List Char) :
    Statement.rulesIn (components (filler ++ text)) = Statement.rulesIn (components text) := by
  induction h with
  | nil => rfl
  | space hspace hrest ih =>
    rw [List.cons_append, rulesIn_components_cons_space hspace, rulesIn_components_dropWhile, ih]
  | @comment body rest hbody hrest ih =>
    have hrun : State.start.run ('/' :: '*' :: body ++ ['*', '/']) = some (.done .comment) :=
      State.run_comment hbody
    have hsplit : '/' :: '*' :: body ++ '*' :: '/' :: rest ++ text =
        '/' :: '*' :: body ++ ['*', '/'] ++ (rest ++ text) := by simp
    rw [hsplit, rulesIn_components_append_done hrun rfl (.inl rfl), ih]
  | @markupOpen rest hrest ih =>
    have hrun : State.start.run ['<', '!', '-', '-'] = some (.done .markupOpen) := rfl
    have hskipped := rulesIn_components_append_done hrun rfl (.inr rfl) (rest ++ text)
    exact hskipped.trans ih
  | @markupClose rest hrest ih =>
    have hrun : State.start.run ['-', '-', '>'] = some (.done .markupClose) := rfl
    have hskipped := rulesIn_components_append_done hrun rfl (.inr rfl) (rest ++ text)
    exact hskipped.trans ih
  | @closer c rest hcloser hrest ih =>
    obtain ⟨bracket, hrun⟩ :
        ∃ bracket, State.start.run [c] = some (.done (.closer bracket)) := by
      rcases hcloser with rfl | rfl | rfl
      · exact ⟨.round, rfl⟩
      · exact ⟨.square, rfl⟩
      · exact ⟨.curly, rfl⟩
    have hskipped := rulesIn_components_append_done hrun rfl (.inr rfl) (rest ++ text)
    exact hskipped.trans ih

end TouchTarget.Css
