import TouchTarget.Proofs.Css.Depth

/-!
# Stops

A reader may be told to stop in front of a semicolon, of a block in curly brackets or of a closing
bracket. It stops at the first of these outside all brackets, which is where the components in front
of it end. For the closing bracket of a block this is the end of the block.
-/

namespace TouchTarget.Css

/-- What a reader may be told to stop in front of. -/
inductive Delimiter
  | semicolon
  | curlyBlock
  | closing (bracket : Bracket)
deriving DecidableEq, Repr

def Delimiter.token : Delimiter → Token
  | semicolon => .semicolon
  | curlyBlock => .opener .curly
  | closing bracket => .closer bracket

/-- One of the delimiters is the token. -/
def stopsAt (stops : List Delimiter) (token : Token) : Bool :=
  stops.any fun delimiter ↦ delimiter.token = token

/-- The token with which the component begins. -/
def Component.first : Component → Token
  | leaf lexeme => lexeme.token
  | block opener _ _ => opener.token

/-- No stop is in front of the component. -/
def Component.passes (stops : List Delimiter) (component : Component) : Bool :=
  !stopsAt stops component.first

/-- The lexemes from the first stop outside all brackets. -/
def fromStop (stops : List Delimiter) (opened : List Bracket) : List Lexeme → List Lexeme
  | [] => []
  | lexeme :: rest =>
    if opened = [] ∧ stopsAt stops lexeme.token then lexeme :: rest
    else fromStop stops (lexeme.token.nest opened) rest

theorem Token.eq_of_opens {token : Token} {bracket : Bracket} (h : token.opens? = some bracket) :
    (∃ name, token = .function name) ∨ token = .opener bracket := by
  cases token <;> cases h
  · exact .inl ⟨_, rfl⟩
  · exact .inr rfl

theorem stopsAt_append (stops others : List Delimiter) (token : Token) :
    stopsAt (stops ++ others) token = (stopsAt stops token || stopsAt others token) :=
  List.any_append

theorem stopsAt_of_isTrivia {token : Token} (h : token.isTrivia) (stops : List Delimiter) :
    stopsAt stops token = false := by
  rw [stopsAt, List.any_eq_false]
  intro delimiter _
  cases token <;> cases h <;> cases delimiter <;> simp [Delimiter.token]

theorem stopsAt_closing_iff {bracket : Bracket} {token : Token} :
    stopsAt [.closing bracket] token ↔ token.closes? = some bracket := by
  cases token <;> simp [stopsAt, Delimiter.token, Token.closes?, eq_comm]

namespace Component

theorem passes_append_iff {stops others : List Delimiter} {component : Component} :
    component.passes (stops ++ others) ↔ component.passes stops ∧ component.passes others := by
  rw [passes, stopsAt_append, Bool.not_or, Bool.and_eq_true, passes, passes]

theorem passes_of_isTrivia {component : Component} (h : component.isTrivia)
    (stops : List Delimiter) : component.passes stops := by
  cases component with
  | leaf lexeme =>
    have hstop : stopsAt stops lexeme.token = false := stopsAt_of_isTrivia h stops
    rw [passes, first, hstop]
    rfl
  | block => cases h

/-- Blanks and comments stand for themselves. -/
theorem ofLexemes_dropWhile_isTrivia (lexemes : List Lexeme) :
    ofLexemes (lexemes.dropWhile (·.token.isTrivia)) = (ofLexemes lexemes).dropWhile isTrivia := by
  induction lexemes with
  | nil => rfl
  | cons lexeme rest ih =>
    rw [List.dropWhile_cons]
    split
    next htrivia =>
      have hopens : lexeme.token.opens? = none := by
        cases htoken : lexeme.token <;> rw [htoken] at htrivia <;> first | rfl | cases htrivia
      have hleaf : (leaf lexeme).isTrivia := htrivia
      rw [ofLexemes_cons_of_leaf hopens, List.dropWhile_cons_of_pos hleaf, ih]
    next htrivia =>
      cases hopens : lexeme.token.opens? with
      | none =>
        have hleaf : ¬(leaf lexeme).isTrivia := htrivia
        rw [ofLexemes_cons_of_leaf hopens, List.dropWhile_cons_of_neg hleaf]
      | some bracket =>
        rw [ofLexemes_cons_of_opens hopens]
        rfl

end Component

/-! ## A block inside another -/

/-- Behind the end of a block, the block around it goes on. -/
theorem enclosed_concat {opened : List Bracket} (h : opened ≠ []) (bracket : Bracket)
    (lexemes : List Lexeme) :
    enclosed (opened ++ [bracket]) lexemes =
      ⟨(enclosed opened lexemes).inside ++ (enclosed opened lexemes).closer?.toList ++
          (enclosed [bracket] (enclosed opened lexemes).after).inside,
        (enclosed [bracket] (enclosed opened lexemes).after).closer?,
        (enclosed [bracket] (enclosed opened lexemes).after).after⟩ := by
  induction lexemes generalizing opened with
  | nil => rfl
  | cons lexeme rest ih =>
    have hopen : lexeme.token.nest (opened ++ [bracket]) ≠ [] := fun hnil ↦
      h (Token.closes?_of_nest_eq_nil hnil).1
    rw [enclosed_cons_of_nest_ne_nil hopen, Token.nest_concat hopen]
    by_cases hnil : lexeme.token.nest opened = []
    · rw [hnil, enclosed_cons_of_nest_eq_nil hnil]
      rfl
    · rw [ih hnil, enclosed_cons_of_nest_ne_nil hnil]
      rfl

/-- A block is the same if something else is behind it, unless it has no end. -/
theorem enclosed_inside_append (opened : List Bracket) {lexemes more : List Lexeme}
    (h : (enclosed opened lexemes).closer? = none → more = []) :
    enclosed opened ((enclosed opened lexemes).inside ++
        (enclosed opened lexemes).closer?.toList ++ more) =
      ⟨(enclosed opened lexemes).inside, (enclosed opened lexemes).closer?, more⟩ := by
  induction lexemes generalizing opened with
  | nil =>
    rw [h rfl]
    rfl
  | cons lexeme rest ih =>
    by_cases hnil : lexeme.token.nest opened = []
    · rw [enclosed_cons_of_nest_eq_nil hnil, List.nil_append, Option.toList_some,
        List.singleton_append, enclosed_cons_of_nest_eq_nil hnil]
    · rw [enclosed_cons_of_nest_ne_nil hnil] at h ⊢
      rw [List.cons_append, List.cons_append, enclosed_cons_of_nest_ne_nil hnil, ih _ h]

namespace Component

theorem passes_closing_iff {bracket : Bracket} {component : Component} :
    component.passes [.closing bracket] ↔ component.first.closes? ≠ some bracket := by
  rw [passes, Bool.not_eq_true', ← Bool.not_eq_true, stopsAt_closing_iff]

/-- What is enclosed is everything in front of the first closing bracket of its kind that closes
nothing else. -/
theorem ofLexemes_enclosed (bracket : Bracket) (lexemes : List Lexeme) :
    ofLexemes (enclosed [bracket] lexemes).inside =
      (ofLexemes lexemes).takeWhile (passes [.closing bracket]) ∧
    (enclosed [bracket] lexemes).after =
      lexemesIn ((ofLexemes lexemes).dropWhile (passes [.closing bracket])).tail := by
  induction lexemes using induction_on_blocks with
  | nil => exact ⟨rfl, rfl⟩
  | leaf lexeme rest hopens ih =>
    rw [ofLexemes_cons_of_leaf hopens]
    by_cases hcloses : lexeme.token.closes? = some bracket
    · have hstop : ¬(leaf lexeme).passes [.closing bracket] := by
        rw [passes_closing_iff]
        exact fun hne ↦ hne hcloses
      rw [enclosed_cons_of_nest_eq_nil (Token.nest_of_closes hcloses []),
        List.takeWhile_cons_of_neg hstop, List.dropWhile_cons_of_neg hstop, List.tail_cons,
        lexemesIn_ofLexemes]
      exact ⟨rfl, rfl⟩
    · have hpass : (leaf lexeme).passes [.closing bracket] := passes_closing_iff.2 hcloses
      have hnest : lexeme.token.nest [bracket] = [bracket] :=
        Token.nest_of_leaf hopens (.inr hcloses)
      have hopen : lexeme.token.nest [bracket] ≠ [] := by
        rw [hnest]
        exact List.cons_ne_nil bracket []
      rw [enclosed_cons_of_nest_ne_nil hopen, hnest, ofLexemes_cons_of_leaf hopens,
        List.takeWhile_cons_of_pos hpass, List.dropWhile_cons_of_pos hpass, ih.1]
      exact ⟨rfl, ih.2⟩
  | block opener inner rest hopens _ ihAfter =>
    have hpass (body : List Component) (closer? : Option Lexeme) :
        (block opener body closer?).passes [.closing bracket] := by
      rw [passes_closing_iff, first]
      cases htoken : opener.token <;> rw [htoken] at hopens <;> cases hopens <;> nofun
    have hnest : opener.token.nest [bracket] = [inner] ++ [bracket] := Token.nest_of_opens hopens _
    have hopen : opener.token.nest [bracket] ≠ [] := by
      rw [hnest]
      exact List.cons_ne_nil inner [bracket]
    have hunclosed (hcloser : (enclosed [inner] rest).closer? = none) :
        (enclosed [bracket] (enclosed [inner] rest).after).inside = [] := by
      rw [after_of_enclosed hcloser]
      rfl
    rw [enclosed_cons_of_nest_ne_nil hopen, hnest, enclosed_concat (List.cons_ne_nil inner []),
      ofLexemes_cons_of_opens hopens, ofLexemes_cons_of_opens hopens,
      enclosed_inside_append [inner] hunclosed,
      List.takeWhile_cons_of_pos (hpass _ _), List.dropWhile_cons_of_pos (hpass _ _), ihAfter.1]
    exact ⟨rfl, ihAfter.2⟩

end Component

/-! ## Where a reader stops -/

/-- No stop counts inside a block. -/
theorem fromStop_enclosed (stops : List Delimiter) {opened : List Bracket} (h : opened ≠ [])
    (lexemes : List Lexeme) :
    fromStop stops opened lexemes = fromStop stops [] (enclosed opened lexemes).after := by
  induction lexemes generalizing opened with
  | nil => rfl
  | cons lexeme rest ih =>
    rw [fromStop, if_neg fun hand ↦ h hand.1]
    by_cases hnil : lexeme.token.nest opened = []
    · rw [hnil, enclosed_cons_of_nest_eq_nil hnil]
    · rw [ih hnil, enclosed_cons_of_nest_ne_nil hnil]

/-- A reader stops at the first component that begins with a stop. -/
theorem ofLexemes_fromStop (stops : List Delimiter) (lexemes : List Lexeme) :
    Component.ofLexemes (fromStop stops [] lexemes) =
      (Component.ofLexemes lexemes).dropWhile (Component.passes stops) := by
  induction lexemes using Component.induction_on_blocks with
  | nil => rfl
  | leaf lexeme rest hopens ih =>
    rw [Component.ofLexemes_cons_of_leaf hopens, List.dropWhile_cons, Component.passes,
      Component.first, fromStop]
    cases stopsAt stops lexeme.token with
    | true =>
      rw [if_pos ⟨rfl, rfl⟩, Component.ofLexemes_cons_of_leaf hopens]
      rfl
    | false =>
      rw [if_neg fun h ↦ Bool.false_ne_true h.2, Token.nest_nil_of_leaf hopens]
      exact ih
  | block opener bracket rest hopens _ ihAfter =>
    rw [Component.ofLexemes_cons_of_opens hopens, List.dropWhile_cons, Component.passes,
      Component.first, fromStop]
    cases stopsAt stops opener.token with
    | true =>
      rw [if_pos ⟨rfl, rfl⟩, Component.ofLexemes_cons_of_opens hopens]
      rfl
    | false =>
      rw [if_neg fun h ↦ Bool.false_ne_true h.2, Token.nest_of_opens hopens,
        fromStop_enclosed stops (List.cons_ne_nil bracket [])]
      exact ihAfter

theorem fromStop_suffix (stops : List Delimiter) (opened : List Bracket) (lexemes : List Lexeme) :
    fromStop stops opened lexemes <:+ lexemes := by
  induction lexemes generalizing opened with
  | nil => exact List.suffix_refl []
  | cons lexeme rest ih =>
    rw [fromStop]
    split
    · exact List.suffix_refl _
    · exact (ih _).trans (List.suffix_cons lexeme rest)

theorem enclosed_after_suffix (opened : List Bracket) (lexemes : List Lexeme) :
    (enclosed opened lexemes).after <:+ lexemes :=
  ⟨(enclosed opened lexemes).inside ++ (enclosed opened lexemes).closer?.toList, by
    rw [List.append_assoc, enclosed_append]⟩

end TouchTarget.Css
