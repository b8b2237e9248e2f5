import TouchTarget.Proofs.Css.Nesting

/-!
# Blocks found by counting brackets

Where a block ends can be told without building any tree: it is enough to know which brackets are
open. A token that opens one puts it on top, a closing bracket takes the top away if it is of its
kind, and any other closing bracket has no effect. A block runs from the token that opens it to the
first one behind which its bracket is not open any more, or else to the end of the text. The main
lemma says that the components of a text are cut in just these places.
-/

namespace TouchTarget.Css

/-- The open brackets behind a token, innermost first, given those in front of it. -/
def Token.nest (opened : List Bracket) : Token → List Bracket
  | .function _ => .round :: opened
  | .opener bracket => bracket :: opened
  | .closer bracket => if opened.head? = some bracket then opened.tail else opened
  | _ => opened

namespace Token

theorem nest_of_opens {token : Token} {bracket : Bracket} (h : token.opens? = some bracket)
    (opened : List Bracket) : token.nest opened = bracket :: opened := by
  cases token <;> cases h <;> rfl

theorem nest_of_closes {token : Token} {bracket : Bracket} (h : token.closes? = some bracket)
    (opened : List Bracket) : token.nest (bracket :: opened) = opened := by
  cases token <;> cases h
  simp [nest]

/-- A token that opens nothing and does not close the innermost bracket changes nothing. -/
theorem nest_of_leaf {token : Token} {opened : List Bracket} (hopens : token.opens? = none)
    (hcloses : token.closes? = none ∨ token.closes? ≠ opened.head?) :
    token.nest opened = opened := by
  cases token with
  | closer bracket =>
    have hne : ¬opened.head? = some bracket := by
      rintro heq
      rcases hcloses with h | h
      · cases h
      · exact h heq.symm
    rw [nest, if_neg hne]
  | function | opener => cases hopens
  | _ => rfl

theorem nest_nil_of_leaf {token : Token} (h : token.opens? = none) : token.nest [] = [] :=
  nest_of_leaf h (Classical.em _)

theorem eq_opener_curly_iff {token : Token} {bracket : Bracket} (h : token.opens? = some bracket) :
    token = .opener .curly ↔ bracket = .curly := by
  cases token <;> cases h <;> simp

theorem ne_semicolon_of_opens {token : Token} {bracket : Bracket}
    (h : token.opens? = some bracket) : token ≠ .semicolon := by
  rintro rfl
  cases h

/-- Only the closing bracket of its kind takes the last open bracket away. -/
theorem closes?_of_nest_eq_nil {token : Token} {bracket : Bracket} {opened : List Bracket}
    (h : token.nest (opened ++ [bracket]) = []) :
    opened = [] ∧ token.closes? = some bracket := by
  cases token with
  | closer other =>
    rw [nest] at h
    split at h
    next hhead =>
      cases opened with
      | nil => exact ⟨rfl, hhead.symm⟩
      | cons first opened => simp at h
    next => simp at h
  | _ => simp [nest] at h

/-- As long as the bracket that was opened first is open, those above it change as if it were not
there. -/
theorem nest_concat {token : Token} {bracket : Bracket} {opened : List Bracket}
    (h : token.nest (opened ++ [bracket]) ≠ []) :
    token.nest (opened ++ [bracket]) = token.nest opened ++ [bracket] := by
  cases token with
  | closer other =>
    cases opened with
    | nil =>
      have hne : ¬some bracket = some other := by
        rintro heq
        apply h
        simp [nest, heq]
      simp [nest, hne]
    | cons first opened =>
      rw [List.cons_append, nest, nest, List.head?_cons, List.head?_cons]
      by_cases hfirst : some first = some other
      · rw [if_pos hfirst, if_pos hfirst, List.tail_cons, List.tail_cons]
      · rw [if_neg hfirst, if_neg hfirst, List.cons_append]
  | _ => rfl

end Token

/-- The open brackets behind lexemes, innermost first, given those in front of them. -/
def nesting (opened : List Bracket) (lexemes : List Lexeme) : List Bracket :=
  lexemes.foldl (fun opened lexeme ↦ lexeme.token.nest opened) opened

theorem nesting_cons (opened : List Bracket) (lexeme : Lexeme) (rest : List Lexeme) :
    nesting opened (lexeme :: rest) = nesting (lexeme.token.nest opened) rest := rfl

/-! ## The end of a block -/

/-- What a block holds, the lexeme that closes it unless the text ends before, and what is behind
the block. -/
structure Enclosed where
  inside : List Lexeme
  closer? : Option Lexeme
  after : List Lexeme

/-- Cuts the lexemes behind the beginning of a block at the one that leaves no bracket open. -/
def enclosed (opened : List Bracket) : List Lexeme → Enclosed
  | [] => ⟨[], none, []⟩
  | lexeme :: rest =>
    if lexeme.token.nest opened = [] then ⟨[], some lexeme, rest⟩
    else
      let block := enclosed (lexeme.token.nest opened) rest
      ⟨lexeme :: block.inside, block.closer?, block.after⟩

theorem enclosed_nil (opened : List Bracket) : enclosed opened [] = ⟨[], none, []⟩ := rfl

theorem enclosed_cons_of_nest_eq_nil {lexeme : Lexeme} {opened : List Bracket}
    (h : lexeme.token.nest opened = []) (rest : List Lexeme) :
    enclosed opened (lexeme :: rest) = ⟨[], some lexeme, rest⟩ := by
  rw [enclosed, if_pos h]

theorem enclosed_cons_of_nest_ne_nil {lexeme : Lexeme} {opened : List Bracket}
    (h : lexeme.token.nest opened ≠ []) (rest : List Lexeme) :
    enclosed opened (lexeme :: rest) =
      ⟨lexeme :: (enclosed (lexeme.token.nest opened) rest).inside,
        (enclosed (lexeme.token.nest opened) rest).closer?,
        (enclosed (lexeme.token.nest opened) rest).after⟩ := by
  rw [enclosed, if_neg h]

/-- Nothing is lost where a block is cut out. -/
theorem enclosed_append (opened : List Bracket) (lexemes : List Lexeme) :
    (enclosed opened lexemes).inside ++ ((enclosed opened lexemes).closer?.toList ++
      (enclosed opened lexemes).after) = lexemes := by
  induction lexemes generalizing opened with
  | nil => rfl
  | cons lexeme rest ih =>
    by_cases h : lexeme.token.nest opened = []
    · rw [enclosed_cons_of_nest_eq_nil h]
      rfl
    · rw [enclosed_cons_of_nest_ne_nil h, List.cons_append, ih]

/-- A block is closed by a bracket of the kind that opened it. -/
theorem closes?_of_enclosed {opened : List Bracket} {bracket : Bracket} {lexemes : List Lexeme}
    {closer : Lexeme} (h : (enclosed (opened ++ [bracket]) lexemes).closer? = some closer) :
    closer.token.closes? = some bracket := by
  induction lexemes generalizing opened with
  | nil => cases h
  | cons lexeme rest ih =>
    by_cases hnil : lexeme.token.nest (opened ++ [bracket]) = []
    · rw [enclosed_cons_of_nest_eq_nil hnil] at h
      obtain rfl := Option.some.inj h
      exact (Token.closes?_of_nest_eq_nil hnil).2
    · rw [enclosed_cons_of_nest_ne_nil hnil, Token.nest_concat hnil] at h
      exact ih h

/-- Nothing is behind a block that is not closed. -/
theorem after_of_enclosed {opened : List Bracket} {lexemes : List Lexeme}
    (h : (enclosed opened lexemes).closer? = none) : (enclosed opened lexemes).after = [] := by
  induction lexemes generalizing opened with
  | nil => rfl
  | cons lexeme rest ih =>
    by_cases hnil : lexeme.token.nest opened = []
    · rw [enclosed_cons_of_nest_eq_nil hnil] at h
      cases h
    · rw [enclosed_cons_of_nest_ne_nil hnil] at h ⊢
      exact ih h

/-! ## The end of a block in a reading -/

namespace OpenBlock

/-- The brackets are those that open the blocks. -/
def IsNesting (stack : List OpenBlock) (opened : List Bracket) : Prop :=
  stack.map (·.opener.token.opens?) = opened.map some

theorem closes_iff {block : OpenBlock} {bracket : Bracket}
    (hopens : block.opener.token.opens? = some bracket) (lexeme : Lexeme) :
    block.closes lexeme ↔ lexeme.token.closes? = some bracket := by
  rw [closes, hopens]
  cases lexeme.token.closes? <;> simp

namespace IsNesting

theorem opened_eq_nil {opened : List Bracket} (h : IsNesting [] opened) : opened = [] := by
  unfold IsNesting at h
  simpa using h.symm

theorem stack_eq_nil {stack : List OpenBlock} (h : IsNesting stack []) : stack = [] := by
  unfold IsNesting at h
  simpa using h

theorem exists_of_cons {block : OpenBlock} {outer : List OpenBlock} {opened : List Bracket}
    (h : IsNesting (block :: outer) opened) :
    ∃ inner rest, opened = inner :: rest ∧ block.opener.token.opens? = some inner ∧
      IsNesting outer rest := by
  unfold IsNesting at h ⊢
  cases opened with
  | nil => cases h
  | cons inner rest =>
    rw [List.map_cons, List.map_cons] at h
    obtain ⟨hblock, houter⟩ := List.cons.inj h
    exact ⟨inner, rest, rfl, hblock, houter⟩

variable {reading : Reading} {opened : List Bracket} {bracket : Bracket} {lexeme : Lexeme}

/-- A lexeme behind which the bracket below the blocks is still open does not close that bracket. -/
theorem closes?_ne (h : IsNesting reading.2 opened)
    (hstays : lexeme.token.nest (opened ++ [bracket]) ≠ []) (hstack : reading.2 = []) :
    lexeme.token.closes? ≠ some bracket := by
  intro hcloses
  rw [hstack] at h
  obtain rfl := h.opened_eq_nil
  exact hstays (Token.nest_of_closes hcloses [])

/-- Reading a lexeme changes the blocks as it changes the brackets. -/
theorem read (h : IsNesting reading.2 opened) (lexeme : Lexeme) :
    IsNesting (OpenBlock.read reading lexeme).2 (lexeme.token.nest opened) := by
  obtain ⟨current, stack⟩ := reading
  cases hopens : lexeme.token.opens? with
  | some other =>
    rw [read_of_opens (by rw [hopens]; rfl), Token.nest_of_opens hopens]
    unfold IsNesting at h ⊢
    rw [List.map_cons, List.map_cons, hopens, h]
  | none =>
    cases stack with
    | nil =>
      obtain rfl := h.opened_eq_nil
      rw [read_of_leaf hopens rfl, Token.nest_nil_of_leaf hopens]
      exact h
    | cons block outer =>
      obtain ⟨inner, rest, rfl, hblock, houter⟩ := h.exists_of_cons
      by_cases hcloses : lexeme.token.closes? = some inner
      · rw [read_of_closes ((closes_iff hblock lexeme).2 hcloses), Token.nest_of_closes hcloses]
        exact houter
      · have hinnermost : closesInnermost (current, block :: outer) lexeme = false :=
          Bool.eq_false_iff.2 fun hcloses' ↦ hcloses ((closes_iff hblock lexeme).1 hcloses')
        have hnest : lexeme.token.nest (inner :: rest) = inner :: rest :=
          Token.nest_of_leaf hopens (.inr hcloses)
        rw [read_of_leaf hopens hinnermost, hnest]
        exact h

/-- Reading lexemes changes the blocks as it changes the brackets. -/
theorem foldl_read (h : IsNesting reading.2 opened) (lexemes : List Lexeme) :
    IsNesting (lexemes.foldl OpenBlock.read reading).2 (nesting opened lexemes) := by
  induction lexemes generalizing reading opened with
  | nil => exact h
  | cons lexeme rest ih => exact ih (h.read lexeme)

end IsNesting

/-- The components of a reading inside a block that is left open. -/
theorem finish_onto_block (opener : Lexeme) (reading : Reading) :
    finish (onto ([], [⟨opener, []⟩]) reading).1 (onto ([], [⟨opener, []⟩]) reading).2 =
      [.block opener (finish reading.1 reading.2) none] := by
  obtain ⟨current, stack⟩ := reading
  induction stack generalizing current with
  | nil => rw [onto_nil, finish, finish, finish, List.append_nil, List.reverse_singleton]
  | cons block outer ih =>
    have h := ih (.block block.opener current.reverse none :: block.before)
    rw [onto_component] at h
    rw [onto_cons, finish, finish]
    exact h

/-- The components of lexemes that follow a component outside all blocks. -/
theorem finish_foldl_component (component : Component) (lexemes : List Lexeme) :
    finish (lexemes.foldl OpenBlock.read ([component], [])).1
        (lexemes.foldl OpenBlock.read ([component], [])).2 =
      component :: Component.ofLexemes lexemes := by
  have honto := calc
    lexemes.foldl OpenBlock.read ([component], []) =
        lexemes.foldl OpenBlock.read (onto ([component], []) ([], [])) := by
      rw [onto_nil, List.nil_append]
    _ = onto ([component], []) (readAll lexemes) := foldl_read_onto fun _ _ ↦ rfl
  rw [honto, finish_onto, Component.ofLexemes_eq_finish]
  rfl

/-- Inside a block, what is read up to the end of the block is its body, and what is behind that
end is read anew. -/
theorem finish_foldl_enclosed {opener : Lexeme} {bracket : Bracket}
    (hopener : opener.token.opens? = some bracket) {reading : Reading} {opened : List Bracket}
    (h : IsNesting reading.2 opened) (lexemes : List Lexeme) :
    finish (lexemes.foldl OpenBlock.read (onto ([], [⟨opener, []⟩]) reading)).1
        (lexemes.foldl OpenBlock.read (onto ([], [⟨opener, []⟩]) reading)).2 =
      .block opener
          (finish ((enclosed (opened ++ [bracket]) lexemes).inside.foldl OpenBlock.read reading).1
            ((enclosed (opened ++ [bracket]) lexemes).inside.foldl OpenBlock.read reading).2)
          (enclosed (opened ++ [bracket]) lexemes).closer? ::
        Component.ofLexemes (enclosed (opened ++ [bracket]) lexemes).after := by
  induction lexemes generalizing reading opened with
  | nil => exact finish_onto_block opener reading
  | cons lexeme rest ih =>
    by_cases hnil : lexeme.token.nest (opened ++ [bracket]) = []
    · obtain ⟨rfl, hcloses⟩ := Token.closes?_of_nest_eq_nil hnil
      obtain ⟨current, stack⟩ := reading
      obtain rfl := h.stack_eq_nil
      have hblock : (OpenBlock.mk opener []).closes lexeme :=
        (closes_iff hopener lexeme).2 hcloses
      rw [enclosed_cons_of_nest_eq_nil hnil, List.foldl_cons, onto_nil, List.append_nil,
        read_of_closes hblock, finish_foldl_component]
      rfl
    · have hread := h.read lexeme
      have honto : OpenBlock.read (onto ([], [⟨opener, []⟩]) reading) lexeme =
          onto ([], [⟨opener, []⟩]) (OpenBlock.read reading lexeme) := by
        apply read_onto
        intro hstack
        apply Bool.eq_false_iff.2
        intro hcloses
        exact h.closes?_ne hnil hstack ((closes_iff hopener lexeme).1 hcloses)
      rw [List.foldl_cons, honto, enclosed_cons_of_nest_ne_nil hnil,
        Token.nest_concat hnil, List.foldl_cons]
      exact ih hread

end OpenBlock

/-- No block is left open if no bracket is. -/
theorem Component.nesting_of_closesAll {lexemes : List Lexeme} (h : closesAll lexemes) :
    nesting [] lexemes = [] := by
  have hstart : OpenBlock.IsNesting (([], []) : OpenBlock.Reading).2 [] := rfl
  have hnesting : OpenBlock.IsNesting (OpenBlock.readAll lexemes).2 (nesting [] lexemes) :=
    hstart.foldl_read lexemes
  rw [closesAll, List.isEmpty_iff] at h
  rw [h] at hnesting
  exact hnesting.opened_eq_nil

/-- A lexeme that opens a bracket begins a block, which holds what the bracket encloses. -/
theorem Component.ofLexemes_cons_of_opens {opener : Lexeme} {bracket : Bracket}
    (h : opener.token.opens? = some bracket) (rest : List Lexeme) :
    ofLexemes (opener :: rest) =
      .block opener (ofLexemes (enclosed [bracket] rest).inside)
          (enclosed [bracket] rest).closer? ::
        ofLexemes (enclosed [bracket] rest).after := by
  have hread : OpenBlock.readAll (opener :: rest) =
      rest.foldl OpenBlock.read (OpenBlock.onto ([], [⟨opener, []⟩]) ([], [])) := by
    rw [OpenBlock.readAll, List.foldl_cons, OpenBlock.read_of_opens (by rw [h]; rfl),
      OpenBlock.onto_nil, List.nil_append]
  have hnesting : OpenBlock.IsNesting (([], []) : OpenBlock.Reading).2 [] := rfl
  rw [ofLexemes_eq_finish, hread]
  exact OpenBlock.finish_foldl_enclosed h hnesting rest

/-- What holds of lexemes if it holds of those behind the first one, or of those inside and behind
the block that the first one begins, holds of all. -/
theorem Component.induction_on_blocks {motive : List Lexeme → Prop} (nil : motive [])
    (leaf : ∀ lexeme rest, lexeme.token.opens? = none → motive rest → motive (lexeme :: rest))
    (block : ∀ opener bracket rest, opener.token.opens? = some bracket →
      motive (enclosed [bracket] rest).inside → motive (enclosed [bracket] rest).after →
      motive (opener :: rest))
    (lexemes : List Lexeme) : motive lexemes := by
  induction hlength : lexemes.length using Nat.strongRecOn generalizing lexemes with
  | ind length ih =>
    cases lexemes with
    | nil => exact nil
    | cons lexeme rest =>
      rw [List.length_cons] at hlength
      cases hopens : lexeme.token.opens? with
      | none => exact leaf lexeme rest hopens (ih rest.length (by omega) rest rfl)
      | some bracket =>
        have hsplit := congrArg List.length (enclosed_append [bracket] rest)
        rw [List.length_append, List.length_append] at hsplit
        exact block lexeme bracket rest hopens (ih _ (by omega) _ rfl) (ih _ (by omega) _ rfl)

end TouchTarget.Css
