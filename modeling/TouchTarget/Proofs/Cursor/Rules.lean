import TouchTarget.Proofs.Cursor.Statements
import TouchTarget.Proofs.Rules.History

/-!
# Rules read with a cursor

A rule is read up to its block or its semicolon, and its block is read for itself. If that reader
left something unread, other declarations would take the place of those in the block. It never does,
and which others they are makes no difference.
-/

namespace TouchTarget

open Text Css

namespace Css

/-- What takes the place of the results of readers that leave something unread. -/
structure Fallbacks where
  declarations : Declarations
  rules : RuleSet
  threshold : Option Pixels
  feature : Option Pixels
  length : Option Pixels

/-- The delimiters at which a rule ends. -/
def ruleEnds : List Delimiter :=
  [.curlyBlock, .semicolon]

variable (fallbacks : Fallbacks)

/-- Reads one rule. The loop is left if there is neither a block nor a semicolon. -/
def ruleBlock (rules : RuleSet) (start : Cursor) : Turn RuleSet RuleSet :=
  let stopped := (start.untilBefore ruleEnds drain).2
  let selector := trim (start.textUpTo stopped)
  match stopped.next with
  | (some (.opener .curly), block) =>
    if selector.head? = some '@' then .again rules block.skipBlock
    else
      let read := block.nested declarations
      .again
        (if selector.isEmpty then rules
          else rules.insert (.ofList selector) (read.1.getD fallbacks.declarations))
        read.2
  | (some .semicolon, behind) => .again rules behind
  | (_, behind) => .stop rules behind

/-- Reads on if a stray token comes next, and a statement otherwise. -/
def strayOr {σ : Type} (statement : σ → Cursor → Turn σ σ) (state : σ) (start : Cursor) :
    Turn σ σ :=
  match start.strayAfter? with
  | some behind => .again state behind
  | none => statement state start

/-! ## The end of a rule -/

/-- Behind the head of a rule there is nothing left, a semicolon or a block in curly brackets. -/
theorem ruleEnd_cases (start : Cursor) :
    ((start.atDelimiter ruleEnds).view = [] ∧
      (start.atDelimiter ruleEnds).next = (none, (start.atDelimiter ruleEnds).skipTrivia)) ∨
    (∃ lexeme behind, lexeme.token = .semicolon ∧
      (start.atDelimiter ruleEnds).next = (some .semicolon, behind) ∧
      (start.atDelimiter ruleEnds).Reaches behind [.leaf lexeme] ∧ behind.pending? = none) ∨
    ∃ opener closer? block, opener.token = .opener .curly ∧
      (start.atDelimiter ruleEnds).next = (some (.opener .curly), block) ∧
      (start.atDelimiter ruleEnds).Reaches block
        [.block opener (block.inside .curly).view closer?] ∧
      block.pending? = some .curly := by
  cases hview : (start.atDelimiter ruleEnds).view with
  | nil => exact .inl ⟨rfl, Cursor.next_of_view_eq_nil hview⟩
  | cons last rest =>
    obtain ⟨behind, hnext, hreach, hread, -⟩ :=
      (Cursor.standsBefore_atDelimiter hview).exists_next
    obtain ⟨delimiter, hmem, hfirst⟩ :=
      Component.exists_first_eq (Cursor.not_passes_of_view_atDelimiter hview)
    rw [hfirst] at hnext
    rcases List.mem_pair.1 hmem with rfl | rfl
    · obtain ⟨opener, closer?, rfl, hpending⟩ := hread.exists_eq_block (by rw [hfirst]; rfl)
      exact .inr (.inr ⟨opener, closer?, behind, hfirst, hnext, hreach, hpending⟩)
    · obtain ⟨lexeme, rfl, hpending⟩ := hread.exists_eq_leaf (by rw [hfirst]; rfl)
      exact .inr (.inl ⟨lexeme, behind, hfirst, hnext, hreach, hpending⟩)

theorem Statement.body?_of_curly {opener : Lexeme} (h : opener.token = .opener .curly)
    (head body : List Component) (closer? : Option Lexeme) :
    (Statement.mk head (some (.block opener body closer?))).body? = some body := if_pos h

/-- A statement is cut from the components in view as it is read. -/
theorem Cursor.StandsBefore.rulesIn_view {start : Cursor} {component : Component}
    (h : start.StandsBefore component) (hfiller : component.isFiller = false) :
    Statement.rulesIn start.view =
      ⟨(start.within ruleEnds).view, (start.atDelimiter ruleEnds).view.head?⟩ ::
        Statement.rulesIn (start.atDelimiter ruleEnds).view.tail := by
  apply h.split_view hfiller
  · intro component hpasses
    rw [Component.isSemicolon_of_passes hpasses (by decide),
      Component.curlyBody?_of_passes hpasses (by decide)]
    rfl
  · intro cursor last hread hstop
    obtain ⟨delimiter, hmem, hfirst⟩ := Component.exists_first_eq hstop
    rcases List.mem_pair.1 hmem with rfl | rfl
    · obtain ⟨opener, closer?, rfl, -⟩ := hread.exists_eq_block (by rw [hfirst]; rfl)
      have hbody : (Component.block opener (cursor.inside .curly).view closer?).curlyBody? =
          some (cursor.inside .curly).view := if_pos hfirst
      rw [hbody]
      rfl
    · obtain ⟨lexeme, rfl, -⟩ := hread.exists_eq_leaf (by rw [hfirst]; rfl)
      have hsemicolon : (Component.leaf lexeme).isSemicolon :=
        decide_eq_true (congrArg some hfirst)
      rw [hsemicolon, Bool.true_or]

/-! ## Reading a rule -/

/-- The loop is left where nothing follows, and otherwise the rule has been taken in. -/
theorem ruleBlock_cases {start : Cursor} (h : start.pending? = none) (rules : RuleSet) :
    (∃ behind, ruleBlock fallbacks rules start = .stop rules behind ∧
      (start.atDelimiter ruleEnds).view = [] ∧
      (start.atDelimiter ruleEnds).Reaches behind [] ∧ behind.pending? = none) ∨
    ∃ last behind, ruleBlock fallbacks rules start =
        .again (rules.insertAll
          (Statement.rule? ⟨(start.within ruleEnds).view, some last⟩).toList) behind ∧
      (start.atDelimiter ruleEnds).Reaches behind [last] ∧ behind.pending? = none := by
  have hselector : start.textUpTo (start.atDelimiter ruleEnds) =
      Component.text (start.within ruleEnds).view :=
    Cursor.textUpTo_eq (start.reaches_atDelimiter ruleEnds) h rfl
  simp only [ruleBlock, Cursor.untilBefore_snd, hselector]
  rcases ruleEnd_cases start with ⟨hview, hnext⟩ | ⟨lexeme, behind, -, hnext, hreach, hpending⟩ |
    ⟨opener, closer?, block, hopener, hnext, hreach, hpending⟩
  · have hskip := (start.atDelimiter ruleEnds).reaches_skipTrivia
    have hpassed := hskip.view_eq
    rw [hview] at hpassed
    rw [(List.append_eq_nil_iff.1 hpassed.symm).1] at hskip
    rw [hnext]
    exact .inl ⟨_, rfl, hview, hskip, Cursor.pending?_settled _⟩
  · rw [hnext]
    exact .inr ⟨.leaf lexeme, behind, rfl, hreach, hpending⟩
  · have hsettled := hreach.trans block.reaches_settled
    have hrule : (Statement.mk (start.within ruleEnds).view
          (some (.block opener (block.inside .curly).view closer?))).rule? =
        if trim (Component.text (start.within ruleEnds).view) = [] ∨
            (trim (Component.text (start.within ruleEnds).view)).head? = some '@' then none
        else some (.ofList (trim (Component.text (start.within ruleEnds).view)),
          .ofComponents (block.inside .curly).view) :=
      Statement.rule?_of_body?_eq_some (Statement.body?_of_curly hopener _ _ closer?)
    rw [hnext]
    refine .inr ⟨_, block.settled, ?_, hsettled, Cursor.pending?_settled block⟩
    simp only [hrule, Cursor.skipBlock, Cursor.nested_snd, Option.getD_some,
      Cursor.nested_fst hpending isExhaustive_declarations, declarations_read]
    generalize trim (Component.text (start.within ruleEnds).view) = selector
    by_cases hat : selector.head? = some '@'
    · simp [hat]
    · by_cases hempty : selector = []
      · simp [hempty]
      · simp [hat, hempty]

/-- The reader of a rule makes the loop go on unless nothing is left. -/
theorem goesOn_ruleBlock_or (rules : RuleSet) (start : Cursor) :
    (ruleBlock fallbacks rules start).goesOn ∨
      (ruleBlock fallbacks rules start).cursor.IsAtEnd := by
  simp only [ruleBlock, Cursor.untilBefore_snd]
  rcases ruleEnd_cases start with ⟨hview, hnext⟩ | ⟨lexeme, behind, -, hnext, -⟩ |
    ⟨opener, closer?, block, -, hnext, -⟩
  · have hend : (start.atDelimiter ruleEnds).skipTrivia.isExhausted := by
      rw [Cursor.isExhausted_skipTrivia]
      exact Cursor.isExhausted_of_view hview
    rw [hnext]
    exact .inr ((Cursor.isExhausted_iff_isAtEnd _).1 hend)
  · rw [hnext]
    exact .inl rfl
  · simp only [hnext]
    split <;> exact .inl rfl

theorem advances_ruleBlock (rules : RuleSet) (start : Cursor) (component : Component)
    (h : start.StandsBefore component) : (ruleBlock fallbacks rules start).Advances start := by
  have hat := start.reaches_atDelimiter ruleEnds
  have hend (hstops : (ruleBlock fallbacks rules start).goesOn = false) :
      (ruleBlock fallbacks rules start).cursor.isExhausted := by
    rw [Cursor.isExhausted_iff_isAtEnd]
    exact (goesOn_ruleBlock_or fallbacks rules start).resolve_left (Bool.eq_false_iff.1 hstops)
  rcases ruleBlock_cases fallbacks h.pending? rules with
    ⟨behind, hturn, hview, hreach, hpending⟩ | ⟨last, behind, hturn, hreach, hpending⟩
  · have hne := h.passed_ne_nil ruleEnds
    rw [hview] at hne
    rw [hturn] at hend ⊢
    exact ⟨⟨_, hat.trans hreach⟩, (hat.trans hreach).isPast hne h.pending? hpending, hend⟩
  · have hne : (start.within ruleEnds).view ++ [last] ≠ [] :=
      List.append_ne_nil_of_right_ne_nil _ (List.cons_ne_nil last [])
    rw [hturn] at hend ⊢
    exact ⟨⟨_, hat.trans hreach⟩, (hat.trans hreach).isPast hne h.pending? hpending, hend⟩

/-! ## Loops over statements -/

section Statements

variable {σ : Type} {statement : σ → Cursor → Turn σ σ}

/-- A stray token is a component of its own that may stand between two statements. -/
theorem Cursor.StandsBefore.strayAfter?_cases {start : Cursor} {component : Component}
    (h : start.StandsBefore component) :
    (start.strayAfter? = none ∧ component.isFiller = false) ∨
      ∃ behind, start.strayAfter? = some behind ∧ component.isFiller ∧
        start.Reaches behind [component] ∧ behind.IsPast start := by
  obtain ⟨behind, hnext, hreach, hread, hpast⟩ := h.exists_next
  have htrivia := h.isTrivia
  unfold strayAfter?
  rw [hnext]
  cases component with
  | block opener body closer? =>
    obtain ⟨bracket, hopens, -⟩ := hread
    left
    cases htoken : opener.token <;> rw [htoken] at hopens <;> cases hopens <;>
      exact ⟨by rw [Component.first, htoken], rfl⟩
  | leaf lexeme =>
    rw [Component.isFiller_leaf, Component.first]
    rw [Component.isTrivia, Component.token?, Option.any_some] at htrivia
    cases htoken : lexeme.token <;> rw [htoken] at htrivia <;>
      first
      | exact .inl ⟨rfl, rfl⟩
      | exact .inr ⟨behind, rfl, rfl, hreach, hpast⟩
      | cases htrivia

theorem advances_strayOr
    (hstatement : ∀ state start component, Cursor.StandsBefore start component →
      (statement state start).Advances start) (state : σ) (start : Cursor) (component : Component)
    (h : start.StandsBefore component) : (strayOr statement state start).Advances start := by
  unfold strayOr
  rcases h.strayAfter?_cases with ⟨hstray, -⟩ | ⟨behind, hstray, -, hreach, hpast⟩
  · rw [hstray]
    exact hstatement state start component h
  · rw [hstray]
    exact ⟨⟨_, hreach⟩, hpast, nofun⟩

/-- The loop that reads a statement with each turn, or passes over a stray token. -/
def statementLoop (hstatement : ∀ state start component, Cursor.StandsBefore start component →
    (statement state start).Advances start) : Loop σ σ :=
  .untilExhausted (strayOr statement) (advances_strayOr hstatement)

theorem isExhaustive_statementLoop
    (hstatement : ∀ state start component, Cursor.StandsBefore start component →
      (statement state start).Advances start) : (statementLoop hstatement).IsExhaustive :=
  Loop.isExhaustive_untilExhausted (advances_strayOr hstatement)

/-- What a loop over statements reads is found from how it reads one statement. -/
theorem statementLoop_run {meaning : σ → List Component → σ}
    (hstatement : ∀ state start component, Cursor.StandsBefore start component →
      (statement state start).Advances start)
    (hfiller : ∀ state component components, Component.isFiller component →
      meaning state (component :: components) = meaning state components)
    (hnil : ∀ state, meaning state [] = state)
    (hmeaning : ∀ state start component, Cursor.StandsBefore start component →
      component.isFiller = false →
      (statement state start).outcome meaning = meaning state start.view)
    (state : σ) (start : Cursor) :
    ((statementLoop hstatement).run state start).1 = meaning state start.view := by
  have htrivia : IgnoresTrivia meaning := by
    intro state component components h
    apply hfiller
    rw [Component.isFiller, h, Bool.true_or]
  have hbody (state : σ) (start : Cursor) (component : Component)
      (h : start.StandsBefore component) :
      (strayOr statement state start).outcome meaning = meaning state start.view := by
    unfold strayOr
    rcases h.strayAfter?_cases with ⟨hstray, hstatement⟩ | ⟨behind, hstray, hskip, hreach, -⟩
    · rw [hstray]
      exact hmeaning state start component h hstatement
    · rw [hstray, hreach.view_eq, List.singleton_append, hfiller _ _ _ hskip]
      rfl
  apply Loop.run_fst
  intro state cursor _
  exact outcome_guardedTurn _ htrivia hnil hbody state cursor

end Statements

/-! ## Lists of rules -/

/-- The loop that reads a list of rules. -/
def ruleLoop : Loop RuleSet RuleSet :=
  statementLoop (advances_ruleBlock fallbacks)

theorem isExhaustive_ruleLoop : (ruleLoop fallbacks).IsExhaustive :=
  isExhaustive_statementLoop (advances_ruleBlock fallbacks)

/-- Reads a list of rules. -/
def ruleList : Reader RuleSet :=
  (ruleLoop fallbacks).reader ∅

theorem isExhaustive_ruleList : (ruleList fallbacks).IsExhaustive :=
  (isExhaustive_ruleLoop fallbacks).reader ∅

/-- The rules of components, put over others. -/
def rulesOver (rules : RuleSet) (components : List Component) : RuleSet :=
  rules.insertAll ((Statement.rulesIn components).flatMap (·.rule?.toList))

theorem rulesOver_empty (components : List Component) :
    rulesOver ∅ components = .ofComponents components := by
  rw [rulesOver, RuleSet.ofComponents, RuleSet.ofList, List.filterMap_eq_flatMap_toList]

theorem rulesIn_cons_of_isFiller {component : Component} (h : component.isFiller)
    (components : List Component) :
    Statement.rulesIn (component :: components) = Statement.rulesIn components :=
  Statement.split_cons_of_skips h components

/-- In front of a component, a turn takes in the rule that begins there. -/
theorem outcome_ruleBlock (rules : RuleSet) (start : Cursor) (component : Component)
    (h : start.StandsBefore component) (hfiller : component.isFiller = false) :
    (ruleBlock fallbacks rules start).outcome rulesOver = rulesOver rules start.view := by
  rw [rulesOver, h.rulesIn_view hfiller, List.flatMap_cons, RuleSet.insertAll_append]
  rcases ruleBlock_cases fallbacks h.pending? rules with
    ⟨behind, hturn, hview, -⟩ | ⟨last, behind, hturn, hreach, -⟩
  · rw [hturn, hview]
    rfl
  · rw [hturn, hreach.view_eq]
    rfl

/-- The loop finds the rules of the components in view. -/
theorem ruleList_read (start : Cursor) :
    ((ruleList fallbacks).read start).1 = .ofComponents start.view := by
  rw [← rulesOver_empty]
  apply statementLoop_run
  · intro rules component components h
    rw [rulesOver, rulesOver, rulesIn_cons_of_isFiller h]
  · exact fun _ ↦ rfl
  · exact outcome_ruleBlock fallbacks

end Css

end TouchTarget
