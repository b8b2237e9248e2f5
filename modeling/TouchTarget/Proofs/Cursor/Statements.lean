import TouchTarget.Proofs.Css.Blocks
import TouchTarget.Proofs.Css.Statements
import TouchTarget.Proofs.Cursor.Loops
import TouchTarget.Proofs.Rules.Clauses

/-!
# Statements read with a cursor

A statement is read by looking for its delimiter from the component before which the cursor stands.
What is passed over on the way is the first statement into which the components in view are cut. The
loop over declarations takes one of them in with each turn, and it finds what is declared in the
block whose inside the cursor has in view.
-/

namespace TouchTarget

open Text Css

namespace Css

/-! ## Reading what is left -/

/-- Passes over everything that is left. -/
def drain : Reader Unit :=
  (Loop.overTokens (fun _ _ behind ↦ .again () behind) id fun _ _ start ↦
    ⟨[], .refl start⟩).reader ()

theorem isExhaustive_drain : drain.IsExhaustive :=
  (Loop.isExhaustive_overTokens _ _ _ fun _ _ _ ↦ rfl).reader ()

namespace Cursor

def skipBlock (cursor : Cursor) : Cursor :=
  (cursor.nested drain).2

/-- The cursor behind a mark of the surrounding document or a closing bracket that closes
nothing. -/
def strayAfter? (cursor : Cursor) : Option Cursor :=
  match cursor.next with
  | (some .markupOpen, behind) => some behind
  | (some .markupClose, behind) => some behind
  | (some (.closer _), behind) => some behind
  | _ => none

end Cursor

/-! ## The delimiter of a statement -/

namespace Cursor

variable {cursor start : Cursor} {component : Component} {more : List Component}

theorem HasRead.exists_eq_leaf (h : cursor.HasRead component)
    (hopens : component.first.opens? = none) :
    ∃ lexeme, component = .leaf lexeme ∧ cursor.pending? = none := by
  cases component with
  | leaf lexeme => exact ⟨lexeme, rfl, h.2⟩
  | block opener body closer? =>
    obtain ⟨bracket, hbracket, -⟩ := h
    cases hopens.symm.trans hbracket

theorem HasRead.exists_eq_block {bracket : Bracket} (h : cursor.HasRead component)
    (hopens : component.first.opens? = some bracket) :
    ∃ opener closer?, component = .block opener (cursor.inside bracket).view closer? ∧
      cursor.pending? = some bracket := by
  cases component with
  | leaf lexeme => cases hopens.symm.trans h.1
  | block opener body closer? =>
    obtain ⟨other, hother, hpending, rfl⟩ := h
    obtain rfl := Option.some.inj (hopens.symm.trans hother)
    exact ⟨opener, closer?, rfl, hpending⟩

theorem next_of_view_eq_nil (h : cursor.view = []) : cursor.next = (none, cursor.skipTrivia) := by
  rcases cursor.next_cases with ⟨hnext, -⟩ | ⟨component, behind, -, -, hreach, -, -⟩
  · exact hnext
  · have hsplit := (cursor.reaches_skipTrivia.trans hreach).view_eq
    rw [h] at hsplit
    simp at hsplit

/-- A cursor at a delimiter stands before the component that the delimiter begins. -/
theorem standsBefore_atDelimiter {delimiters : List Delimiter}
    (h : (start.atDelimiter delimiters).view = component :: more) :
    (start.atDelimiter delimiters).StandsBefore component where
  pending? := rfl
  view := ⟨more, h⟩
  isTrivia := by
    have hstop := not_passes_of_view_atDelimiter h
    apply Bool.eq_false_iff.2
    intro htrivia
    rw [Component.passes_of_isTrivia htrivia delimiters] at hstop
    cases hstop

/-- A statement runs from the component before which the cursor stands to the delimiter. -/
theorem StandsBefore.split_view {skips ends : Component → Bool} {delimiters : List Delimiter}
    (h : start.StandsBefore component) (hskips : skips component = false)
    (hpasses : ∀ component : Component, component.passes delimiters → ends component = false)
    (hends : ∀ cursor component, HasRead cursor component →
      component.passes delimiters = false → ends component) :
    Statement.split skips ends [] start.view =
      ⟨(start.within delimiters).view, (start.atDelimiter delimiters).view.head?⟩ ::
        Statement.split skips ends [] (start.atDelimiter delimiters).view.tail := by
  have hview := (start.reaches_atDelimiter delimiters).view_eq
  obtain ⟨more, hcomponent⟩ := h.view
  have hfront : ∀ component ∈ (start.within delimiters).view, ends component = false :=
    fun component hmem ↦ hpasses component (passes_of_mem_view_within hmem).1
  have hfirst : ∀ first ∈ start.view.head?, skips first = false := by
    rw [hcomponent]
    rintro first ⟨⟩
    exact hskips
  have hne : start.view ≠ [] := hcomponent ▸ List.cons_ne_nil component more
  cases hbehind : (start.atDelimiter delimiters).view with
  | nil =>
    rw [hbehind, List.append_nil] at hview
    rw [hview] at hfirst hne ⊢
    rw [Statement.split_of_not_ends hne hfirst hfront]
    rfl
  | cons last rest =>
    have hstands := standsBefore_atDelimiter hbehind
    obtain ⟨behind, -, -, hread, -⟩ := hstands.exists_next
    have hlast := hends behind last hread (not_passes_of_view_atDelimiter hbehind)
    rw [hview, hbehind] at hfirst ⊢
    exact Statement.split_append_end hfirst hfront hlast

/-- What is passed over on the way behind the delimiter. -/
theorem StandsBefore.passed_ne_nil (h : start.StandsBefore component)
    (delimiters : List Delimiter) :
    (start.within delimiters).view ++ (start.atDelimiter delimiters).view.head?.toList ≠ [] := by
  obtain ⟨more, hview⟩ := h.view
  have hsplit := (start.reaches_atDelimiter delimiters).view_eq
  intro hnil
  obtain ⟨hfront, hhead⟩ := List.append_eq_nil_iff.1 hnil
  cases hbehind : (start.atDelimiter delimiters).view with
  | nil =>
    rw [hview, hfront, hbehind] at hsplit
    cases hsplit
  | cons last rest =>
    rw [hbehind] at hhead
    cases hhead

theorem view_untilAfter (start : Cursor) (delimiters : List Delimiter) {α : Type}
    (reader : Reader α) :
    (start.untilAfter delimiters reader).2.view = (start.atDelimiter delimiters).view.tail := by
  have hat := (start.reaches_atDelimiter delimiters).view_eq
  rw [(start.reaches_untilAfter delimiters reader).view_eq, List.append_assoc,
    List.append_cancel_left_eq] at hat
  cases hbehind : (start.atDelimiter delimiters).view with
  | nil =>
    rw [hbehind] at hat
    exact (List.append_eq_nil_iff.1 hat).2
  | cons last rest =>
    rw [hbehind] at hat
    exact (List.cons.inj hat).2

end Cursor

theorem Component.first_ne_of_passes {component : Component} {stops : List Delimiter}
    (h : component.passes stops) {delimiter : Delimiter} (hmem : delimiter ∈ stops) :
    component.first ≠ delimiter.token := by
  rw [Component.passes, Bool.not_eq_true', stopsAt, List.any_eq_false] at h
  intro hfirst
  exact h delimiter hmem (by rw [hfirst, decide_eq_true_eq])

theorem Component.exists_first_eq {component : Component} {stops : List Delimiter}
    (h : component.passes stops = false) :
    ∃ delimiter ∈ stops, component.first = delimiter.token := by
  rw [Component.passes, Bool.not_eq_false', stopsAt, List.any_eq_true] at h
  obtain ⟨delimiter, hmem, htoken⟩ := h
  exact ⟨delimiter, hmem, (of_decide_eq_true htoken).symm⟩

theorem Component.isSemicolon_of_passes {component : Component} {stops : List Delimiter}
    (h : component.passes stops) (hmem : .semicolon ∈ stops) : component.isSemicolon = false := by
  have hne := first_ne_of_passes h hmem
  cases component with
  | leaf lexeme => simpa [isSemicolon, token?, first, Delimiter.token] using hne
  | block => rfl

theorem Component.curlyBody?_of_passes {component : Component} {stops : List Delimiter}
    (h : component.passes stops) (hmem : .curlyBlock ∈ stops) : component.curlyBody? = none := by
  have hne := first_ne_of_passes h hmem
  cases component with
  | leaf => rfl
  | block opener body closer? => exact if_neg hne

/-! ## Declarations -/

/-- What a text declares by itself. -/
def declared? (text : List Char) : Option (String × String) :=
  Statement.declaration? ⟨[.leaf ⟨.symbol, text⟩], none⟩

theorem declared?_text (statement : Statement) :
    declared? statement.text = statement.declaration? :=
  Statement.declaration?_congr (by
    simp [Statement.text, Component.text, Component.lexemesIn, Component.lexemes])

def declarationTurn (declarations : Declarations) (start : Cursor) :
    Turn Declarations Declarations :=
  let behind := (start.untilAfter [.semicolon] drain).2
  match declared? (start.textUpTo behind) with
  | some (property, value) => .again (declarations.insert property value) behind
  | none => .again declarations behind

theorem declarationTurn_eq {start : Cursor} {component : Component}
    (h : start.StandsBefore component) (declarations : Declarations) :
    declarationTurn declarations start =
      .again (declarations.insertMany (Statement.declaration?
        ⟨(start.within [.semicolon]).view, (start.atDelimiter [.semicolon]).view.head?⟩).toList)
        (start.untilAfter [.semicolon] drain).2 := by
  have htext := Cursor.textUpTo_eq (start.reaches_untilAfter [.semicolon] drain) h.pending?
    (Cursor.pending?_settled _)
  rw [declarationTurn, htext, ← declared?_text]
  unfold Statement.text
  split
  next property value hdeclared =>
    rw [hdeclared, Option.toList_some, Std.ExtTreeMap.insertMany_cons,
      Std.ExtTreeMap.insertMany_nil]
  next hdeclared => rw [hdeclared, Option.toList_none, Std.ExtTreeMap.insertMany_nil]

theorem advances_declarationTurn (declarations : Declarations) (start : Cursor)
    (component : Component) (h : start.StandsBefore component) :
    (declarationTurn declarations start).Advances start := by
  rw [declarationTurn_eq h]
  have hreach := start.reaches_untilAfter [.semicolon] drain
  exact ⟨⟨_, hreach⟩, hreach.isPast (h.passed_ne_nil _) h.pending? (Cursor.pending?_settled _),
    nofun⟩

/-- The loop that reads declarations. -/
def declarationLoop : Loop Declarations Declarations :=
  .untilExhausted declarationTurn advances_declarationTurn

theorem isExhaustive_declarationLoop : declarationLoop.IsExhaustive :=
  Loop.isExhaustive_untilExhausted advances_declarationTurn

/-- Reads the declarations of a block. -/
def declarations : Reader Declarations :=
  declarationLoop.reader ∅

theorem isExhaustive_declarations : declarations.IsExhaustive :=
  isExhaustive_declarationLoop.reader ∅

/-- The declarations of components, put over others. -/
def declarationsOver (found : Declarations) (components : List Component) : Declarations :=
  found.insertMany ((Statement.declarationsIn components).flatMap (·.declaration?.toList))

theorem declarationsOver_empty (components : List Component) :
    declarationsOver ∅ components = .ofComponents components := by
  rw [declarationsOver, Declarations.ofComponents, Std.ExtTreeMap.ofList_eq_insertMany_empty,
    List.filterMap_eq_flatMap_toList]

theorem ignoresTrivia_declarationsOver : IgnoresTrivia declarationsOver := by
  intro found component components h
  have hsplit : Statement.declarationsIn (component :: components) =
      Statement.declarationsIn components := Statement.split_cons_of_skips h components
  rw [declarationsOver, declarationsOver, hsplit]

/-- In front of a component, a turn takes in the declaration that begins there. -/
theorem outcome_declarationTurn (found : Declarations) (start : Cursor) (component : Component)
    (h : start.StandsBefore component) :
    (declarationTurn found start).outcome declarationsOver = declarationsOver found start.view := by
  have hsplit : Statement.declarationsIn start.view =
      ⟨(start.within [.semicolon]).view, (start.atDelimiter [.semicolon]).view.head?⟩ ::
        Statement.declarationsIn (start.atDelimiter [.semicolon]).view.tail := by
    apply h.split_view h.isTrivia
    · intro component hpasses
      exact Component.isSemicolon_of_passes hpasses List.mem_cons_self
    · intro cursor last hread hstop
      obtain ⟨delimiter, hmem, hfirst⟩ := Component.exists_first_eq hstop
      obtain rfl := List.mem_singleton.1 hmem
      obtain ⟨lexeme, rfl, -⟩ := hread.exists_eq_leaf (by rw [hfirst]; rfl)
      exact decide_eq_true (congrArg some hfirst)
  rw [declarationTurn_eq h, Turn.outcome, Cursor.view_untilAfter, declarationsOver,
    declarationsOver, hsplit, List.flatMap_cons, Std.ExtTreeMap.insertMany_append]

/-- The loop finds the declarations into which the components in view are cut. -/
theorem declarations_read (start : Cursor) :
    (declarations.read start).1 = .ofComponents start.view := by
  rw [← declarationsOver_empty]
  apply Loop.run_fst
  intro found cursor _
  exact outcome_guardedTurn _ ignoresTrivia_declarationsOver
    (fun _ ↦ Std.ExtTreeMap.insertMany_nil) outcome_declarationTurn found cursor

end Css

end TouchTarget
