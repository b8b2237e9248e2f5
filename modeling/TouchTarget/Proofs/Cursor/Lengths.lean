import TouchTarget.Css.Length
import TouchTarget.Css.Media
import TouchTarget.Proofs.Css.FirstLength
import TouchTarget.Proofs.Cursor.Rules

/-!
# Lengths read with a cursor

The width in a feature and the first length of a value are found before everything has been read.
What is left is then passed over, so that the result is not given up. A condition is read to its end
in any case, and so the first length of a value and the threshold of a condition are those of the
components.
-/

namespace TouchTarget.Css

open Text

/-! ## Reading up to a result -/

/-- Reads on to the end behind a result. -/
def Reader.thenDrain {α : Type} (reader : Reader α) : Reader α where
  read start := ((reader.read start).1, (drain.read (reader.read start).2).2)
  reaches start := by
    obtain ⟨passed, hpassed⟩ := reader.reaches start
    obtain ⟨more, hmore⟩ := drain.reaches (reader.read start).2
    exact ⟨passed ++ more, hpassed.trans hmore⟩

theorem Reader.isExhaustive_thenDrain {α : Type} (reader : Reader α) :
    reader.thenDrain.IsExhaustive :=
  fun start ↦ isExhaustive_drain (reader.read start).2

theorem Cursor.reaches_next (start : Cursor) : ∃ passed, start.Reaches start.next.2 passed := by
  rcases start.next_cases with ⟨hnext, -⟩ | ⟨component, behind, hnext, -, hreach, -, -⟩
  · rw [hnext]
    exact ⟨_, start.reaches_skipTrivia⟩
  · rw [hnext]
    exact ⟨_, start.reaches_skipTrivia.trans hreach⟩

/-! ## Features -/

/-- The components in view without blanks and comments. -/
def Cursor.significant (cursor : Cursor) : List Component :=
  cursor.view.filter (!·.isTrivia)

/-- Reads a colon and the width behind it. -/
def widthBehindColon (start : Cursor) : Option Pixels × Cursor :=
  match start.next with
  | (some .colon, width) => (width.next.1.bind Token.pixels?, width.next.2)
  | (_, behind) => (none, behind)

/-- Reads the name, the colon and the width of a feature, as far as they are there. -/
def featureWidth (start : Cursor) : Option Pixels × Cursor :=
  match start.next with
  | (some (.ident name), colon) =>
    if isMaxWidth name then widthBehindColon colon else (none, colon)
  | (_, behind) => (none, behind)

theorem reaches_widthBehindColon (start : Cursor) :
    ∃ passed, start.Reaches (widthBehindColon start).2 passed := by
  obtain ⟨first, hfirst⟩ := start.reaches_next
  unfold widthBehindColon
  split
  next width hcolon =>
    obtain ⟨second, hsecond⟩ := width.reaches_next
    rw [hcolon] at hfirst
    exact ⟨_, hfirst.trans hsecond⟩
  next behind _ hbehind =>
    rw [hbehind] at hfirst
    exact ⟨_, hfirst⟩

theorem reaches_featureWidth (start : Cursor) :
    ∃ passed, start.Reaches (featureWidth start).2 passed := by
  obtain ⟨first, hfirst⟩ := start.reaches_next
  unfold featureWidth
  split
  next name colon hname =>
    obtain ⟨more, hmore⟩ := reaches_widthBehindColon colon
    rw [hname] at hfirst
    split
    next => exact ⟨_, hfirst.trans hmore⟩
    next => exact ⟨_, hfirst⟩
  next behind _ hbehind =>
    rw [hbehind] at hfirst
    exact ⟨_, hfirst⟩

/-- Reads a feature in round brackets. -/
def feature : Reader (Option Pixels) :=
  Reader.thenDrain ⟨featureWidth, reaches_featureWidth⟩

theorem isExhaustive_feature : feature.IsExhaustive :=
  Reader.isExhaustive_thenDrain _

/-- The next token begins the first significant component. -/
theorem Cursor.significant_cases (start : Cursor) :
    (start.next = (none, start.skipTrivia) ∧ start.significant = []) ∨
      ∃ component behind, start.next = (some component.first, behind) ∧
        start.significant = component :: behind.significant ∧ behind.HasRead component := by
  have htrivia : (start.upcoming.takeWhile Component.isTrivia).filter (!·.isTrivia) = [] := by
    rw [List.filter_eq_nil_iff]
    intro component hmem
    rw [start.isTrivia_of_mem_upcoming component hmem]
    exact Bool.false_ne_true
  unfold significant
  rcases start.next_cases with ⟨hnext, hview⟩ | ⟨component, behind, hnext, hmeans, hreach, hread, -⟩
  · rw [start.reaches_skipTrivia.view_eq, hview, List.append_nil]
    exact .inl ⟨hnext, htrivia⟩
  · refine .inr ⟨component, behind, hnext, ?_, hread⟩
    rw [(start.reaches_skipTrivia.trans hreach).view_eq, List.filter_append, List.filter_append,
      htrivia, List.nil_append, List.filter_cons, hmeans]
    rfl

theorem Cursor.next_pixels? (start : Cursor) :
    start.next.1.bind Token.pixels? = match start.significant with
      | .leaf ⟨width, _⟩ :: _ => width.pixels?
      | _ => none := by
  rcases start.significant_cases with ⟨hnext, hnone⟩ | ⟨component, behind, hnext, hsome, hread⟩
  · rw [hnext, hnone]
    rfl
  · rw [hnext, hsome]
    cases component with
    | leaf => rfl
    | block opener body closer? =>
      obtain ⟨bracket, hopens, -⟩ := hread
      exact Token.pixels?_of_opens hopens

theorem widthBehindColon_fst (start : Cursor) :
    (widthBehindColon start).1 = match start.significant with
      | .leaf ⟨.colon, _⟩ :: .leaf ⟨width, _⟩ :: _ => width.pixels?
      | _ => none := by
  unfold widthBehindColon
  rcases start.significant_cases with ⟨hnext, hnone⟩ | ⟨component, behind, hnext, hsome, hread⟩
  · rw [hnext, hnone]
  · rw [hnext, hsome]
    cases component with
    | block opener body closer? =>
      obtain ⟨bracket, hopens, -⟩ := hread
      rw [Component.first]
      rcases Token.eq_of_opens hopens with ⟨name, htoken⟩ | htoken <;> rw [htoken]
    | leaf lexeme =>
      obtain ⟨token, text⟩ := lexeme
      cases token with
      | colon =>
        change behind.next.1.bind Token.pixels? = _
        rw [behind.next_pixels?]
        cases behind.significant with
        | nil => rfl
        | cons width rest => cases width <;> rfl
      | _ => rfl

/-- What is read of a feature is the width of what stands between its brackets. -/
theorem feature_read (start : Cursor) : (feature.read start).1 = maxWidth? start.view := by
  have hfilter : start.view.filter (!·.isTrivia) = start.significant := rfl
  change (featureWidth start).1 = maxWidth? start.view
  rw [featureWidth, maxWidth?, hfilter]
  rcases start.significant_cases with ⟨hnext, hnone⟩ | ⟨component, behind, hnext, hsome, hread⟩
  · rw [hnext, hnone]
  · rw [hnext, hsome]
    cases component with
    | block opener body closer? =>
      obtain ⟨bracket, hopens, -⟩ := hread
      rw [Component.first]
      rcases Token.eq_of_opens hopens with ⟨name, htoken⟩ | htoken <;> rw [htoken]
    | leaf lexeme =>
      obtain ⟨token, text⟩ := lexeme
      cases token with
      | ident name =>
        change (if isMaxWidth name then widthBehindColon behind else (none, behind)).1 = _
        rw [apply_ite Prod.fst, widthBehindColon_fst]
        rcases behind.significant with _ | ⟨colon, _ | ⟨width, rest⟩⟩
        · exact ite_self none
        · rcases colon with ⟨_ | _, _⟩ | _ <;> exact ite_self none
        · rcases colon with ⟨token, _⟩ | _
          · rcases width with _ | _ <;> cases token <;> first | exact ite_self none | rfl
          · exact ite_self none
      | _ => rfl

/-! ## Conditions -/

variable (fallbacks : Fallbacks)

/-- Reads a token of a condition, and the feature that it begins. -/
def thresholdTurn (found : Option Pixels) (token : Token) (behind : Cursor) :
    Turn (Option Pixels) (Option Pixels) :=
  match token with
  | .opener .round =>
    let read := behind.nested feature
    .again (found.or (read.1.getD fallbacks.feature)) read.2
  | _ => .again found behind

theorem reaches_thresholdTurn (found : Option Pixels) (token : Token) (behind : Cursor) :
    ∃ passed, behind.Reaches (thresholdTurn fallbacks found token behind).cursor passed := by
  simp only [thresholdTurn, Cursor.nested_snd]
  split
  · exact ⟨[], behind.reaches_settled⟩
  · exact ⟨[], .refl behind⟩

theorem goesOn_thresholdTurn (found : Option Pixels) (token : Token) (behind : Cursor) :
    (thresholdTurn fallbacks found token behind).goesOn := by
  unfold thresholdTurn
  split <;> rfl

/-- Reads the first width that a condition asks for. -/
def threshold : Reader (Option Pixels) :=
  (Loop.overTokens (thresholdTurn fallbacks) id (reaches_thresholdTurn fallbacks)).reader none

theorem isExhaustive_threshold : (threshold fallbacks).IsExhaustive :=
  (Loop.isExhaustive_overTokens _ _ _ (goesOn_thresholdTurn fallbacks)).reader none

theorem threshold?_cons (component : Component) (components : List Component) :
    threshold? (component :: components) =
      (component.roundBody?.bind maxWidth?).or (threshold? components) := by
  rw [threshold?, List.findSome?_cons]
  cases component.roundBody?.bind maxWidth? <;> rfl

/-- The first width that was found, or else that the components ask for. -/
def thresholdOver (found : Option Pixels) (components : List Component) : Option Pixels :=
  found.or (threshold? components)

theorem ignoresTrivia_thresholdOver : IgnoresTrivia thresholdOver := by
  intro found component components h
  cases component with
  | leaf => rfl
  | block => cases h

theorem outcome_thresholdTurn (found : Option Pixels) {component : Component} {behind : Cursor}
    (hread : behind.HasRead component) :
    (thresholdTurn fallbacks found component.first behind).outcome thresholdOver =
      thresholdOver found (component :: behind.view) := by
  rw [thresholdOver, threshold?_cons]
  cases component with
  | leaf lexeme =>
    have hround : lexeme.token ≠ .opener .round := by
      intro htoken
      have hopens := hread.1
      rw [htoken] at hopens
      cases hopens
    rw [thresholdTurn]
    · rfl
    · exact hround
  | block opener body closer? =>
    obtain ⟨bracket, hopens, hpending, rfl⟩ := hread
    by_cases hround : opener.token = .opener .round
    · rw [hround] at hopens
      obtain rfl := Option.some.inj hopens
      have hbody : (Component.block opener (behind.inside .round).view closer?).roundBody? =
          some (behind.inside .round).view := if_pos hround
      rw [Component.first, hround, thresholdTurn, hbody, Option.bind_some]
      simp only [Cursor.nested_snd, Cursor.nested_fst hpending isExhaustive_feature, feature_read,
        Option.getD_some]
      rw [Turn.outcome, thresholdOver, Option.or_assoc, behind.reaches_settled.view_eq]
      rfl
    · have hbody : (Component.block opener (behind.inside bracket).view closer?).roundBody? =
          none := if_neg hround
      rw [Component.first, thresholdTurn, hbody]
      · rfl
      · exact hround

theorem threshold_read (start : Cursor) :
    ((threshold fallbacks).read start).1 = threshold? start.view := by
  have hnone : thresholdOver none start.view = threshold? start.view := Option.none_or
  rw [← hnone]
  apply Loop.run_fst
  intro found cursor _
  apply outcome_tokenTurn _ _ ignoresTrivia_thresholdOver
  · exact Option.or_none
  · intro component behind hread _
    exact outcome_thresholdTurn fallbacks found hread

/-! ## Values -/

/-- Reads a token of a value: a length, or the beginning of a block that is searched for one. -/
def lengthTurn (inner : Reader (Option Pixels)) (_ : Unit) (token : Token) (behind : Cursor) :
    Turn Unit (Option Pixels) :=
  match token.pixels? with
  | some pixels => .stop (some pixels) behind
  | none =>
    if token.opens? = some .round ∨ token.opens? = some .square then
      let read := behind.nested inner.thenDrain
      match read.1.getD fallbacks.length with
      | some pixels => .stop (some pixels) read.2
      | none => .again () read.2
    else .again () behind

theorem reaches_lengthTurn (inner : Reader (Option Pixels)) (state : Unit) (token : Token)
    (behind : Cursor) :
    ∃ passed, behind.Reaches (lengthTurn fallbacks inner state token behind).cursor passed := by
  simp only [lengthTurn, Cursor.nested_snd]
  repeat' split
  all_goals first | exact ⟨[], .refl behind⟩ | exact ⟨[], behind.reaches_settled⟩

/-- Reads the first length of a value. Blocks are searched down to a number of levels. -/
def lengthWithin : Nat → Reader (Option Pixels)
  | 0 => ⟨fun start ↦ (none, start), fun start ↦ ⟨[], .refl start⟩⟩
  | levels + 1 =>
    (Loop.overTokens (lengthTurn fallbacks (lengthWithin levels)) (fun _ ↦ none)
      (reaches_lengthTurn fallbacks _)).reader ()

/-- The first length of components, whatever has been passed over in front of them. -/
def lengthOver (_ : Unit) (components : List Component) : Option Pixels :=
  Component.lengthIn? components

theorem ignoresTrivia_lengthOver : IgnoresTrivia lengthOver := by
  intro _ component components h
  cases component with
  | leaf lexeme =>
    have hpixels : lexeme.token.pixels? = none := by
      cases htoken : lexeme.token <;>
        first | rfl | (rw [Component.isTrivia, Component.token?, htoken] at h; cases h)
    rw [lengthOver, Component.lengthIn?, Component.length?, hpixels, Option.none_or, lengthOver]
  | block => cases h

theorem outcome_lengthTurn {inner : Reader (Option Pixels)} {component : Component}
    {behind : Cursor} (hread : behind.HasRead component)
    (hinner : ∀ bracket, (inner.read (behind.inside bracket)).1 =
      Component.lengthIn? (behind.inside bracket).view) :
    (lengthTurn fallbacks inner () component.first behind).outcome lengthOver =
      lengthOver () (component :: behind.view) := by
  rw [lengthOver, Component.lengthIn?]
  cases component with
  | leaf lexeme =>
    rw [Component.first, lengthTurn, Component.length?]
    cases lexeme.token.pixels? with
    | some pixels => rfl
    | none =>
      simp only [hread.1]
      rfl
  | block opener body closer? =>
    obtain ⟨bracket, hopens, hpending, rfl⟩ := hread
    have hbody : ((behind.nested inner.thenDrain).1.getD fallbacks.length) =
        Component.lengthIn? (behind.inside bracket).view := by
      rw [Cursor.nested_fst hpending inner.isExhaustive_thenDrain, Option.getD_some]
      exact hinner bracket
    simp only [Component.first, lengthTurn, Token.pixels?_of_opens hopens, hopens, hbody,
      Component.length?, Token.eq_opener_curly_iff hopens, Cursor.nested_snd]
    by_cases hcurly : bracket = .curly
    · rw [if_pos hcurly, hcurly]
      rfl
    · have hsearched : some bracket = some .round ∨ some bracket = some .square := by
        cases bracket with
        | round => exact .inl rfl
        | square => exact .inr rfl
        | curly => exact absurd rfl hcurly
      rw [if_neg hcurly, if_pos hsearched, behind.reaches_settled.view_eq, List.nil_append]
      cases Component.lengthIn? (behind.inside bracket).view <;> rfl

/-- The length that is read is the first one of the components, if there are enough levels. -/
theorem lengthWithin_read {levels : Nat} {start : Cursor} (h : start.rest.length < levels) :
    ((lengthWithin fallbacks levels).read start).1 = Component.lengthIn? start.view := by
  induction levels generalizing start with
  | zero => cases h
  | succ levels ih =>
    change (Loop.run _ () start).1 = lengthOver () start.view
    apply Loop.run_fst
    intro _ cursor hle
    apply outcome_tokenTurn _ _ ignoresTrivia_lengthOver rfl
    intro component behind hread hpast
    have hshorter : behind.rest.length < levels := by
      have hlt := (Cursor.isPast_iff.1 hpast).2
      omega
    exact outcome_lengthTurn fallbacks hread fun bracket ↦ ih hshorter

end TouchTarget.Css
