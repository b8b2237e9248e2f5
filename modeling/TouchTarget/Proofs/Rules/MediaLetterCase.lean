import Mathlib.Data.List.Forall2
import TouchTarget.Proofs.Css.LetterCase
import TouchTarget.Proofs.Rules.MediaRule
import TouchTarget.Proofs.Rules.OnePass

/-!
# Letter case in media rules

A text is cut into the heads of its media rules and what is between them. If only the heads are spelt
in another letter case, the sheet is the same: the threshold is looked for up to letter case, and what
is between the heads is the same text with the same lexemes.

The last of this is not obvious, as the token of a lexeme may depend on what follows its text. But it
depends on no more than whether anything follows, and so lexemes that differ in letter case only are
the same as soon as their texts are.
-/

namespace TouchTarget

open Text Css

namespace Css

/-! ## Components in lower case -/

namespace Component

mutual

/-- The component with its lexemes in lower case. -/
def lowered : Component → Component
  | leaf lexeme => leaf lexeme.lowered
  | block opener body closer? => block opener.lowered (loweredIn body) (closer?.map Lexeme.lowered)

def loweredIn : List Component → List Component
  | [] => []
  | component :: rest => component.lowered :: loweredIn rest

end

theorem loweredIn_eq_map (components : List Component) :
    loweredIn components = components.map lowered := by
  induction components with
  | nil => rfl
  | cons component rest ih => rw [loweredIn, ih, List.map_cons]

mutual

theorem lexemes_lowered : ∀ component : Component,
    component.lowered.lexemes = component.lexemes.map Lexeme.lowered
  | leaf _ => rfl
  | block opener body closer? => by
    have hbody := lexemesIn_loweredIn body
    cases closer? <;> simp [lowered, lexemes, hbody]

theorem lexemesIn_loweredIn : ∀ components : List Component,
    lexemesIn (loweredIn components) = (lexemesIn components).map Lexeme.lowered
  | [] => rfl
  | component :: rest => by
    rw [loweredIn, lexemesIn, lexemesIn, List.map_append, lexemes_lowered component,
      lexemesIn_loweredIn rest]

end

theorem length_lexemes_of_lowered_eq {component other : Component}
    (h : component.lowered = other.lowered) : component.lexemes.length = other.lexemes.length := by
  have hlexemes := congrArg lexemes h
  rw [lexemes_lowered, lexemes_lowered] at hlexemes
  simpa using congrArg List.length hlexemes

theorem length_lexemesIn_of_loweredIn_eq {components others : List Component}
    (h : loweredIn components = loweredIn others) :
    (lexemesIn components).length = (lexemesIn others).length := by
  have hlexemes := congrArg lexemesIn h
  rw [lexemesIn_loweredIn, lexemesIn_loweredIn] at hlexemes
  simpa using congrArg List.length hlexemes

mutual

/-- A component is known from its shape, which lower case keeps, and from its lexemes. -/
theorem eq_of_lexemes_eq : ∀ component other : Component, component.lowered = other.lowered →
    component.lexemes = other.lexemes → component = other
  | leaf lexeme, leaf other, _, h => by rw [List.singleton_inj.1 h]
  | leaf _, block .., hshape, _ => by cases hshape
  | block .., leaf _, hshape, _ => by cases hshape
  | block opener body closer?, block otherOpener otherBody otherCloser?, hshape, h => by
    obtain ⟨-, hbody, -⟩ := block.inj hshape
    rw [lexemes, lexemes, List.cons_append, List.cons_append] at h
    obtain ⟨hopener, h⟩ := List.cons.inj h
    obtain ⟨hinside, hcloser⟩ := List.append_inj h (length_lexemesIn_of_loweredIn_eq hbody)
    have hsame : closer? = otherCloser? := by
      cases closer? <;> cases otherCloser? <;> simp_all
    rw [hopener, eq_of_lexemesIn_eq body otherBody hbody hinside, hsame]

theorem eq_of_lexemesIn_eq : ∀ components others : List Component,
    loweredIn components = loweredIn others → lexemesIn components = lexemesIn others →
      components = others
  | [], [], _, _ => rfl
  | [], _ :: _, hshape, _ => by cases hshape
  | _ :: _, [], hshape, _ => by cases hshape
  | component :: rest, other :: others, hshape, h => by
    obtain ⟨hfirst, hrest⟩ := List.cons.inj hshape
    rw [lexemesIn, lexemesIn] at h
    obtain ⟨hlexemes, hbehind⟩ := List.append_inj h (length_lexemes_of_lowered_eq hfirst)
    rw [eq_of_lexemes_eq component other hfirst hlexemes,
      eq_of_lexemesIn_eq rest others hrest hbehind]

end

end Component

theorem enclosed_map_lowered (opened : List Bracket) (lexemes : List Lexeme) :
    enclosed opened (lexemes.map Lexeme.lowered) =
      ⟨(enclosed opened lexemes).inside.map Lexeme.lowered,
        (enclosed opened lexemes).closer?.map Lexeme.lowered,
        (enclosed opened lexemes).after.map Lexeme.lowered⟩ := by
  induction lexemes generalizing opened with
  | nil => rfl
  | cons lexeme rest ih =>
    have hnest : lexeme.lowered.token.nest opened = lexeme.token.nest opened :=
      lexeme.token.nest_lowered opened
    by_cases hnil : lexeme.token.nest opened = []
    · rw [List.map_cons, enclosed_cons_of_nest_eq_nil hnil,
        enclosed_cons_of_nest_eq_nil (hnest.trans hnil)]
      rfl
    · rw [List.map_cons, enclosed_cons_of_nest_ne_nil hnil,
        enclosed_cons_of_nest_ne_nil (by rwa [hnest]), hnest, ih]
      rfl

/-- Lower case makes no difference to the blocks. -/
theorem Component.ofLexemes_map_lowered (lexemes : List Lexeme) :
    ofLexemes (lexemes.map Lexeme.lowered) = (ofLexemes lexemes).map lowered := by
  induction lexemes using Component.induction_on_blocks with
  | nil => rfl
  | leaf lexeme rest hopens ih =>
    have hlowered : lexeme.lowered.token.opens? = none := lexeme.token.opens?_lowered.trans hopens
    rw [List.map_cons, ofLexemes_cons_of_leaf hopens, ofLexemes_cons_of_leaf hlowered, ih]
    rfl
  | block opener bracket rest hopens ihInside ihAfter =>
    have hlowered : opener.lowered.token.opens? = some bracket :=
      opener.token.opens?_lowered.trans hopens
    rw [List.map_cons, ofLexemes_cons_of_opens hopens, ofLexemes_cons_of_opens hlowered,
      enclosed_map_lowered, ihInside, ihAfter, List.map_cons, lowered, loweredIn_eq_map]

/-! ## What lower case keeps -/

namespace Component

@[simp] theorem isTrivia_lowered (component : Component) :
    component.lowered.isTrivia = component.isTrivia := by
  cases component with
  | leaf lexeme => obtain ⟨token, text⟩ := lexeme; cases token <;> rfl
  | block => rfl

@[simp] theorem isFiller_lowered (component : Component) :
    component.lowered.isFiller = component.isFiller := by
  cases component with
  | leaf lexeme => obtain ⟨token, text⟩ := lexeme; cases token <;> rfl
  | block => rfl

@[simp] theorem isSemicolon_lowered (component : Component) :
    component.lowered.isSemicolon = component.isSemicolon := by
  cases component with
  | leaf lexeme => obtain ⟨token, text⟩ := lexeme; cases token <;> rfl
  | block => rfl

theorem bodyOf?_lowered (bracket : Bracket) (component : Component) :
    component.lowered.bodyOf? (.opener bracket) =
      (component.bodyOf? (.opener bracket)).map (List.map lowered) := by
  cases component with
  | leaf => rfl
  | block opener body closer? =>
    have hopener : opener.lowered.token = .opener bracket ↔ opener.token = .opener bracket := by
      obtain ⟨token, text⟩ := opener
      cases token <;> simp [Lexeme.lowered, Token.lowered]
    rw [lowered, bodyOf?, bodyOf?, loweredIn_eq_map]
    simp only [hopener]
    split <;> rfl

/-- The component ends a rule or an at-rule. -/
theorem isEnd_lowered (component : Component) :
    (component.lowered.isSemicolon || component.lowered.curlyBody?.isSome) =
      (component.isSemicolon || component.curlyBody?.isSome) := by
  rw [isSemicolon_lowered, curlyBody?, bodyOf?_lowered, Option.isSome_map]

end Component

theorem isMaxWidth_map_toLower (name : List Char) :
    isMaxWidth (name.map Char.toLower) = isMaxWidth name := by
  simp [isMaxWidth, sameLetters]

theorem maxWidth?_map_lowered (feature : List Component) :
    maxWidth? (feature.map Component.lowered) = maxWidth? feature := by
  have hfilter : (feature.map Component.lowered).filter (!·.isTrivia) =
      (feature.filter (!·.isTrivia)).map Component.lowered := by
    simp [List.filter_map, Function.comp_def]
  unfold maxWidth?
  rw [hfilter]
  generalize feature.filter (!·.isTrivia) = kept
  -- Wherever the feature is not one of a width, both sides are none.
  obtain _ | ⟨⟨token, text⟩ | _, kept⟩ := kept
  · rfl
  · cases token with
    | ident name =>
      obtain _ | ⟨⟨token, text⟩ | _, kept⟩ := kept
      · rfl
      · cases token with
        | colon =>
          obtain _ | ⟨⟨token, text⟩ | _, kept⟩ := kept
          · rfl
          · change (if isMaxWidth (name.map Char.toLower) then token.lowered.pixels? else none) = _
            rw [isMaxWidth_map_toLower, Token.pixels?_lowered]
          · rfl
        | _ => rfl
      · rfl
    | _ => rfl
  · rfl

theorem threshold?_map_lowered (condition : List Component) :
    threshold? (condition.map Component.lowered) = threshold? condition := by
  rw [threshold?, threshold?, List.findSome?_map]
  congr 1
  funext component
  rw [Function.comp_apply, Component.roundBody?, Component.bodyOf?_lowered]
  cases component.bodyOf? (.opener .round) with
  | none => rfl
  | some feature => exact maxWidth?_map_lowered feature

theorem Statement.mediaCondition?_map_lowered (head : List Component) (end? other? : Option Component) :
    (Statement.mk (head.map Component.lowered) end?).mediaCondition? =
      ((Statement.mk head other?).mediaCondition?).map (List.map Component.lowered) := by
  obtain _ | ⟨⟨token, text⟩ | _, condition⟩ := head
  · rfl
  · cases token with
    | atKeyword name =>
      have hname : sameLetters (name.map Char.toLower) ['m', 'e', 'd', 'i', 'a'] =
          sameLetters name ['m', 'e', 'd', 'i', 'a'] := by
        simp [sameLetters]
      unfold mediaCondition?
      simp only [List.map_cons, Component.lowered, Lexeme.lowered, Token.lowered, hname]
      split <;> rfl
    | _ => rfl
  · rfl

/-! ## Two spellings of the same components -/

/-- Components that differ in letter case only, lexeme by lexeme. -/
structure Component.AreRecased (components others : List Component) : Prop where
  lowered_eq : components.map lowered = others.map lowered
  lexemes : List.Forall₂ Lexeme.IsRecased (lexemesIn components) (lexemesIn others)

/-- Lexemes of the same text are the same if they differ in letter case only. -/
theorem Lexeme.eq_of_joined_eq {lexemes others : List Lexeme}
    (h : List.Forall₂ IsRecased lexemes others) (htext : joined lexemes = joined others) :
    lexemes = others := by
  induction h with
  | nil => rfl
  | @cons lexeme other _ _ hlexeme _ ih =>
    have hlength : lexeme.text.length = other.text.length := by
      have hlowered := congrArg (List.length ∘ Lexeme.text) hlexeme.lowered_eq
      simpa [lowered] using hlowered
    rw [joined_cons, joined_cons] at htext
    obtain ⟨hfirst, hrest⟩ := List.append_inj htext hlength
    rw [hlexeme.eq_of_text_eq hfirst, ih hrest]

namespace Component.AreRecased

variable {components others heads otherHeads : List Component} {component other : Component}

theorem eq_of_text_eq (h : AreRecased components others) (htext : text components = text others) :
    components = others := by
  apply eq_of_lexemesIn_eq
  · rw [loweredIn_eq_map, loweredIn_eq_map, h.lowered_eq]
  · exact Lexeme.eq_of_joined_eq h.lexemes htext

theorem nil : AreRecased [] [] := ⟨rfl, .nil⟩

theorem reverse_nil : AreRecased ([] : List Component).reverse ([] : List Component).reverse := .nil

theorem isEmpty_eq (h : AreRecased components others) : components.isEmpty = others.isEmpty := by
  rw [← List.isEmpty_map (f := lowered), h.lowered_eq, List.isEmpty_map]

theorem append (h : AreRecased heads otherHeads) (hbehind : AreRecased components others) :
    AreRecased (heads ++ components) (otherHeads ++ others) where
  lowered_eq := by rw [List.map_append, List.map_append, h.lowered_eq, hbehind.lowered_eq]
  lexemes := by
    rw [lexemesIn_append, lexemesIn_append]
    exact List.rel_append h.lexemes hbehind.lexemes

theorem cons_iff : AreRecased (component :: components) (other :: others) ↔
    AreRecased [component] [other] ∧ AreRecased components others := by
  constructor
  · rintro ⟨hlowered, hlexemes⟩
    obtain ⟨hfirst, hrest⟩ := List.cons.inj hlowered
    have hlength := length_lexemes_of_lowered_eq hfirst
    have hfront := List.forall₂_take_append _ _ _ hlexemes
    have hback := List.forall₂_drop_append _ _ _ hlexemes
    rw [lexemesIn, ← hlength, List.take_left] at hfront
    rw [lexemesIn, ← hlength, List.drop_left] at hback
    have hsingle (component : Component) : lexemesIn [component] = component.lexemes :=
      List.append_nil _
    refine ⟨⟨congrArg (fun component ↦ [component]) hfirst, ?_⟩, hrest, hback⟩
    rwa [hsingle, hsingle]
  · rintro ⟨hfirst, hrest⟩
    exact append hfirst hrest

/-- What lower case keeps is the same for both. -/
theorem apply_eq {α : Type} {f : Component → α} (hf : ∀ component, f component.lowered = f component)
    (h : AreRecased [component] [other]) : f component = f other := by
  rw [← hf component, ← hf other, (List.cons.inj h.lowered_eq).1]

end Component.AreRecased

theorem Component.areRecased_components {text spelling : List Char}
    (h : text.map Char.toLower = spelling.map Char.toLower) :
    AreRecased (components text) (components spelling) where
  lowered_eq := by
    have hlexemes := forall₂_lexemes h
    have hmap : (Css.lexemes text).map Lexeme.lowered =
        (Css.lexemes spelling).map Lexeme.lowered := by
      rw [← List.forall₂_eq_eq_eq, List.forall₂_map_left_iff, List.forall₂_map_right_iff]
      exact hlexemes.imp fun _ _ hlexeme ↦ hlexeme.lowered_eq
    rw [components, components, ← ofLexemes_map_lowered, hmap, ofLexemes_map_lowered]
  lexemes := by
    rw [lexemesIn_components, lexemesIn_components]
    exact forall₂_lexemes h

/-! ## The heads of media rules in a text -/

/-- A piece of the text of a sheet. The head of a media rule is a piece of its own. -/
structure Span where
  isMediaHead : Bool
  text : List Char

/-- The piece that is the head of a statement, the last component in front. -/
def headSpan (head : List Component) : Span where
  isMediaHead := (Statement.mk head.reverse none).mediaCondition?.isSome
  text := Component.text head.reverse

/-- The pieces of a text, which is cut into statements as a sheet is; `head` is what the current
statement has. -/
def spansFrom (head : List Component) : List Component → List Span
  | [] => [headSpan head]
  | component :: rest =>
    if head.isEmpty && component.isFiller then
      ⟨false, Component.text [component]⟩ :: spansFrom [] rest
    else if component.isSemicolon || component.curlyBody?.isSome then
      headSpan head :: ⟨false, Component.text [component]⟩ :: spansFrom [] rest
    else spansFrom (component :: head) rest

/-- The pieces of the text of a sheet. -/
def spans (text : List Char) : List Span :=
  spansFrom [] (components text)

/-- The piece may be spelt so: the head of a media rule in any letter case, anything else as it is. -/
def Span.IsSpelt (span : Span) (spelling : List Char) : Prop :=
  if span.isMediaHead = true then sameLetters span.text spelling = true else span.text = spelling

instance (span : Span) (spelling : List Char) : Decidable (span.IsSpelt spelling) :=
  inferInstanceAs (Decidable (if span.isMediaHead = true then sameLetters span.text spelling = true
    else span.text = spelling))

/-- The other text is the text with the heads of its media rules, which are the keyword and the
condition, in any letter case. -/
def IsRecased (text other : List Char) : Prop :=
  ∃ spellings, List.Forall₂ Span.IsSpelt (spans text) spellings ∧ other = spellings.flatten

theorem flatMap_spansFrom (head components : List Component) :
    (spansFrom head components).flatMap Span.text = Component.text (head.reverse ++ components) := by
  induction components generalizing head with
  | nil => simp [spansFrom, headSpan]
  | cons component rest ih =>
    have hcons : Component.text (component :: rest) =
        Component.text [component] ++ Component.text rest := by
      rw [← Component.text_append, List.singleton_append]
    rw [spansFrom]
    split
    next h =>
      obtain rfl : head = [] := List.isEmpty_iff.1 (Bool.and_eq_true_iff.1 h).1
      rw [List.flatMap_cons, ih, List.reverse_nil, List.nil_append, List.nil_append, hcons]
    next =>
      split
      · rw [List.flatMap_cons, List.flatMap_cons, ih, List.reverse_nil, List.nil_append,
          Component.text_append, hcons]
        rfl
      · rw [ih, List.reverse_cons, List.append_assoc, List.singleton_append]

/-- The pieces make up the text. -/
theorem flatMap_spans (text : List Char) : (spans text).flatMap Span.text = text := by
  rw [spans, flatMap_spansFrom, List.reverse_nil, List.nil_append, Component.text_components]

namespace Span

/-- The piece in lower case. -/
def lowered (span : Span) : Span :=
  ⟨span.isMediaHead, span.text.map Char.toLower⟩

end Span

theorem Component.text_map_lowered (components : List Component) :
    text (components.map lowered) = (text components).map Char.toLower := by
  rw [← loweredIn_eq_map, text, text, lexemesIn_loweredIn, Lexeme.joined, Lexeme.joined,
    List.map_flatMap, List.flatMap_map]
  rfl

theorem headSpan_map_lowered (head : List Component) :
    headSpan (head.map Component.lowered) = (headSpan head).lowered := by
  rw [headSpan, headSpan, Span.lowered, ← List.map_reverse, Component.text_map_lowered,
    Statement.mediaCondition?_map_lowered _ none none, Option.isSome_map]

/-- Letter case makes no difference to the places at which a text is cut, and to which pieces are
heads of media rules. -/
theorem spansFrom_map_lowered (head components : List Component) :
    spansFrom (head.map Component.lowered) (components.map Component.lowered) =
      (spansFrom head components).map Span.lowered := by
  induction components generalizing head with
  | nil => exact congrArg (fun span ↦ [span]) (headSpan_map_lowered head)
  | cons component rest ih =>
    have hsingle : (⟨false, Component.text [component.lowered]⟩ : Span) =
        Span.lowered ⟨false, Component.text [component]⟩ :=
      congrArg (Span.mk false) (Component.text_map_lowered [component])
    have hempty := ih []
    rw [List.map_nil] at hempty
    rw [List.map_cons, spansFrom, spansFrom, List.isEmpty_map, Component.isFiller_lowered,
      Component.isEnd_lowered]
    split
    · rw [List.map_cons, hsingle, hempty]
    · split
      · rw [List.map_cons, List.map_cons, hsingle, hempty, headSpan_map_lowered]
      · exact ih (component :: head)

theorem map_lowered_spans {text spelling : List Char}
    (h : text.map Char.toLower = spelling.map Char.toLower) :
    (spans text).map Span.lowered = (spans spelling).map Span.lowered := by
  rw [spans, spans, ← spansFrom_map_lowered, ← spansFrom_map_lowered,
    (Component.areRecased_components h).lowered_eq]

theorem map_toLower_of_isSpelt {spans : List Span} {spellings : List (List Char)}
    (h : List.Forall₂ Span.IsSpelt spans spellings) :
    spans.map (fun span ↦ span.text.map Char.toLower) = spellings.map (List.map Char.toLower) := by
  induction h with
  | nil => rfl
  | @cons span spelling _ _ hspelt _ ih =>
    have hlower : span.text.map Char.toLower = spelling.map Char.toLower := by
      unfold Span.IsSpelt at hspelt
      split at hspelt
      · exact sameLetters_iff.1 hspelt
      · rw [hspelt]
    rw [List.map_cons, List.map_cons, hlower, ih]

/-- The pieces of another spelling are the pieces of the text in that spelling. -/
theorem IsRecased.forall₂_spans {text other : List Char} (h : IsRecased text other) :
    text.map Char.toLower = other.map Char.toLower ∧
      List.Forall₂ (fun span spelling ↦ span.IsSpelt spelling.text) (spans text) (spans other) := by
  obtain ⟨spellings, hspelt, rfl⟩ := h
  have hlowered := map_toLower_of_isSpelt hspelt
  have htext : text.map Char.toLower = spellings.flatten.map Char.toLower := by
    conv_lhs => rw [← flatMap_spans text]
    rw [List.map_flatMap, List.flatMap_def, hlowered, List.map_flatten]
  have hspans : (spans spellings.flatten).map (fun span ↦ span.text.map Char.toLower) =
      spellings.map (List.map Char.toLower) := by
    have hboth := congrArg (List.map Span.text) (map_lowered_spans htext)
    rw [List.map_map, List.map_map] at hboth
    exact hboth.symm.trans hlowered
  have heq : (spans spellings.flatten).map Span.text = spellings := by
    rw [List.eq_iff_flatten_eq]
    constructor
    · rw [← List.flatMap_def, flatMap_spans]
    · have hlengths := congrArg (List.map List.length) hspans
      simpa [List.map_map, Function.comp_def] using hlengths
  rw [← heq, List.forall₂_map_right_iff] at hspelt
  exact ⟨htext, hspelt⟩

end Css

namespace StyleSheet

theorem read_of_body?_eq_none {statement : Statement} (h : statement.body? = none) (sheet : StyleSheet) :
    sheet.read statement = sheet := by
  rw [read, Statement.rule?_of_body?_eq_none h, h]
  cases statement.mediaCondition? <;> rfl

/-- A sheet reads a statement in the same way if the letter case of its head may differ only where it is
the head of a media rule. -/
theorem read_congr {head otherHead : List Component} (end? : Option Component)
    (hhead : Component.AreRecased head.reverse otherHead.reverse)
    (hspelt : (headSpan head).IsSpelt (headSpan otherHead).text) (sheet : StyleSheet) :
    sheet.read ⟨head.reverse, end?⟩ = sheet.read ⟨otherHead.reverse, end?⟩ := by
  unfold Span.IsSpelt at hspelt
  split at hspelt
  next hmedia =>
    obtain ⟨condition, hcondition⟩ := Option.isSome_iff_exists.1 hmedia
    have hmedia : (Statement.mk head.reverse end?).mediaCondition? = some condition := hcondition
    have hboth := Statement.mediaCondition?_map_lowered head.reverse none end?
    rw [hhead.lowered_eq, Statement.mediaCondition?_map_lowered otherHead.reverse none end?, hmedia,
      Option.map_some, Option.map_eq_some_iff] at hboth
    obtain ⟨otherCondition, hotherMedia, hlowered⟩ := hboth
    have hthreshold : threshold? condition = threshold? otherCondition := by
      rw [← threshold?_map_lowered, ← hlowered, threshold?_map_lowered]
    rw [read, read, hmedia, hotherMedia]
    simp only [hthreshold]
    rfl
  next => rw [hhead.eq_of_text_eq hspelt]

/-- A sheet takes the same statements in from components that differ in the letter case of the heads
of media rules. -/
theorem foldl_read_congr {head otherHead components others : List Component}
    (hhead : Component.AreRecased head.reverse otherHead.reverse)
    (h : Component.AreRecased components others)
    (hspans : List.Forall₂ (fun span spelling ↦ span.IsSpelt spelling.text)
      (spansFrom head components) (spansFrom otherHead others)) (sheet : StyleSheet) :
    (Statement.rulesFrom head components).foldl read sheet =
      (Statement.rulesFrom otherHead others).foldl read sheet := by
  induction components generalizing head otherHead others sheet with
  | nil =>
    obtain rfl : others = [] := List.map_eq_nil_iff.1 h.lowered_eq.symm
    have hnone (head : List Component) (sheet : StyleSheet) :
        (Statement.rulesFrom head []).foldl read sheet = sheet := by
      rw [Statement.rulesFrom, Statement.split]
      split
      · rfl
      · exact read_of_body?_eq_none rfl sheet
    rw [hnone, hnone]
  | cons component rest ih =>
    obtain ⟨other, others, rfl⟩ : ∃ other others', others = other :: others' := by
      cases others with
      | nil => cases h.lowered_eq
      | cons other others => exact ⟨other, others, rfl⟩
    obtain ⟨hfirst, hrest⟩ := Component.AreRecased.cons_iff.1 h
    have hempty : otherHead.isEmpty = head.isEmpty := by
      rw [← List.isEmpty_reverse, ← hhead.isEmpty_eq, List.isEmpty_reverse]
    have hfiller : (other.isTrivia || Statement.isStray other) =
        (component.isTrivia || Statement.isStray component) :=
      (hfirst.apply_eq Component.isFiller_lowered).symm
    have hends : (other.isSemicolon || other.curlyBody?.isSome) =
        (component.isSemicolon || component.curlyBody?.isSome) :=
      (hfirst.apply_eq (f := fun component ↦ component.isSemicolon || component.curlyBody?.isSome)
        Component.isEnd_lowered).symm
    unfold Statement.rulesFrom at ih ⊢
    rw [Statement.split, Statement.split, hempty, hfiller, hends]
    rw [spansFrom, spansFrom, Component.isFiller, Component.isFiller, hempty, hfiller, hends] at hspans
    split at hspans
    next hskip =>
      rw [if_pos hskip, if_pos hskip]
      exact ih Component.AreRecased.reverse_nil hrest (List.forall₂_cons.1 hspans).2 sheet
    next hskip =>
      rw [if_neg hskip, if_neg hskip]
      split at hspans
      next hend =>
        obtain ⟨hspelt, htail⟩ := List.forall₂_cons.1 hspans
        obtain ⟨hverbatim, hbehind⟩ := List.forall₂_cons.1 htail
        have hsame : [component] = [other] := hfirst.eq_of_text_eq hverbatim
        obtain rfl := List.singleton_inj.1 hsame
        rw [if_pos hend, if_pos hend, List.foldl_cons, List.foldl_cons,
          read_congr (some component) hhead hspelt,
          ih Component.AreRecased.reverse_nil hrest hbehind]
      next hend =>
        rw [if_neg hend, if_neg hend]
        refine ih ?_ hrest hspans sheet
        rw [List.reverse_cons, List.reverse_cons]
        exact hhead.append hfirst

/-- The letter case of the heads of media rules makes no difference to a sheet. -/
theorem parse_congr {text other : String} (h : IsRecased text.toList other.toList) :
    parse text = parse other := by
  obtain ⟨htext, hspans⟩ := h.forall₂_spans
  exact foldl_read_congr Component.AreRecased.reverse_nil
    (Component.areRecased_components htext) hspans ∅

end StyleSheet

/-- The letter case of a value makes no difference to its length and to the sides that it gives as a
shorthand, and the letter case of the keyword and of the condition of a media rule makes no difference
to the sheet. -/
theorem letter_case_irrelevant :
    (∀ raw other : String, sameLetters raw.toList other.toList →
      length? raw = length? other ∧ padding raw = padding other) ∧
    ∀ text other : String, IsRecased text.toList other.toList →
      StyleSheet.parse text = StyleSheet.parse other :=
  ⟨fun _ _ h ↦ ⟨length?_congr h, padding_congr h⟩, fun _ _ h ↦ StyleSheet.parse_congr h⟩

/-- Units and a condition that are spelt with escapes, and an exponent. -/
theorem letter_case_irrelevant_escaped :
    (sameLetters "1E1\\50 x".toList "1e1\\50 X".toList ∧
      length? "1E1\\50 x" = length? "1e1\\50 X" ∧ padding "1E1\\50 x" = padding "1e1\\50 X") ∧
    IsRecased "a\x7bB:C\x7d@media (max-\\77idth: 9px)\x7bA\x7bB:C\x7d\x7d".toList
      "a\x7bB:C\x7d@MEDIA (MAX-\\77IDTH: 9PX)\x7bA\x7bB:C\x7d\x7d".toList ∧
    StyleSheet.parse "a\x7bB:C\x7d@media (max-\\77idth: 9px)\x7bA\x7bB:C\x7d\x7d" =
      StyleSheet.parse "a\x7bB:C\x7d@MEDIA (MAX-\\77IDTH: 9PX)\x7bA\x7bB:C\x7d\x7d" := by
  have hletters : sameLetters "1E1\\50 x".toList "1e1\\50 X".toList := by decide
  have hrecased : IsRecased "a\x7bB:C\x7d@media (max-\\77idth: 9px)\x7bA\x7bB:C\x7d\x7d".toList
      "a\x7bB:C\x7d@MEDIA (MAX-\\77IDTH: 9PX)\x7bA\x7bB:C\x7d\x7d".toList := by
    refine ⟨["a", "\x7bB:C\x7d", "@MEDIA (MAX-\\77IDTH: 9PX)", "\x7bA\x7bB:C\x7d\x7d", ""].map
      String.toList, ?_, ?_⟩ <;> decide +kernel
  exact ⟨⟨hletters, letter_case_irrelevant.1 _ _ hletters⟩, hrecased,
    letter_case_irrelevant.2 _ _ hrecased⟩

end TouchTarget
