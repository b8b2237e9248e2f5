import TouchTarget.Proofs.Css.Blocks
import TouchTarget.Proofs.Rules.Merging
import TouchTarget.Rules.Reading

/-!
# What a media rule means

The threshold of a media rule is the width in the first feature of its condition that asks for one,
wherever it stands among other features and groups. The main statement is about the text of one
media rule: its sheet has no base rules, and either one conditional rule-set, which holds the rules
of the text between the brackets, or nothing at all.
-/

namespace TouchTarget

open Text Css

namespace Css

/-! ## The features of a condition -/

/-- A feature begins, apart from blank space and comments, with the name of the feature, a colon
and a length in pixels; anything may follow. -/
def AsksForMaxWidth (feature : List Component) (width : Numeral) : Prop :=
  ∃ name unit nameText colonText widthText rest,
    feature.filter (!·.isTrivia) = .leaf ⟨.ident name, nameText⟩ :: .leaf ⟨.colon, colonText⟩ ::
      .leaf ⟨.dimension width unit, widthText⟩ :: rest ∧
    isMaxWidth name ∧ sameLetters unit ['p', 'x']

/-- The features of a condition, which are its blocks in round brackets. -/
def featuresIn (condition : List Component) : List (List Component) :=
  condition.filterMap Component.roundBody?

theorem maxWidth?_eq_some_iff {feature : List Component} {pixels : Pixels} :
    maxWidth? feature = some pixels ↔
      ∃ width, AsksForMaxWidth feature width ∧ width.pixels = pixels := by
  constructor
  · intro h
    unfold maxWidth? at h
    split at h
    next name nameText colonText token widthText rest hfeature =>
      split at h
      next hname =>
        obtain ⟨width, unit, rfl, hunit, hpixels⟩ := Token.pixels?_eq_some_iff.1 h
        exact ⟨width, ⟨name, unit, nameText, colonText, widthText, rest, hfeature, hname, hunit⟩,
          hpixels⟩
      next => cases h
    next => cases h
  · rintro ⟨width, ⟨name, unit, nameText, colonText, widthText, rest, hfeature, hname, hunit⟩, rfl⟩
    unfold maxWidth?
    rw [hfeature]
    simp only [hname, if_true]
    exact Token.pixels?_eq_some_iff.2 ⟨width, unit, rfl, hunit, rfl⟩

theorem maxWidth?_eq_none_iff {feature : List Component} :
    maxWidth? feature = none ↔ ∀ width, ¬AsksForMaxWidth feature width := by
  rw [Option.eq_none_iff_forall_ne_some]
  constructor
  · intro h width hasks
    exact h width.pixels (maxWidth?_eq_some_iff.2 ⟨width, hasks, rfl⟩)
  · intro h pixels hpixels
    obtain ⟨width, hasks, -⟩ := maxWidth?_eq_some_iff.1 hpixels
    exact h width hasks

theorem threshold?_eq_findSome? (condition : List Component) :
    threshold? condition = (featuresIn condition).findSome? maxWidth? := by
  induction condition with
  | nil => rfl
  | cons component condition ih =>
    unfold threshold? featuresIn at ih ⊢
    rw [List.findSome?_cons, ih, List.filterMap_cons]
    cases component.roundBody? with
    | none => rfl
    | some feature => rfl

/-- The threshold is the width in the first feature that asks for one. -/
theorem threshold?_eq_some_iff {condition : List Component} {pixels : Pixels} :
    threshold? condition = some pixels ↔ ∃ before feature after width,
      featuresIn condition = before ++ feature :: after ∧
      (∀ other ∈ before, ∀ otherWidth, ¬AsksForMaxWidth other otherWidth) ∧
      AsksForMaxWidth feature width ∧ width.pixels = pixels := by
  rw [threshold?_eq_findSome?, List.findSome?_eq_some_iff]
  simp only [maxWidth?_eq_none_iff, maxWidth?_eq_some_iff]
  constructor
  · rintro ⟨before, feature, after, hsplit, ⟨width, hasks, hpixels⟩, hbefore⟩
    exact ⟨before, feature, after, width, hsplit, hbefore, hasks, hpixels⟩
  · rintro ⟨before, feature, after, width, hsplit, hbefore, hasks, hpixels⟩
    exact ⟨before, feature, after, hsplit, ⟨width, hasks, hpixels⟩, hbefore⟩

theorem threshold?_eq_none_iff {condition : List Component} :
    threshold? condition = none ↔
      ∀ feature ∈ featuresIn condition, ∀ width, ¬AsksForMaxWidth feature width := by
  rw [threshold?_eq_findSome?, List.findSome?_eq_none_iff]
  simp only [maxWidth?_eq_none_iff]

/-! ## The keyword -/

/-- A keyword in front of the text ends there: the text does not go on with its name. -/
def EndsKeyword (text : List Char) : Prop :=
  ∀ c ∈ text.head?, isNameChar c = false ∧ c ≠ '\\'

theorem endsKeyword_cons {c : Char} (h : isSpace c ∨ c = '/' ∨ c = '(') (rest : List Char) :
    EndsKeyword (c :: rest) := by
  intro first hfirst
  obtain rfl := Option.some.inj hfirst
  rcases h with hspace | rfl | rfl
  · simp only [isSpace, isNewline, Bool.or_eq_true, beq_iff_eq, or_assoc] at hspace
    rcases hspace with rfl | rfl | rfl | rfl | rfl <;> decide
  · decide
  · decide

theorem EndsKeyword.append_block {text : List Char} (h : EndsKeyword text) (rest : List Char) :
    EndsKeyword (text ++ '\x7b' :: rest) := by
  cases text with
  | nil =>
    intro c hc
    obtain rfl := Option.some.inj hc
    decide
  | cons c text => exact h

/-- The keyword of a media rule. -/
def mediaKeyword : Lexeme :=
  ⟨.atKeyword ['m', 'e', 'd', 'i', 'a'], ['@', 'm', 'e', 'd', 'i', 'a']⟩

theorem components_append_mediaKeyword {text : List Char} (h : EndsKeyword text) :
    components (mediaKeyword.text ++ text) = .leaf mediaKeyword :: components text := by
  have hstuck : ∀ c ∈ text.head?,
      (State.name .atKeyword ['a', 'i', 'd', 'e', 'm'] none).step c = none := by
    intro c hc
    obtain ⟨hname, hbackslash⟩ := h c hc
    simp [State.step, State.stepName, hname, hbackslash]
  have hrun : State.start.run mediaKeyword.text =
      some (.name .atKeyword ['a', 'i', 'd', 'e', 'm'] none) := rfl
  rw [components, lexemes_append_of_stuck hrun rfl rfl hstuck,
    Component.ofLexemes_cons_of_leaf rfl]
  rfl

/-- A media rule in front of any text is one statement. -/
theorem rulesIn_mediaRule {condition body : List Char} (hcondition : IsHead condition)
    (hends : EndsKeyword condition) (hbody : IsBody body) (more : List Char) :
    Statement.rulesIn (components (mediaKeyword.text ++
        (condition ++ '\x7b' :: (body ++ '\x7d' :: more)))) =
      ⟨.leaf mediaKeyword :: components condition, some (.curly (components body))⟩ ::
        Statement.rulesIn (components more) := by
  have hcomponents := calc
    components (mediaKeyword.text ++ (condition ++ '\x7b' :: (body ++ '\x7d' :: more))) =
        .leaf mediaKeyword :: components (condition ++ '\x7b' :: (body ++ '\x7d' :: more)) :=
      components_append_mediaKeyword (hends.append_block _)
    _ = .leaf mediaKeyword :: components condition ++
        .curly (components body) :: components more := by
      rw [components_append_block hcondition.toIsClosed hbody, List.cons_append]
  rw [hcomponents]
  refine Statement.rulesIn_append_end ⟨rfl, rfl⟩ ?_ (.inr rfl) _
  intro component hmem
  rcases List.mem_cons.1 hmem with rfl | hmem
  · exact ⟨rfl, rfl⟩
  · exact hcondition.endsNoRule component hmem

end Css

namespace StyleSheet

theorem conditionals_addConditional_empty (maxWidth : Pixels) (rules : RuleSet) :
    (addConditional ∅ maxWidth rules).conditionals = [⟨maxWidth, rules⟩] := by
  have hmerged : (addConditional ∅ maxWidth rules).conditionals =
      [⟨maxWidth, (∅ : RuleSet).merge rules⟩] := rfl
  rw [hmerged, RuleSet.empty_merge]

theorem read_media {statement : Statement} {condition body : List Component}
    (hmedia : statement.mediaCondition? = some condition) (hbody : statement.body? = some body)
    (sheet : StyleSheet) :
    sheet.read statement =
      match threshold? condition with
      | some maxWidth => sheet.addConditional maxWidth (.ofComponents body)
      | none => sheet := by
  rw [read, hmedia, hbody]
  cases hthreshold : threshold? condition with
  | none => simp only [hthreshold]
  | some maxWidth => simp only [hthreshold]

/-- The sheet of one media rule is empty if there is no threshold, and has the rules of the body for
the threshold otherwise. -/
theorem parse_media (condition body : String) (hcondition : IsHead condition.toList)
    (hends : EndsKeyword condition.toList) (hbody : IsBody body.toList) :
    parse ("@media" ++ condition ++ "\x7b" ++ body ++ "\x7d") =
      match threshold? (components condition.toList) with
      | some maxWidth => addConditional ∅ maxWidth (RuleSet.parse body)
      | none => ∅ := by
  have hstatements := calc
    Statement.rulesIn (components ("@media" ++ condition ++ "\x7b" ++ body ++ "\x7d").toList) =
        Statement.rulesIn (components (mediaKeyword.text ++
          (condition.toList ++ '\x7b' :: (body.toList ++ '\x7d' :: [])))) := by
      simp [mediaKeyword]
    _ = [⟨.leaf mediaKeyword :: components condition.toList,
          some (.curly (components body.toList))⟩] :=
      rulesIn_mediaRule hcondition hends hbody []
  have hmedia : (Statement.mk (.leaf mediaKeyword :: components condition.toList)
      (some (.curly (components body.toList)))).mediaCondition? =
        some (components condition.toList) := rfl
  rw [parse, ofComponents, hstatements, List.foldl_cons, List.foldl_nil, read_media hmedia rfl]
  rfl

/-- The sheet of one media rule has no base rules. If a feature of the condition asks for a largest
width, the first one that does gives the only width for which there are rules, and these are the
rules of the body, read as a text of its own. If no feature does, the sheet is empty. -/
theorem parse_media_rule (condition body : String) (hcondition : IsHead condition.toList)
    (hends : EndsKeyword condition.toList) (hbody : IsBody body.toList) :
    (parse ("@media" ++ condition ++ "\x7b" ++ body ++ "\x7d")).base = ∅ ∧
      ((∃ before feature after width,
          featuresIn (components condition.toList) = before ++ feature :: after ∧
          (∀ other ∈ before, ∀ otherWidth, ¬AsksForMaxWidth other otherWidth) ∧
          AsksForMaxWidth feature width ∧
          (parse ("@media" ++ condition ++ "\x7b" ++ body ++ "\x7d")).conditionals =
            [⟨width.pixels, RuleSet.parse body⟩]) ∨
        (∀ feature ∈ featuresIn (components condition.toList), ∀ width,
          ¬AsksForMaxWidth feature width) ∧
        parse ("@media" ++ condition ++ "\x7b" ++ body ++ "\x7d") = ∅) := by
  rw [parse_media condition body hcondition hends hbody]
  cases hthreshold : threshold? (components condition.toList) with
  | none => exact ⟨rfl, .inr ⟨threshold?_eq_none_iff.1 hthreshold, rfl⟩⟩
  | some maxWidth =>
    obtain ⟨before, feature, after, width, hsplit, hbefore, hasks, rfl⟩ :=
      threshold?_eq_some_iff.1 hthreshold
    have hconditionals := conditionals_addConditional_empty width.pixels (RuleSet.parse body)
    exact ⟨rfl, .inl ⟨before, feature, after, width, hsplit, hbefore, hasks, hconditionals⟩⟩

/-- A condition with a group before the feature that asks for a width, and one rule as the body. -/
theorem parse_media_rule_max_width :
    IsHead " (a) and (MAX-WIDTH:9px)".toList ∧ EndsKeyword " (a) and (MAX-WIDTH:9px)".toList ∧
      IsBody "b{width:1px}".toList ∧
      (parse ("@media" ++ " (a) and (MAX-WIDTH:9px)" ++ "\x7b" ++ "b{width:1px}" ++ "\x7d")).base =
        ∅ ∧
      ((∃ before feature after width,
          featuresIn (components " (a) and (MAX-WIDTH:9px)".toList) = before ++ feature :: after ∧
          (∀ other ∈ before, ∀ otherWidth, ¬AsksForMaxWidth other otherWidth) ∧
          AsksForMaxWidth feature width ∧
          (parse ("@media" ++ " (a) and (MAX-WIDTH:9px)" ++ "\x7b" ++ "b{width:1px}" ++
              "\x7d")).conditionals =
            [⟨width.pixels, RuleSet.parse "b{width:1px}"⟩]) ∨
        (∀ feature ∈ featuresIn (components " (a) and (MAX-WIDTH:9px)".toList), ∀ width,
          ¬AsksForMaxWidth feature width) ∧
        parse ("@media" ++ " (a) and (MAX-WIDTH:9px)" ++ "\x7b" ++ "b{width:1px}" ++ "\x7d") =
          ∅) := by
  have hcondition : IsHead " (a) and (MAX-WIDTH:9px)".toList := ⟨⟨by decide, by decide⟩, by decide⟩
  have hends : EndsKeyword " (a) and (MAX-WIDTH:9px)".toList := endsKeyword_cons (.inl rfl) _
  have hbody : IsBody "b{width:1px}".toList := ⟨⟨by decide, by decide⟩, by decide⟩
  exact ⟨hcondition, hends, hbody, parse_media_rule _ _ hcondition hends hbody⟩

end StyleSheet

end TouchTarget
