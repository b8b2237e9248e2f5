import TouchTarget.Proofs.Rules.Clauses
import TouchTarget.Proofs.Rules.Omission

/-!
# The last semicolon of a block

A semicolon in front of the closing bracket of a rule parts nothing, so that the rule should be the
same without it. It is not if the last declaration ends with an escaped semicolon: without another
one behind it, that semicolon is taken for the end of the declaration and is lost. The main
statement says that nothing else makes a difference.
-/

namespace TouchTarget

open Text Css

/-- Trimming leaves the last character if it is not blank. -/
theorem Text.trim_concat {c : Char} (hc : isBlank c = false) (text : List Char) :
    trim (text ++ [c]) = trimStart text ++ [c] := by
  have hstart : trimStart (text ++ [c]) = trimStart text ++ [c] := by
    have hlast : [c].dropWhile isBlank = [c] := List.dropWhile_cons_of_neg (by simp [hc])
    rw [trimStart, List.dropWhile_append, hlast]
    split
    next hempty => rw [trimStart, List.isEmpty_iff.1 hempty, List.nil_append]
    next => rfl
  rw [trim, hstart, trimEnd, List.reverse_concat, trimStart,
    List.dropWhile_cons_of_neg (by simp [hc]), ← List.reverse_concat, List.reverse_reverse]

theorem Text.trim_concat_ne {c : Char} (hc : isBlank c = false) (text : List Char) :
    trim (text ++ [c]) ≠ trim text := by
  intro h
  have hlength := congrArg List.length h
  have htrim : (trim text).length ≤ (trimStart text).length := by
    have hend := (List.dropWhile_suffix (l := (trimStart text).reverse) isBlank).length_le
    rw [trim, trimEnd, List.length_reverse]
    rwa [List.length_reverse] at hend
  rw [trim_concat hc, List.length_append, List.length_singleton] at hlength
  omega

namespace Css

/-- The text of the clause that the end of a body ends. -/
def lastClause (body : List Char) : List Char :=
  clauseText ((clauses [] [] (lexemes body)).getLastD [])

/-- The last clause declares something and ends with a semicolon, although none ends it. -/
def LosesSemicolon (body : List Char) : Prop :=
  (∃ property value, Declares (lastClause body) property value) ∧
    (lastClause body).getLast? = some ';'

/-- What a text in front of a block has behind the fillers that it begins with. -/
def selectorText (head : List Char) : List Char :=
  trim (Component.text ((components head).dropWhile Component.isFiller))

/-- There is a selector, and it is no at-rule's. -/
def HasSelector (head : List Char) : Prop :=
  selectorText head ≠ [] ∧ (selectorText head).head? ≠ some '@'

instance (head : List Char) : Decidable (HasSelector head) :=
  inferInstanceAs (Decidable (_ ∧ _))

/-! ## Texts with a semicolon behind them -/

/-- In front of a semicolon nothing is taken away from a declaration. -/
theorem declares_concat_semicolon_iff {text : List Char} {property value : String} :
    Declares (text ++ [';']) property value ↔
      ∃ left right, text = left ++ ':' :: right ∧ ':' ∉ left ∧ trim left ≠ [] ∧
        property = .ofList (trim left) ∧ value = .ofList (trim right) := by
  have hstripped : ∀ stripped, IsWithoutSemicolon (text ++ [';']) stripped ↔ text = stripped := by
    intro stripped
    rw [isWithoutSemicolon_iff, if_pos List.getLast?_concat, List.dropLast_concat]
  unfold Declares
  simp only [hstripped]

theorem declares_concat_semicolon_congr {text : List Char} (h : text.getLast? ≠ some ';')
    {property value : String} :
    Declares (text ++ [';']) property value ↔ Declares text property value := by
  have hstripped : ∀ stripped, IsWithoutSemicolon text stripped ↔ text = stripped := by
    intro stripped
    rw [isWithoutSemicolon_iff, if_neg h]
  rw [declares_concat_semicolon_iff, Declares]
  simp only [hstripped]

theorem append_colon_of_concat_semicolon {front left right : List Char}
    (h : front ++ [';'] = left ++ ':' :: right) :
    ∃ value, right = value ++ [';'] ∧ front = left ++ ':' :: value := by
  rcases List.eq_nil_or_concat' right with rfl | ⟨value, last, rfl⟩
  · have hlast := congrArg List.getLast? h
    rw [List.getLast?_concat, List.getLast?_concat] at hlast
    cases hlast
  · rw [← List.cons_append, ← List.append_assoc] at h
    obtain ⟨rfl, hlast⟩ := List.append_inj' h rfl
    obtain rfl := List.head_eq_of_cons_eq hlast
    exact ⟨value, rfl, rfl⟩

/-- With two semicolons at its end, a text declares a value with one of them. -/
theorem declares_concat_semicolons_iff {front : List Char} {property value : String} :
    Declares (front ++ [';'] ++ [';']) property value ↔
      ∃ left right, front = left ++ ':' :: right ∧ ':' ∉ left ∧ trim left ≠ [] ∧
        property = .ofList (trim left) ∧ value = .ofList (trim (right ++ [';'])) := by
  rw [declares_concat_semicolon_iff]
  constructor
  · rintro ⟨left, right, hsplit, hleft, hname, rfl, rfl⟩
    obtain ⟨value, rfl, hfront⟩ := append_colon_of_concat_semicolon hsplit
    exact ⟨left, value, hfront, hleft, hname, rfl, rfl⟩
  · rintro ⟨left, right, rfl, hleft, hname, rfl, rfl⟩
    exact ⟨left, right ++ [';'], by rw [List.append_assoc, List.cons_append], hleft, hname, rfl,
      rfl⟩

/-! ## The last clause -/

theorem clauses_ne_nil (read : List Lexeme) (opened : List Bracket) (lexemes : List Lexeme) :
    clauses read opened lexemes ≠ [] := by
  induction lexemes generalizing read opened with
  | nil => exact List.cons_ne_nil read []
  | cons lexeme rest ih =>
    rw [clauses]
    split
    · exact List.cons_ne_nil _ _
    · exact ih _ _

/-- A semicolon behind closed lexemes ends their last clause. -/
theorem exists_clauses_concat (read : List Lexeme) {opened : List Bracket} {lexemes : List Lexeme}
    (h : nesting opened lexemes = []) :
    ∃ front last, clauses read opened lexemes = front ++ [last] ∧
      clauses read opened (lexemes ++ [⟨.semicolon, [';']⟩]) =
        front ++ [last ++ [⟨.semicolon, [';']⟩], []] := by
  induction lexemes generalizing read opened with
  | nil =>
    obtain rfl : opened = [] := h
    exact ⟨[], read, rfl, rfl⟩
  | cons lexeme rest ih =>
    rw [nesting_cons] at h
    by_cases hends : opened = [] ∧ lexeme.token = .semicolon
    · have hrest : nesting [] rest = [] := by
        rw [hends.1, hends.2] at h
        exact h
      obtain ⟨front, last, hclauses, hwith⟩ := ih [] hrest
      refine ⟨(read ++ [lexeme]) :: front, last, ?_, ?_⟩
      · rw [clauses, if_pos hends, hclauses, List.cons_append]
      · rw [List.cons_append, clauses, if_pos hends, hwith, List.cons_append]
    · obtain ⟨front, last, hclauses, hwith⟩ := ih (read ++ [lexeme]) h
      refine ⟨front, last, ?_, ?_⟩
      · rw [clauses, if_neg hends, hclauses]
      · rw [List.cons_append, clauses, if_neg hends, hwith]

/-- The last clause is the end of the lexemes, and no semicolon ends it. -/
theorem of_clauses_eq_concat {read : List Lexeme} {opened : List Bracket} {lexemes : List Lexeme}
    (hread : opened = [] → ∀ lexeme ∈ read.getLast?, lexeme.token ≠ .semicolon)
    (hnesting : nesting opened lexemes = []) {front : List (List Lexeme)} {last : List Lexeme}
    (h : clauses read opened lexemes = front ++ [last]) :
    last <:+ read ++ lexemes ∧ ∀ lexeme ∈ last.getLast?, lexeme.token ≠ .semicolon := by
  induction lexemes generalizing read opened front with
  | nil =>
    obtain ⟨-, hlast⟩ := List.append_inj' (h.symm.trans (List.nil_append [read]).symm) rfl
    obtain rfl := List.head_eq_of_cons_eq hlast
    rw [List.append_nil]
    exact ⟨List.suffix_rfl, hread hnesting⟩
  | cons lexeme rest ih =>
    rw [nesting_cons] at hnesting
    rw [List.append_cons]
    by_cases hends : opened = [] ∧ lexeme.token = .semicolon
    · rw [hends.1, hends.2] at hnesting
      rw [clauses, if_pos hends] at h
      cases front with
      | nil => exact absurd (List.tail_eq_of_cons_eq h) (clauses_ne_nil [] [] rest)
      | cons first front =>
        obtain ⟨hsuffix, htoken⟩ := ih (fun _ _ hmem ↦ (Option.not_mem_none _ hmem).elim) hnesting
          (List.tail_eq_of_cons_eq h)
        exact ⟨List.suffix_append_of_suffix hsuffix, htoken⟩
    · rw [clauses, if_neg hends] at h
      apply ih _ hnesting h
      intro hnil other hother
      obtain rfl : lexeme = other := by simpa using hother
      intro htoken
      rw [htoken] at hnil
      exact hends ⟨hnil, htoken⟩

/-- The lexemes of a closed text with a semicolon behind it. -/
theorem IsClosed.lexemes_concat_semicolon {text : List Char} (h : IsClosed text) :
    lexemes (text ++ [';']) = lexemes text ++ [⟨.semicolon, [';']⟩] := by
  have hsemicolon : State.stepStart ';' = .done .semicolon := rfl
  rw [lexemes_append_delimiter h.endsBetweenLexemes rfl, lexemes_cons_done hsemicolon,
    lexemes_nil]

theorem clauseText_concat_semicolon (clause : List Lexeme) :
    clauseText (clause ++ [⟨.semicolon, [';']⟩]) = clauseText clause ++ [';'] := by
  rw [clauseText, clauseText, significant_append]
  split
  next hnil =>
    rw [hnil]
    rfl
  next => rw [Lexeme.joined_append, Lexeme.joined_cons, Lexeme.joined_nil, List.append_nil]

/-- Only a semicolon that is escaped can be lost. -/
theorem LosesSemicolon.escaped {body : List Char} (hbody : IsClosed body)
    (h : LosesSemicolon body) : ['\\', ';'] <:+ body := by
  have hnesting := Component.nesting_of_closesAll hbody.closesAll
  obtain ⟨front, last, hclauses, -⟩ := exists_clauses_concat [] hnesting
  obtain ⟨hlast, hends⟩ := of_clauses_eq_concat
    (fun _ _ hmem ↦ (Option.not_mem_none _ hmem).elim) hnesting hclauses
  have htext := h.2
  rw [lastClause, hclauses, List.getLastD_concat, clauseText] at htext
  have hsignificant : significant last <:+ last := List.dropWhile_suffix _
  rcases List.eq_nil_or_concat' (significant last) with hnil | ⟨before, lexeme, hconcat⟩
  · rw [hnil] at htext
    cases htext
  · rw [hconcat] at hsignificant htext
    obtain ⟨earlier, hlexemes⟩ := hsignificant.trans hlast
    rw [List.nil_append, ← List.append_assoc] at hlexemes
    have hmem : lexeme ∈ lexemes body := by
      rw [← hlexemes]
      exact List.mem_append_right _ List.mem_cons_self
    have hinside : lexeme.endsInside = false := by
      apply hbody.endsBetweenLexemes
      rw [← hlexemes, Option.mem_def, List.getLast?_concat]
    have htoken : lexeme.token ≠ .semicolon := by
      obtain ⟨fillers, hfillers⟩ := hsignificant
      apply hends
      rw [← hfillers, ← List.append_assoc, Option.mem_def, List.getLast?_concat]
    have hspelling : lexeme.text.getLast? = some ';' := by
      obtain ⟨c, rest, -, hcons, -⟩ := Lexeme.exists_run_of_mem hmem
      rw [Lexeme.joined_append, Lexeme.joined_cons, Lexeme.joined_nil, List.append_nil] at htext
      rwa [List.getLast?_append_of_ne_nil _ (hcons ▸ List.cons_ne_nil c rest)] at htext
    have hescaped := (Lexeme.eq_semicolon_or_escaped hmem hinside hspelling).resolve_left htoken
    have hbodyText : body = Lexeme.joined (earlier ++ before) ++ lexeme.text := by
      rw [← joined_lexemes body, ← hlexemes, Lexeme.joined_append, Lexeme.joined_cons,
        Lexeme.joined_nil, List.append_nil]
    rw [hbodyText]
    exact List.suffix_append_of_suffix hescaped

end Css

namespace Declarations

/-- The last clause of a closed text adds one declaration at most, with a semicolon behind it or
without. -/
theorem exists_entries {body : List Char} (hbody : IsClosed body) :
    ∃ (entries : List (String × String)) (alone? ended? : Option (String × String)),
      (∀ property value, alone? = some (property, value) ↔
        Declares (lastClause body) property value) ∧
      (∀ property value, ended? = some (property, value) ↔
        Declares (lastClause body ++ [';']) property value) ∧
      ofComponents (components body) = .ofList (entries ++ alone?.toList) ∧
      ofComponents (components (body ++ [';'])) = .ofList (entries ++ ended?.toList) := by
  obtain ⟨front, last, hclauses, hended⟩ :=
    exists_clauses_concat [] (Component.nesting_of_closesAll hbody.closesAll)
  have hlast : lastClause body = clauseText last := by
    rw [lastClause, hclauses, List.getLastD_concat]
  have hsilent : (clauseStatement []).declaration? = none := rfl
  refine ⟨front.filterMap fun clause ↦ (clauseStatement clause).declaration?,
    (clauseStatement last).declaration?,
    (clauseStatement (last ++ [⟨.semicolon, [';']⟩])).declaration?, ?_, ?_, ?_, ?_⟩
  · intro property value
    rw [declaration?_clauseStatement, hlast]
  · intro property value
    rw [declaration?_clauseStatement, hlast, clauseText_concat_semicolon]
  · rw [ofComponents_components, hclauses, List.filterMap_append, List.filterMap_cons]
    cases (clauseStatement last).declaration? <;> rfl
  · rw [ofComponents_components, hbody.lexemes_concat_semicolon, hended, List.filterMap_append,
      List.filterMap_cons, List.filterMap_cons, hsilent]
    cases (clauseStatement (last ++ [⟨.semicolon, [';']⟩])).declaration? <;> rfl

/-- What the last clause declares counts. -/
theorem getElem?_of_declares {body : List Char} (hbody : IsClosed body) {property value : String} :
    (Declares (lastClause body) property value →
      (ofComponents (components body))[property]? = some value) ∧
    (Declares (lastClause body ++ [';']) property value →
      (ofComponents (components (body ++ [';'])))[property]? = some value) := by
  obtain ⟨entries, alone?, ended?, halone, hended, hbodyEntries, hendedEntries⟩ :=
    exists_entries hbody
  constructor
  · intro hdeclares
    rw [hbodyEntries, getElem?_ofList_eq_some_iff, (halone ..).2 hdeclares]
    exact ⟨entries, [], rfl, List.forall_mem_nil _⟩
  · intro hdeclares
    rw [hendedEntries, getElem?_ofList_eq_some_iff, (hended ..).2 hdeclares]
    exact ⟨entries, [], rfl, List.forall_mem_nil _⟩

/-- A semicolon behind a closed body changes its declarations only if one is lost without it. -/
theorem ofComponents_concat_semicolon_iff {body : List Char} (hbody : IsClosed body) :
    ofComponents (components body) = ofComponents (components (body ++ [';'])) ↔
      ¬LosesSemicolon body := by
  constructor
  · rintro heq ⟨⟨property, value, hdeclares⟩, hlast⟩
    obtain ⟨front, hfront⟩ := List.getLast?_eq_some_iff.1 hlast
    have halone := (getElem?_of_declares hbody).1 hdeclares
    rw [hfront, declares_concat_semicolon_iff] at hdeclares
    obtain ⟨left, right, hsplit, hleft, hname, rfl, rfl⟩ := hdeclares
    have hended := (getElem?_of_declares hbody).2 <| by
      rw [hfront]
      exact declares_concat_semicolons_iff.2 ⟨left, right, hsplit, hleft, hname, rfl, rfl⟩
    rw [← heq, halone] at hended
    have hvalue := String.ofList_injective (Option.some.inj hended)
    exact Text.trim_concat_ne rfl right hvalue.symm
  · intro hkeeps
    obtain ⟨entries, alone?, ended?, halone, hended, hbodyEntries, hendedEntries⟩ :=
      exists_entries hbody
    have hsame : alone? = ended? := by
      apply Option.ext
      rintro ⟨property, value⟩
      rw [halone, hended]
      by_cases hlast : (lastClause body).getLast? = some ';'
      · have hsilent : ∀ value, ¬Declares (lastClause body) property value :=
          fun value hdeclares ↦ hkeeps ⟨⟨property, value, hdeclares⟩, hlast⟩
        refine iff_of_false (hsilent value) ?_
        obtain ⟨front, hfront⟩ := List.getLast?_eq_some_iff.1 hlast
        rw [hfront] at hsilent ⊢
        rw [declares_concat_semicolons_iff]
        rintro ⟨left, right, hsplit, hleft, hname, rfl, -⟩
        exact hsilent _ (declares_concat_semicolon_iff.2
          ⟨left, right, hsplit, hleft, hname, rfl, rfl⟩)
      · exact (declares_concat_semicolon_congr hlast).symm
    rw [hbodyEntries, hendedEntries, hsame]

/-- The value of the last declaration is its text up to a semicolon behind the body. Without that
semicolon it is its text as well, unless the text itself ends with one. -/
theorem getElem?_of_lastClause {body left right : List Char} (hbody : IsClosed body)
    (hsplit : lastClause body = left ++ ':' :: right) (hleft : ':' ∉ left)
    (hname : trim left ≠ []) :
    (ofComponents (components (body ++ [';'])))[String.ofList (trim left)]? =
        some (.ofList (trim right)) ∧
      ((ofComponents (components body))[String.ofList (trim left)]? =
        some (.ofList (trim right)) ↔ right.getLast? ≠ some ';') := by
  have hended : Declares (lastClause body ++ [';']) (.ofList (trim left)) (.ofList (trim right)) :=
    declares_concat_semicolon_iff.2 ⟨left, right, hsplit, hleft, hname, rfl, rfl⟩
  refine ⟨(getElem?_of_declares hbody).2 hended, ?_⟩
  by_cases hlast : (lastClause body).getLast? = some ';'
  · obtain ⟨front, hfront⟩ := List.getLast?_eq_some_iff.1 hlast
    obtain ⟨value, rfl, hcut⟩ := append_colon_of_concat_semicolon (hfront.symm.trans hsplit)
    have halone : Declares (lastClause body) (.ofList (trim left)) (.ofList (trim value)) := by
      rw [hfront, declares_concat_semicolon_iff]
      exact ⟨left, value, hcut, hleft, hname, rfl, rfl⟩
    rw [(getElem?_of_declares hbody).1 halone, List.getLast?_concat]
    refine iff_of_false ?_ (fun hne ↦ hne rfl)
    intro heq
    exact Text.trim_concat_ne rfl value (String.ofList_injective (Option.some.inj heq)).symm
  · have halone := (getElem?_of_declares hbody).1 ((declares_concat_semicolon_congr hlast).1 hended)
    refine iff_of_true halone ?_
    intro hright
    obtain ⟨value, rfl⟩ := List.getLast?_eq_some_iff.1 hright
    apply hlast
    rw [hsplit, ← List.cons_append, ← List.append_assoc, List.getLast?_concat]

end Declarations

/-! ## A text that is one rule -/

namespace Css

theorem trim_dropWhile_isSpace (text : List Char) : trim (text.dropWhile isSpace) = trim text := by
  have hstart : trimStart (text.dropWhile isSpace) = trimStart text := by
    induction text with
    | nil => rfl
    | cons c text ih =>
      by_cases hc : isSpace c
      · rw [List.dropWhile_cons_of_pos hc, ih, trimStart, trimStart,
          List.dropWhile_cons_of_pos (isBlank_of_isSpace hc)]
      · rw [List.dropWhile_cons_of_neg hc]
  rw [trim, trim, hstart]

theorem selectorText_dropWhile_isSpace (head : List Char) :
    selectorText (head.dropWhile isSpace) = selectorText head := by
  cases head with
  | nil => rfl
  | cons c head =>
    by_cases hc : isSpace c
    · have hblank : (Component.leaf ⟨.blank, c :: head.takeWhile isSpace⟩).isFiller := rfl
      rw [List.dropWhile_cons_of_pos hc, selectorText, selectorText, components.eq_def (c :: head),
        lexemes_cons_space hc, Component.ofLexemes_cons_of_leaf rfl,
        List.dropWhile_cons_of_pos hblank, components]
    · rw [List.dropWhile_cons_of_neg hc]

/-- If no filler stands behind its spaces, the whole head is the selector. -/
theorem selectorText_eq_trim {head : List Char}
    (h : ∀ lexeme ∈ (lexemes (head.dropWhile isSpace)).head?, lexeme.token.isFiller = false) :
    selectorText head = trim head := by
  rw [← selectorText_dropWhile_isSpace, ← trim_dropWhile_isSpace]
  have hfirst : ∀ component ∈ (components (head.dropWhile isSpace)).head?,
      ¬component.isFiller := by
    cases hlexemes : lexemes (head.dropWhile isSpace) with
    | nil =>
      rw [components, hlexemes]
      intro component hmem
      cases hmem
    | cons lexeme rest =>
      rw [hlexemes] at h
      have hfiller := h lexeme rfl
      rw [components, hlexemes]
      intro component hmem
      cases hopens : lexeme.token.opens? with
      | none =>
        rw [Component.ofLexemes_cons_of_leaf hopens] at hmem
        obtain rfl := Option.some.inj hmem
        rw [Component.isFiller_leaf, hfiller]
        exact Bool.false_ne_true
      | some bracket =>
        rw [Component.ofLexemes_cons_of_opens hopens] at hmem
        obtain rfl := Option.some.inj hmem
        exact Bool.false_ne_true
  have hdrop : (components (head.dropWhile isSpace)).dropWhile Component.isFiller =
      components (head.dropWhile isSpace) := by
    cases hcomponents : components (head.dropWhile isSpace) with
    | nil => rfl
    | cons component rest =>
      rw [hcomponents] at hfirst
      exact List.dropWhile_cons_of_neg (hfirst component rfl)
  rw [selectorText, hdrop, Component.text_components]

/-- A body is still one with a semicolon behind it. -/
theorem IsBody.concat_semicolon {body : List Char} (h : IsBody body) : IsBody (body ++ [';']) where
  endsBetweenLexemes := by
    intro lexeme hmem
    rw [h.lexemes_concat_semicolon, Option.mem_def, List.getLast?_concat] at hmem
    obtain rfl := Option.some.inj hmem
    exact Lexeme.endsInside_delimiter (c := ';') rfl rfl
  closesAll := by
    rw [h.lexemes_concat_semicolon, Component.closesAll_append h.closesAll]
    exact Component.closesAll_singleton rfl
  endsNoBlock := by
    rw [components_append_semicolon h.toIsClosed]
    intro component hmem
    rcases List.mem_append.1 hmem with hbody | hsemicolon
    · exact h.endsNoBlock component hbody
    · obtain rfl := List.mem_singleton.1 hsemicolon
      exact nofun

/-- What is in front of a block belongs to its rule, without the fillers in front. -/
theorem Statement.rulesIn_concat_curly {head : List Component}
    (h : ∀ component ∈ head, component.isSemicolon = false ∧ component.curlyBody? = none)
    (body : List Component) :
    rulesIn (head ++ [.curly body]) =
      [⟨head.dropWhile Component.isFiller, some (.curly body)⟩] := by
  induction head with
  | nil => rfl
  | cons component head ih =>
    by_cases hfiller : component.isFiller
    · have hrest := ih fun other hother ↦ h other (List.mem_cons_of_mem _ hother)
      rw [List.dropWhile_cons_of_pos hfiller, ← hrest]
      exact split_cons_of_skips hfiller _
    · have hfirst : component.isTrivia = false ∧ isStray component = false := by
        simpa [Component.isFiller] using hfiller
      rw [List.dropWhile_cons_of_neg hfiller]
      exact rulesIn_append_end hfirst h (.inr rfl) []

end Css

namespace RuleSet

/-- The rules of a head and a body are one rule, unless the head has no selector. -/
theorem parse_block {head body : String} (hhead : IsHead head.toList) (hbody : IsBody body.toList) :
    parse (head ++ "\x7b" ++ body ++ "\x7d") =
      if HasSelector head.toList then
        (∅ : RuleSet).insert (.ofList (selectorText head.toList))
          (.ofComponents (components body.toList))
      else ∅ := by
  have hcomponents : components (head ++ "\x7b" ++ body ++ "\x7d").toList =
      components head.toList ++ [.curly (components body.toList)] := by
    have hblock := components_append_block hhead.toIsClosed hbody []
    have hnil : components [] = [] := rfl
    simpa [hnil] using hblock
  rw [parse, ofComponents, hcomponents, Statement.rulesIn_concat_curly hhead.endsNoRule,
    List.filterMap_cons, Statement.rule?_of_body?_eq_some rfl, Statement.headText, ← selectorText]
  by_cases hnone : selectorText head.toList = [] ∨ (selectorText head.toList).head? = some '@'
  · rw [if_pos hnone, if_neg fun hselector : HasSelector _ ↦ hnone.elim hselector.1 hselector.2]
    rfl
  · have hselector : HasSelector head.toList := not_or.1 hnone
    rw [if_neg hnone, if_pos hselector]
    rfl

theorem insert_empty_inj {selector : String} {declarations others : Declarations} :
    (∅ : RuleSet).insert selector declarations = (∅ : RuleSet).insert selector others ↔
      declarations = others := by
  constructor
  · intro h
    have hget := congrArg (·.get? selector) h
    simpa [Declarations.empty_union] using hget
  · rintro rfl
    rfl

/-- The value that the declarations at a selector give a property. -/
def valueOf? (rules : RuleSet) (selector property : String) : Option String :=
  (rules.get? selector).bind (·[property]?)

theorem valueOf?_insert_empty (selector property : String) (declarations : Declarations) :
    ((∅ : RuleSet).insert selector declarations).valueOf? selector property =
      declarations[property]? := by
  rw [valueOf?, get?_insert_self, get?_empty, Option.getD_none, Declarations.empty_union,
    Option.bind_some]

/-- A semicolon in front of the bracket that closes a rule makes no difference, unless the rule has
a selector and its last declaration loses a semicolon without it. Only a semicolon that is escaped
is lost. With the semicolon the value of the last declaration is its whole text, and so it is
without it exactly if that text does not end with a semicolon itself. The selector is the trimmed
text in front of the block, unless that begins with a filler. -/
theorem parse_block_concat_semicolon (selector body : String) (hselector : IsHead selector.toList)
    (hbody : IsBody body.toList) :
    (parse (selector ++ "\x7b" ++ body ++ "\x7d") =
        parse (selector ++ "\x7b" ++ (body ++ ";") ++ "\x7d") ↔
      ¬(HasSelector selector.toList ∧ LosesSemicolon body.toList)) ∧
    (LosesSemicolon body.toList → ['\\', ';'] <:+ body.toList) ∧
    (HasSelector selector.toList → ∀ left right, lastClause body.toList = left ++ ':' :: right →
      ':' ∉ left → trim left ≠ [] →
      (parse (selector ++ "\x7b" ++ (body ++ ";") ++ "\x7d")).valueOf?
          (.ofList (selectorText selector.toList)) (.ofList (trim left)) =
        some (.ofList (trim right)) ∧
      ((parse (selector ++ "\x7b" ++ body ++ "\x7d")).valueOf?
          (.ofList (selectorText selector.toList)) (.ofList (trim left)) =
        some (.ofList (trim right)) ↔ right.getLast? ≠ some ';')) ∧
    ((∀ lexeme ∈ (lexemes (selector.toList.dropWhile isSpace)).head?,
        lexeme.token.isFiller = false) →
      selectorText selector.toList = trim selector.toList) := by
  have htext : (body ++ ";").toList = body.toList ++ [';'] := String.toList_append
  have hended : IsBody (body ++ ";").toList := htext ▸ hbody.concat_semicolon
  rw [parse_block hselector hbody, parse_block hselector hended, htext]
  refine ⟨?_, LosesSemicolon.escaped hbody.toIsClosed, ?_, selectorText_eq_trim⟩
  · by_cases hhas : HasSelector selector.toList
    · rw [if_pos hhas, if_pos hhas, insert_empty_inj,
        Declarations.ofComponents_concat_semicolon_iff hbody.toIsClosed, and_iff_right hhas]
    · rw [if_neg hhas, if_neg hhas]
      exact iff_of_true rfl fun hloses ↦ hhas hloses.1
  · intro hhas left right hsplit hleft hname
    rw [if_pos hhas, if_pos hhas, valueOf?_insert_empty, valueOf?_insert_empty]
    exact Declarations.getElem?_of_lastClause hbody.toIsClosed hsplit hleft hname

/-- A string keeps its semicolon. -/
theorem parse_block_keeps_semicolon :
    IsHead "a".toList ∧ IsBody "b:1;c:';'".toList ∧
      parse ("a" ++ "\x7b" ++ "b:1;c:';'" ++ "\x7d") =
        parse ("a" ++ "\x7b" ++ ("b:1;c:';'" ++ ";") ++ "\x7d") ∧
      (parse ("a" ++ "\x7b" ++ "b:1;c:';'" ++ "\x7d")).valueOf? "a" "c" = some "';'" := by
  have hselector : IsHead "a".toList := ⟨⟨by decide, by decide⟩, by decide⟩
  have hbody : IsBody "b:1;c:';'".toList := ⟨⟨by decide, by decide⟩, by decide⟩
  obtain ⟨hsame, -, hvalue, -⟩ := parse_block_concat_semicolon "a" "b:1;c:';'" hselector hbody
  have hkeeps : ¬LosesSemicolon "b:1;c:';'".toList := fun hloses ↦ absurd hloses.2 (by decide)
  have hlast : lastClause "b:1;c:';'".toList = "c".toList ++ ':' :: "';'".toList := by decide
  have hquoted := (hvalue (by decide) _ _ hlast (by decide) (by decide)).2
  exact ⟨hselector, hbody, hsame.2 fun hloses ↦ hkeeps hloses.2, hquoted.2 (by decide)⟩

/-- The semicolon of an escape is lost. -/
theorem parse_block_loses_semicolon :
    IsHead "a".toList ∧ IsBody "x:\\;".toList ∧
      (parse ("a" ++ "\x7b" ++ "x:\\;" ++ "\x7d")).valueOf? "a" "x" = some "\\" ∧
      (parse ("a" ++ "\x7b" ++ ("x:\\;" ++ ";") ++ "\x7d")).valueOf? "a" "x" = some "\\;" ∧
      parse ("a" ++ "\x7b" ++ "x:\\;" ++ "\x7d") ≠
        parse ("a" ++ "\x7b" ++ ("x:\\;" ++ ";") ++ "\x7d") := by
  have hselector : IsHead "a".toList := ⟨⟨by decide, by decide⟩, by decide⟩
  have hbody : IsBody "x:\\;".toList := ⟨⟨by decide, by decide⟩, by decide⟩
  have hlost : (parse ("a" ++ "\x7b" ++ "x:\\;" ++ "\x7d")).valueOf? "a" "x" = some "\\" := by
    decide +kernel
  have hkept : (parse ("a" ++ "\x7b" ++ ("x:\\;" ++ ";") ++ "\x7d")).valueOf? "a" "x" =
      some "\\;" := by decide +kernel
  refine ⟨hselector, hbody, hlost, hkept, ?_⟩
  intro hsame
  rw [hsame, hkept] at hlost
  exact absurd hlost (by decide)

end RuleSet

end TouchTarget
