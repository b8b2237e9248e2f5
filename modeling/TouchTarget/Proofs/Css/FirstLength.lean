import TouchTarget.Css.Length
import TouchTarget.Proofs.Css.Depth

/-!
# The first length of a value

A length in pixels counts unless a curly bracket is open in front of it. This can be told from the
lexemes in front of it alone, without building any tree: they say which brackets are open. The main
statement says that the length of a value is the first one that counts, however deep it stands in
functions and in round and square brackets, and whatever is left open or closes nothing.
-/

namespace TouchTarget.Css

open Text

/-- Behind `before` the lexemes go on with a dimension in pixels, in any letter case of its unit,
and no curly bracket is open there. -/
structure IsLengthBehind (opened : List Bracket) (lexemes before : List Lexeme) (width : Numeral) :
    Prop where
  goesOn : ∃ unit spelling after, lexemes = before ++ ⟨.dimension width unit, spelling⟩ :: after ∧
    sameLetters unit ['p', 'x']
  curly_notMem : .curly ∉ nesting opened before

/-- The first length outside curly brackets. -/
def firstLength (opened : List Bracket) : List Lexeme → Option Pixels
  | [] => none
  | lexeme :: rest =>
    (if .curly ∈ opened then none else lexeme.token.pixels?).or
      (firstLength (lexeme.token.nest opened) rest)

@[simp] theorem firstLength_nil (opened : List Bracket) : firstLength opened [] = none := rfl

theorem firstLength_cons (opened : List Bracket) (lexeme : Lexeme) (rest : List Lexeme) :
    firstLength opened (lexeme :: rest) =
      (if .curly ∈ opened then none else lexeme.token.pixels?).or
        (firstLength (lexeme.token.nest opened) rest) := rfl

/-! ## Lengths and the blocks around them -/

theorem Token.pixels?_of_opens {token : Token} {bracket : Bracket}
    (h : token.opens? = some bracket) : token.pixels? = none := by
  cases token <;> cases h <;> rfl

theorem Token.pixels?_of_closes {token : Token} {bracket : Bracket}
    (h : token.closes? = some bracket) : token.pixels? = none := by
  cases token <;> cases h
  rfl

/-- Inside a block lengths are looked for as if it stood alone, unless it is one in curly brackets,
and behind the block the search begins anew. -/
theorem firstLength_enclosed (opened : List Bracket) (bracket : Bracket) (lexemes : List Lexeme) :
    firstLength (opened ++ [bracket]) lexemes =
      (if bracket = .curly then none
        else firstLength opened (enclosed (opened ++ [bracket]) lexemes).inside).or
          (firstLength [] (enclosed (opened ++ [bracket]) lexemes).after) := by
  induction lexemes generalizing opened with
  | nil => cases bracket <;> rfl
  | cons lexeme rest ih =>
    by_cases hnil : lexeme.token.nest (opened ++ [bracket]) = []
    · have hpixels := Token.pixels?_of_closes (Token.closes?_of_nest_eq_nil hnil).2
      rw [enclosed_cons_of_nest_eq_nil hnil, firstLength_cons, hpixels, hnil, firstLength_nil,
        ite_self, ite_self]
    · rw [enclosed_cons_of_nest_ne_nil hnil, firstLength_cons, Token.nest_concat hnil,
        ih (lexeme.token.nest opened), firstLength_cons]
      by_cases hcurly : bracket = .curly
      · simp [hcurly]
      · simp [hcurly, Ne.symm hcurly, Option.or_assoc]

/-- The search through the components finds what one pass over the lexemes finds. -/
theorem Component.lengthIn?_ofLexemes (lexemes : List Lexeme) :
    lengthIn? (ofLexemes lexemes) = firstLength [] lexemes := by
  induction lexemes using Component.induction_on_blocks with
  | nil => rfl
  | leaf lexeme rest hopens ih =>
    rw [ofLexemes_cons_of_leaf hopens, lengthIn?, length?, ih, firstLength_cons,
      Token.nest_nil_of_leaf hopens, if_neg List.not_mem_nil]
  | block opener bracket rest hopens ihInside ihAfter =>
    have hlength := firstLength_enclosed [] bracket rest
    rw [List.nil_append] at hlength
    rw [ofLexemes_cons_of_opens hopens, lengthIn?, length?, ihInside, ihAfter, firstLength_cons,
      Token.nest_of_opens hopens, Token.pixels?_of_opens hopens, hlength]
    simp only [Token.eq_opener_curly_iff hopens, ite_self, Option.none_or]

/-! ## Comments and spaces around a value -/

theorem firstLength_cons_of_isTrivia {lexeme : Lexeme} (h : lexeme.token.isTrivia)
    (opened : List Bracket) (rest : List Lexeme) :
    firstLength opened (lexeme :: rest) = firstLength opened rest := by
  have htoken : lexeme.token.pixels? = none ∧ lexeme.token.nest opened = opened := by
    cases htoken : lexeme.token <;> rw [htoken] at h <;> first | exact ⟨rfl, rfl⟩ | cases h
  rw [firstLength_cons, htoken.1, htoken.2, ite_self, Option.none_or]

theorem firstLength_trivia_append {trivia : List Lexeme}
    (h : ∀ lexeme ∈ trivia, lexeme.token.isTrivia) (opened : List Bracket)
    (lexemes : List Lexeme) :
    firstLength opened (trivia ++ lexemes) = firstLength opened lexemes := by
  induction trivia with
  | nil => rfl
  | cons first trivia ih =>
    rw [List.forall_mem_cons] at h
    rw [List.cons_append, firstLength_cons_of_isTrivia h.1, ih h.2]

theorem firstLength_append_trivia {trivia : List Lexeme}
    (h : ∀ lexeme ∈ trivia, lexeme.token.isTrivia) (opened : List Bracket)
    (lexemes : List Lexeme) :
    firstLength opened (lexemes ++ trivia) = firstLength opened lexemes := by
  induction lexemes generalizing opened with
  | nil =>
    have hall := firstLength_trivia_append h opened []
    rw [List.append_nil] at hall
    exact hall
  | cons lexeme lexemes ih => rw [List.cons_append, firstLength_cons, ih, firstLength_cons]

/-! ## Where the first length stands -/

theorem isLengthBehind_cons_iff {opened : List Bracket} {lexeme : Lexeme}
    {rest before : List Lexeme} {width : Numeral} :
    IsLengthBehind opened (lexeme :: rest) before width ↔
      (before = [] ∧ .curly ∉ opened ∧
        ∃ unit, lexeme.token = .dimension width unit ∧ sameLetters unit ['p', 'x']) ∨
      ∃ earlier, before = lexeme :: earlier ∧
        IsLengthBehind (lexeme.token.nest opened) rest earlier width := by
  constructor
  · rintro ⟨⟨unit, spelling, after, hsplit, hunit⟩, hcurly⟩
    cases before with
    | nil =>
      obtain ⟨rfl, -⟩ := List.cons.inj hsplit
      exact .inl ⟨rfl, hcurly, unit, rfl, hunit⟩
    | cons first before =>
      obtain ⟨rfl, hrest⟩ := List.cons.inj hsplit
      exact .inr ⟨before, rfl, ⟨unit, spelling, after, hrest, hunit⟩, hcurly⟩
  · rintro (⟨rfl, hcurly, unit, htoken, hunit⟩ | ⟨earlier, rfl, hlength⟩)
    · obtain ⟨token, spelling⟩ := lexeme
      obtain rfl : token = .dimension width unit := htoken
      exact ⟨⟨unit, spelling, rest, rfl, hunit⟩, hcurly⟩
    · obtain ⟨unit, spelling, after, hrest, hunit⟩ := hlength.goesOn
      exact ⟨⟨unit, spelling, after, by rw [hrest, List.cons_append], hunit⟩,
        hlength.curly_notMem⟩

theorem not_isLengthBehind_of_firstLength {opened : List Bracket} {lexemes : List Lexeme}
    (h : firstLength opened lexemes = none) (before : List Lexeme) (width : Numeral) :
    ¬IsLengthBehind opened lexemes before width := by
  induction lexemes generalizing opened before with
  | nil =>
    rintro ⟨⟨unit, spelling, after, hsplit, -⟩, -⟩
    simp at hsplit
  | cons lexeme rest ih =>
    rw [firstLength_cons, Option.or_eq_none_iff] at h
    obtain ⟨hhere, hrest⟩ := h
    rw [isLengthBehind_cons_iff]
    rintro (⟨rfl, hcurly, unit, htoken, hunit⟩ | ⟨earlier, rfl, hlength⟩)
    · have hpixels := Token.pixels?_eq_some_iff.2 ⟨width, unit, htoken, hunit, rfl⟩
      rw [if_neg hcurly, hpixels] at hhere
      cases hhere
    · exact ih hrest earlier hlength

theorem exists_isLengthBehind_of_firstLength {opened : List Bracket} {lexemes : List Lexeme}
    {pixels : Pixels} (h : firstLength opened lexemes = some pixels) :
    ∃ before width, IsLengthBehind opened lexemes before width ∧ width.pixels = pixels ∧
      ∀ earlier other, IsLengthBehind opened lexemes earlier other →
        before.length ≤ earlier.length := by
  induction lexemes generalizing opened with
  | nil => cases h
  | cons lexeme rest ih =>
    rw [firstLength_cons, Option.or_eq_some_iff] at h
    rcases h with hhere | ⟨hnone, hrest⟩
    · split at hhere
      next => cases hhere
      next hcurly =>
        obtain ⟨width, unit, htoken, hunit, hpixels⟩ := Token.pixels?_eq_some_iff.1 hhere
        have hlength : IsLengthBehind opened (lexeme :: rest) [] width :=
          isLengthBehind_cons_iff.2 (.inl ⟨rfl, hcurly, unit, htoken, hunit⟩)
        exact ⟨[], width, hlength, hpixels, fun _ _ _ ↦ Nat.zero_le _⟩
    · obtain ⟨before, width, hlength, hpixels, hfirst⟩ := ih hrest
      have hcons : IsLengthBehind opened (lexeme :: rest) (lexeme :: before) width :=
        isLengthBehind_cons_iff.2 (.inr ⟨before, rfl, hlength⟩)
      refine ⟨lexeme :: before, width, hcons, hpixels, ?_⟩
      intro earlier other hearlier
      rcases isLengthBehind_cons_iff.1 hearlier with
        ⟨-, hcurly, unit, htoken, hunit⟩ | ⟨behind, rfl, hbehind⟩
      · have hsome := Token.pixels?_eq_some_iff.2 ⟨other, unit, htoken, hunit, rfl⟩
        rw [if_neg hcurly, hsome] at hnone
        cases hnone
      · exact Nat.succ_le_succ (hfirst behind other hbehind)

/-- There is one length at most behind as many lexemes. -/
theorem IsLengthBehind.width_eq {opened : List Bracket} {lexemes before earlier : List Lexeme}
    {width other : Numeral} (h : IsLengthBehind opened lexemes before width)
    (hother : IsLengthBehind opened lexemes earlier other)
    (hlength : before.length = earlier.length) : width = other := by
  obtain ⟨unit, spelling, after, hsplit, -⟩ := h.goesOn
  obtain ⟨otherUnit, otherSpelling, otherAfter, hother, -⟩ := hother.goesOn
  obtain ⟨-, hcons⟩ := List.append_inj (hsplit.symm.trans hother) hlength
  obtain ⟨hlexeme, -⟩ := List.cons.inj hcons
  cases hlexeme
  rfl

/-- The length of a value is the one that no other in the text stands in front of, not counting
those inside curly brackets, and there is none only if there is no other. -/
theorem length?_eq_first_outside_curly (value : String) :
    (∀ pixels, length? value = some pixels ↔
      ∃ before width, IsLengthBehind [] (lexemes value.toList) before width ∧
        width.pixels = pixels ∧
        ∀ earlier other, IsLengthBehind [] (lexemes value.toList) earlier other →
          before.length ≤ earlier.length) ∧
      (length? value = none ↔
        ∀ before width, ¬IsLengthBehind [] (lexemes value.toList) before width) := by
  have hlength : length? value = firstLength [] (lexemes value.toList) :=
    Component.lengthIn?_ofLexemes _
  rw [hlength]
  constructor
  · intro pixels
    constructor
    · exact exists_isLengthBehind_of_firstLength
    · rintro ⟨before, width, hwidth, rfl, hfirst⟩
      cases hfound : firstLength [] (lexemes value.toList) with
      | none => exact absurd hwidth (not_isLengthBehind_of_firstLength hfound before width)
      | some found =>
        obtain ⟨other, otherWidth, hother, rfl, hotherFirst⟩ :=
          exists_isLengthBehind_of_firstLength hfound
        have hsame : other.length = before.length :=
          Nat.le_antisymm (hotherFirst before width hwidth) (hfirst other otherWidth hother)
        rw [hother.width_eq hwidth hsame]
  · constructor
    · exact not_isLengthBehind_of_firstLength
    · intro hnone
      cases hfound : firstLength [] (lexemes value.toList) with
      | none => rfl
      | some found =>
        obtain ⟨before, width, hwidth, -, -⟩ := exists_isLengthBehind_of_firstLength hfound
        exact absurd hwidth (hnone before width)

/-- The length in curly brackets is passed over, and two of the closing brackets close nothing. -/
example : IsLengthBehind [] (lexemes "a(\x7b1px)\x7d [\x7d3.5pX".toList)
    (lexemes "a(\x7b1px)\x7d [\x7d".toList) { whole := [3], fraction := [5] } :=
  ⟨⟨['p', 'X'], "3.5pX".toList, [], by decide, by decide⟩, by decide⟩

end TouchTarget.Css
