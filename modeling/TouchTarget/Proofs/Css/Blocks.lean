import TouchTarget.Css.Statement
import TouchTarget.Proofs.Css.Boundary
import TouchTarget.Proofs.Css.Nesting

/-!
# Blocks in their place

A closed text means the same wherever a block may begin or end behind it. The body of a block in
curly brackets is therefore read as if it stood alone, and so is what stands in front of the block
and behind it.
-/

namespace TouchTarget.Css

/-- Nothing is open at the end of the text: no string, comment, address or escape, and no block. -/
structure IsClosed (text : List Char) : Prop where
  endsBetweenLexemes : EndsBetweenLexemes text
  closesAll : Component.closesAll (lexemes text)

/-- The text may stand in front of the block of a rule: it is closed, and outside its own blocks
there is no semicolon and no block in curly brackets. -/
structure IsHead (text : List Char) : Prop extends IsClosed text where
  endsNoRule : ∀ component ∈ components text,
    component.isSemicolon = false ∧ component.curlyBody? = none

/-- The text may stand in curly brackets: it is closed, and outside its own blocks there is no
closing curly bracket. -/
structure IsBody (text : List Char) : Prop extends IsClosed text where
  endsNoBlock : ∀ component ∈ components text, component.token? ≠ some (.closer .curly)

instance (text : List Char) : Decidable (EndsBetweenLexemes text) :=
  inferInstanceAs (Decidable (∀ lexeme ∈ (lexemes text).getLast?, _))

instance (text : List Char) : Decidable (IsClosed text) :=
  decidable_of_iff (EndsBetweenLexemes text ∧ Component.closesAll (lexemes text))
    ⟨fun ⟨hlexemes, hblocks⟩ ↦ ⟨hlexemes, hblocks⟩,
      fun ⟨hlexemes, hblocks⟩ ↦ ⟨hlexemes, hblocks⟩⟩

/-! ## The components of a block -/

/-- A block in curly brackets. -/
def Component.curly (body : List Component) : Component :=
  .block ⟨.opener .curly, ['\x7b']⟩ body (some ⟨.closer .curly, ['\x7d']⟩)

/-- The lexemes of a block around a body are those of the body between the brackets. -/
theorem lexemes_block {body : List Char} (hbody : IsClosed body) (more : List Char) :
    lexemes ('\x7b' :: (body ++ '\x7d' :: more)) =
      ⟨.opener .curly, ['\x7b']⟩ :: lexemes body ++ [⟨.closer .curly, ['\x7d']⟩] ++
        lexemes more := by
  have hinside : lexemes (body ++ '\x7d' :: more) = lexemes body ++ lexemes ('\x7d' :: more) :=
    lexemes_append_delimiter hbody.endsBetweenLexemes rfl more
  have hopener := lexemes_cons_done (c := '\x7b') rfl (body ++ '\x7d' :: more)
  have hcloser := lexemes_cons_done (c := '\x7d') rfl more
  rw [hopener, hinside, hcloser, List.cons_append, List.cons_append, List.append_assoc,
    List.singleton_append]

theorem readAll_curly {body : List Char} (hbody : IsBody body) :
    OpenBlock.readAll (⟨.opener .curly, ['\x7b']⟩ :: lexemes body ++ [⟨.closer .curly, ['\x7d']⟩]) =
      ([.curly (components body)], []) := by
  apply Component.readAll_block rfl rfl hbody.closesAll
  intro lexeme hmem hcloses
  have hne := hbody.endsNoBlock (.leaf lexeme) hmem
  rw [Component.token?] at hne
  cases htoken : lexeme.token with
  | closer bracket =>
    rw [htoken] at hcloses hne
    obtain rfl := Option.some.inj hcloses
    exact hne rfl
  | _ =>
    rw [htoken] at hcloses
    cases hcloses

/-- A head, a body in curly brackets and any text are read as if each of them stood alone. -/
theorem components_append_block {head body : List Char} (hhead : IsClosed head)
    (hbody : IsBody body) (more : List Char) :
    components (head ++ '\x7b' :: (body ++ '\x7d' :: more)) =
      components head ++ .curly (components body) :: components more := by
  have hblock := readAll_curly hbody
  have hcloses : Component.closesAll
      (⟨.opener .curly, ['\x7b']⟩ :: lexemes body ++ [⟨.closer .curly, ['\x7d']⟩]) := by
    rw [Component.closesAll, hblock]
    rfl
  calc
    components (head ++ '\x7b' :: (body ++ '\x7d' :: more)) =
        components head ++ components ('\x7b' :: (body ++ '\x7d' :: more)) := by
      rw [components, lexemes_append_delimiter hhead.endsBetweenLexemes rfl,
        Component.ofLexemes_append hhead.closesAll, components, components]
    _ = components head ++ .curly (components body) :: components more := by
      rw [components.eq_def ('\x7b' :: _), lexemes_block hbody.toIsClosed,
        Component.ofLexemes_append hcloses, Component.ofLexemes_eq_finish, hblock]
      rfl

/-- A head, a semicolon and any text are read as if each of them stood alone. -/
theorem components_append_semicolon {head : List Char} (hhead : IsClosed head) (more : List Char) :
    components (head ++ ';' :: more) =
      components head ++ .leaf ⟨.semicolon, [';']⟩ :: components more := by
  have hsemicolon : State.stepStart ';' = .done .semicolon := rfl
  rw [components, lexemes_append_delimiter hhead.endsBetweenLexemes rfl,
    Component.ofLexemes_append hhead.closesAll, lexemes_cons_done hsemicolon,
    Component.ofLexemes_cons_of_leaf rfl, components, components]

/-! ## The statement of a block -/

namespace Statement

variable {skips ends : Component → Bool} {front : List Component}

/-- Components that do not end a statement belong to the one that has begun. -/
theorem split_append_of_not_ends {head : List Component}
    (hfirst : head ≠ [] ∨ ∀ first ∈ front.head?, skips first = false)
    (hfront : ∀ component ∈ front, ends component = false) (more : List Component) :
    split skips ends head (front ++ more) = split skips ends (front.reverse ++ head) more := by
  induction front generalizing head with
  | nil => rfl
  | cons component front ih =>
    rw [List.forall_mem_cons] at hfront
    have hbegins : (head.isEmpty && skips component) = false := by
      rcases hfirst with hhead | hfirst
      · rw [List.isEmpty_eq_false_iff.2 hhead, Bool.false_and]
      · rw [hfirst component rfl, Bool.and_false]
    rw [List.cons_append, split, hbegins, if_neg Bool.false_ne_true, hfront.1,
      if_neg Bool.false_ne_true, ih (.inl (List.cons_ne_nil component head)) hfront.2,
      List.reverse_cons, List.append_assoc, List.singleton_append]

/-- Without an end there is one statement, which the text ends. -/
theorem split_of_not_ends (hne : front ≠ []) (hfirst : ∀ first ∈ front.head?, skips first = false)
    (hfront : ∀ component ∈ front, ends component = false) :
    split skips ends [] front = [⟨front, none⟩] := by
  have hsplit : split skips ends [] (front ++ []) = split skips ends (front.reverse ++ []) [] :=
    split_append_of_not_ends (.inr hfirst) hfront []
  have hempty : front.reverse.isEmpty = false :=
    List.isEmpty_eq_false_iff.2 (List.reverse_ne_nil_iff.2 hne)
  rw [List.append_nil, List.append_nil] at hsplit
  rw [hsplit, split, hempty, if_neg Bool.false_ne_true, List.reverse_reverse]

/-- The first statement runs from the first component through the one that ends it. -/
theorem split_append_end {last : Component} {rest : List Component}
    (hfirst : ∀ first ∈ (front ++ last :: rest).head?, skips first = false)
    (hfront : ∀ component ∈ front, ends component = false) (hlast : ends last) :
    split skips ends [] (front ++ last :: rest) =
      ⟨front, some last⟩ :: split skips ends [] rest := by
  cases front with
  | nil =>
    rw [List.nil_append, split, hfirst last rfl, Bool.and_false, if_neg Bool.false_ne_true,
      if_pos hlast]
    rfl
  | cons component front =>
    have hbegun : ((component :: front).reverse ++ []).isEmpty = false :=
      List.isEmpty_eq_false_iff.2 (by simp)
    have hfrontFirst : ∀ first ∈ (component :: front).head?, skips first = false := hfirst
    rw [split_append_of_not_ends (.inr hfrontFirst) hfront, split, hbegun, Bool.false_and,
      if_neg Bool.false_ne_true, if_pos hlast, List.append_nil, List.reverse_reverse]

/-- A rule runs from the first component that is not skipped through the one that ends it. -/
theorem rulesIn_append_end {first last : Component} {head : List Component}
    (hfirst : first.isTrivia = false ∧ isStray first = false)
    (hhead : ∀ component ∈ first :: head,
      component.isSemicolon = false ∧ component.curlyBody? = none)
    (hlast : last.isSemicolon ∨ last.curlyBody?.isSome) (rest : List Component) :
    rulesIn (first :: head ++ last :: rest) = ⟨first :: head, some last⟩ :: rulesIn rest := by
  have hends : ∀ component ∈ first :: head,
      (component.isSemicolon || component.curlyBody?.isSome) = false := by
    intro component hmem
    obtain ⟨hsemicolon, hcurly⟩ := hhead component hmem
    rw [hsemicolon, hcurly]
    rfl
  apply split_append_end
  · rintro component ⟨⟩
    rw [hfirst.1, hfirst.2]
    rfl
  · exact hends
  · rw [Bool.or_eq_true]
    exact hlast

end Statement

end TouchTarget.Css
