import TouchTarget.Proofs.Css.Stops

/-!
# Cursors

A cursor reads a text from its front to its end and never builds any tree. It knows the lexemes that
are still to come, the block whose beginning it has just read and what it is to stop in front of. A
block that is not read for itself is passed over with the next step.

What a cursor has in view are the components up to the first stop. Each step takes some of them from
the front and leaves the others in view.
-/

namespace TouchTarget.Css

structure Cursor where
  rest : List Lexeme
  /-- The bracket of a block whose beginning has just been read. -/
  pending? : Option Bracket := none
  stops : List Delimiter := []
deriving Repr

namespace Cursor

/-- The cursor behind the block whose beginning has just been read. -/
def settled (cursor : Cursor) : Cursor :=
  match cursor.pending? with
  | none => cursor
  | some bracket => { cursor with rest := (enclosed [bracket] cursor.rest).after, pending? := none }

/-- Takes the next token, unless the cursor is to stop in front of it. -/
def take (cursor : Cursor) : Option Token × Cursor :=
  match cursor.settled.rest with
  | [] => (none, cursor.settled)
  | lexeme :: rest =>
    if stopsAt cursor.stops lexeme.token then (none, cursor.settled)
    else (some lexeme.token, { cursor with rest := rest, pending? := lexeme.token.opens? })

def skipTrivia (cursor : Cursor) : Cursor :=
  { cursor.settled with rest := cursor.settled.rest.dropWhile (·.token.isTrivia) }

/-- Takes the next token that is neither a blank nor a comment. -/
def next (cursor : Cursor) : Option Token × Cursor :=
  cursor.skipTrivia.take

/-- There is no next token: the text ends, or the cursor is to stop. -/
def isExhausted (cursor : Cursor) : Bool :=
  cursor.next.1.isNone

/-- Behind blanks and comments the text ends, or there is a stop. -/
def IsAtEnd (cursor : Cursor) : Prop :=
  ∀ lexeme ∈ cursor.skipTrivia.rest.head?, stopsAt cursor.stops lexeme.token

/-- The cursor that reads the inside of a block whose beginning has just been read. -/
def inside (cursor : Cursor) (bracket : Bracket) : Cursor where
  rest := cursor.rest
  stops := [.closing bracket]

/-- All components that are still to come. -/
def upcoming (cursor : Cursor) : List Component :=
  Component.ofLexemes cursor.settled.rest

/-- The components up to the first stop. -/
def view (cursor : Cursor) : List Component :=
  cursor.upcoming.takeWhile (Component.passes cursor.stops)

/-- The cursor has just read the component, or only its beginning if it is a block. -/
def HasRead (cursor : Cursor) : Component → Prop
  | .leaf lexeme => lexeme.token.opens? = none ∧ cursor.pending? = none
  | .block opener body _ => ∃ bracket, opener.token.opens? = some bracket ∧
      cursor.pending? = some bracket ∧ (cursor.inside bracket).view = body

/-- One cursor comes to another by passing over components in its view. -/
structure Reaches (start finish : Cursor) (passed : List Component) : Prop where
  stops_eq : finish.stops = start.stops
  suffix : finish.rest <:+ start.rest
  upcoming_eq : start.upcoming = passed ++ finish.upcoming
  passes : ∀ component ∈ passed, component.passes start.stops

/-- The cursor stands behind another one, with at least one lexeme between them. -/
def IsPast (finish start : Cursor) : Prop :=
  ∃ taken, taken ≠ [] ∧ start.rest = taken ++ finish.rest

variable {start middle finish : Cursor} {passed more : List Component}

/-! ## Blocks that have begun -/

@[simp] theorem pending?_settled (cursor : Cursor) : cursor.settled.pending? = none := by
  unfold settled
  split
  next h => exact h
  next => rfl

@[simp] theorem stops_settled (cursor : Cursor) : cursor.settled.stops = cursor.stops := by
  unfold settled
  split <;> rfl

theorem settled_of_pending? {cursor : Cursor} (h : cursor.pending? = none) :
    cursor.settled = cursor := by
  rw [settled, h]

@[simp] theorem settled_settled (cursor : Cursor) : cursor.settled.settled = cursor.settled :=
  settled_of_pending? (pending?_settled cursor)

@[simp] theorem settled_skipTrivia (cursor : Cursor) :
    cursor.skipTrivia.settled = cursor.skipTrivia :=
  settled_of_pending? (pending?_settled cursor)

theorem settled_suffix (cursor : Cursor) : cursor.settled.rest <:+ cursor.rest := by
  unfold settled
  split
  next => exact List.suffix_refl _
  next => exact enclosed_after_suffix _ _

/-- The lexemes behind a block that has begun are those of the components to come. -/
theorem lexemesIn_upcoming (cursor : Cursor) :
    Component.lexemesIn cursor.upcoming = cursor.settled.rest :=
  Component.lexemesIn_ofLexemes _

/-! ## Passing over components -/

theorem Reaches.refl (cursor : Cursor) : cursor.Reaches cursor [] :=
  ⟨rfl, List.suffix_refl _, rfl, nofun⟩

theorem Reaches.trans (h : start.Reaches middle passed) (hmore : middle.Reaches finish more) :
    start.Reaches finish (passed ++ more) where
  stops_eq := hmore.stops_eq.trans h.stops_eq
  suffix := hmore.suffix.trans h.suffix
  upcoming_eq := by rw [h.upcoming_eq, hmore.upcoming_eq, List.append_assoc]
  passes component hmem := by
    rcases List.mem_append.1 hmem with hpassed | hmem
    · exact h.passes component hpassed
    · rw [← h.stops_eq]
      exact hmore.passes component hmem

/-- What is passed over was in view in front of what is in view then. -/
theorem Reaches.view_eq (h : start.Reaches finish passed) : start.view = passed ++ finish.view := by
  rw [view, h.upcoming_eq, List.takeWhile_append_of_pos h.passes, view, h.stops_eq]

theorem passes_of_mem_view {cursor : Cursor} {component : Component} (h : component ∈ cursor.view) :
    component.passes cursor.stops :=
  List.all_eq_true.1 List.all_takeWhile component h

theorem reaches_settled (cursor : Cursor) : cursor.Reaches cursor.settled [] where
  stops_eq := stops_settled cursor
  suffix := settled_suffix cursor
  upcoming_eq := by rw [upcoming, upcoming, settled_settled, List.nil_append]
  passes := nofun

theorem isPast_iff :
    finish.IsPast start ↔ finish.rest <:+ start.rest ∧ finish.rest.length < start.rest.length := by
  constructor
  · rintro ⟨taken, hne, hrest⟩
    have hlength : 0 < taken.length := List.length_pos_iff.2 hne
    rw [hrest, List.length_append]
    exact ⟨List.suffix_append taken finish.rest, by omega⟩
  · rintro ⟨⟨taken, hrest⟩, hlength⟩
    refine ⟨taken, ?_, hrest.symm⟩
    rintro rfl
    rw [← hrest] at hlength
    exact Nat.lt_irrefl _ hlength

/-- A cursor that does not go back stands behind another one as soon as it has read anything. -/
theorem IsPast.of_suffix (h : middle.IsPast start) (hsuffix : finish.rest <:+ middle.rest) :
    finish.IsPast start := by
  rw [isPast_iff] at h ⊢
  exact ⟨hsuffix.trans h.1, Nat.lt_of_le_of_lt hsuffix.length_le h.2⟩

theorem IsPast.of_reaches (h : start.Reaches middle passed) (hpast : finish.IsPast middle) :
    finish.IsPast start := by
  rw [isPast_iff] at hpast ⊢
  exact ⟨hpast.1.trans h.suffix, Nat.lt_of_lt_of_le hpast.2 h.suffix.length_le⟩

/-- Between two cursors of which neither has a block before it, what is passed over has lexemes. -/
theorem Reaches.rest_eq (h : start.Reaches finish passed) (hstart : start.pending? = none)
    (hfinish : finish.pending? = none) :
    start.rest = Component.lexemesIn passed ++ finish.rest := by
  have hupcoming := congrArg Component.lexemesIn h.upcoming_eq
  rwa [Component.lexemesIn_append, lexemesIn_upcoming, lexemesIn_upcoming,
    settled_of_pending? hstart, settled_of_pending? hfinish] at hupcoming

theorem Reaches.isPast (h : start.Reaches finish passed) (hne : passed ≠ [])
    (hstart : start.pending? = none) (hfinish : finish.pending? = none) : finish.IsPast start :=
  ⟨Component.lexemesIn passed, fun hnil ↦ hne (Component.lexemesIn_eq_nil_iff.1 hnil),
    h.rest_eq hstart hfinish⟩

/-! ## The next token -/

/-- Without a token the view is empty. -/
theorem take_cases (cursor : Cursor) :
    (cursor.take = (none, cursor.settled) ∧ cursor.view = []) ∨
      ∃ component finish, cursor.take = (some component.first, finish) ∧
        cursor.Reaches finish [component] ∧ finish.HasRead component ∧ finish.IsPast cursor := by
  unfold take
  split
  next hrest =>
    refine .inl ⟨rfl, ?_⟩
    rw [view, upcoming, hrest]
    rfl
  next lexeme rest hrest =>
    have hfirst : ∃ component, component.first = lexeme.token ∧
        cursor.upcoming = component :: upcoming { cursor with
          rest := rest, pending? := lexeme.token.opens? } ∧
        HasRead { cursor with rest := rest, pending? := lexeme.token.opens? } component := by
      cases hopens : lexeme.token.opens? with
      | none =>
        refine ⟨.leaf lexeme, rfl, ?_, hopens, rfl⟩
        rw [upcoming, hrest, Component.ofLexemes_cons_of_leaf hopens]
        rfl
      | some bracket =>
        refine ⟨.block lexeme (Component.ofLexemes (enclosed [bracket] rest).inside)
          (enclosed [bracket] rest).closer?, rfl, ?_, bracket, hopens, rfl,
          (Component.ofLexemes_enclosed bracket rest).1.symm⟩
        rw [upcoming, hrest, Component.ofLexemes_cons_of_opens hopens]
        rfl
    obtain ⟨component, htoken, hupcoming, hread⟩ := hfirst
    split
    next hstop =>
      refine .inl ⟨rfl, ?_⟩
      have hpasses : ¬component.passes cursor.stops := by
        rw [Component.passes, htoken, hstop]
        exact Bool.false_ne_true
      rw [view, hupcoming, List.takeWhile_cons_of_neg hpasses]
    next hstop =>
      have hsuffix : lexeme :: rest <:+ cursor.rest := hrest ▸ settled_suffix cursor
      refine .inr ⟨component, { cursor with rest := rest, pending? := lexeme.token.opens? },
        by rw [htoken], ⟨rfl, ?_, hupcoming, ?_⟩, hread, isPast_iff.2 ⟨?_, ?_⟩⟩
      · exact (List.suffix_cons lexeme rest).trans hsuffix
      · intro passed hmem
        rw [List.mem_singleton.1 hmem, Component.passes, htoken, Bool.eq_false_iff.2 hstop]
        rfl
      · exact (List.suffix_cons lexeme rest).trans hsuffix
      · exact hsuffix.length_le

theorem upcoming_skipTrivia (cursor : Cursor) :
    cursor.skipTrivia.upcoming = cursor.upcoming.dropWhile Component.isTrivia := by
  rw [upcoming, settled_skipTrivia]
  exact Component.ofLexemes_dropWhile_isTrivia _

/-- The blanks and comments in front of the other components. -/
theorem isTrivia_of_mem_upcoming (cursor : Cursor) :
    ∀ component ∈ cursor.upcoming.takeWhile Component.isTrivia, component.isTrivia :=
  List.all_eq_true.1 List.all_takeWhile

theorem reaches_skipTrivia (cursor : Cursor) :
    cursor.Reaches cursor.skipTrivia (cursor.upcoming.takeWhile Component.isTrivia) where
  stops_eq := stops_settled cursor
  suffix := (List.dropWhile_suffix _).trans (settled_suffix cursor)
  upcoming_eq := by rw [upcoming_skipTrivia, List.takeWhile_append_dropWhile]
  passes component hmem :=
    Component.passes_of_isTrivia (isTrivia_of_mem_upcoming cursor component hmem) _

/-- What is in view behind blanks and comments does not begin with any. -/
theorem isTrivia_of_view_skipTrivia {cursor : Cursor} {component : Component}
    (h : cursor.skipTrivia.view = component :: more) : component.isTrivia = false := by
  obtain ⟨behind, hbehind⟩ : cursor.skipTrivia.view <+: cursor.skipTrivia.upcoming :=
    List.takeWhile_prefix _
  rw [h, upcoming_skipTrivia, List.cons_append] at hbehind
  have hnot := List.head?_dropWhile_not Component.isTrivia cursor.upcoming
  rw [← hbehind] at hnot
  exact hnot

theorem next_cases (cursor : Cursor) :
    (cursor.next = (none, cursor.skipTrivia) ∧ cursor.skipTrivia.view = []) ∨
      ∃ component finish, cursor.next = (some component.first, finish) ∧
        component.isTrivia = false ∧ cursor.skipTrivia.Reaches finish [component] ∧
        finish.HasRead component ∧ finish.IsPast cursor := by
  rcases take_cases cursor.skipTrivia with
    ⟨htake, hview⟩ | ⟨component, finish, htake, hreach, hread, hpast⟩
  · exact .inl ⟨htake.trans (by rw [settled_skipTrivia]), hview⟩
  · exact .inr ⟨component, finish, htake, isTrivia_of_view_skipTrivia hreach.view_eq, hreach, hread,
      hpast.of_reaches (reaches_skipTrivia cursor)⟩

/-- A cursor is exhausted if there is nothing in its view but blanks and comments. -/
theorem isExhausted_iff (cursor : Cursor) :
    cursor.isExhausted ↔ ∀ component ∈ cursor.view, component.isTrivia := by
  have hview := (reaches_skipTrivia cursor).view_eq
  rw [isExhausted]
  rcases next_cases cursor with ⟨hnext, hnone⟩ | ⟨component, finish, hnext, hmeans, hreach, -, -⟩
  · rw [hnext, hview, hnone, List.append_nil]
    exact iff_of_true rfl (isTrivia_of_mem_upcoming cursor)
  · rw [hnext, hview, hreach.view_eq]
    refine iff_of_false Bool.false_ne_true fun hall ↦ ?_
    have hmem : component ∈ [component] ++ finish.view := List.mem_cons_self
    rw [hall component (List.mem_append_right _ hmem)] at hmeans
    cases hmeans

theorem isExhausted_of_view {cursor : Cursor} (h : cursor.view = []) : cursor.isExhausted :=
  (isExhausted_iff cursor).2 (by rw [h]; nofun)

theorem isExhausted_iff_isAtEnd (cursor : Cursor) : cursor.isExhausted ↔ cursor.IsAtEnd := by
  have hstops : cursor.skipTrivia.stops = cursor.stops := stops_settled cursor
  rw [isExhausted, next, take, settled_skipTrivia, hstops, IsAtEnd]
  cases cursor.skipTrivia.rest with
  | nil => exact iff_of_true rfl nofun
  | cons lexeme rest =>
    rw [List.head?_cons]
    cases hstop : stopsAt cursor.stops lexeme.token with
    | true => simp [hstop]
    | false => simp [hstop]

end Cursor

end TouchTarget.Css
