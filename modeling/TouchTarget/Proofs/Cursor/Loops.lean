import TouchTarget.Proofs.Cursor.Readers

/-!
# Loops of readers

A loop is told what one turn of it does. It needs a proof that the cursor is farther on whenever
another turn follows, and it ends because of that. What a loop reads is found from one turn: if no
turn changes what the state makes of the components in view, the result is what the first state
makes of them.

Two kinds of loops cover all readers. One takes a token with each turn until there is none. The
other looks at the beginning of each turn whether there is anything left.
-/

namespace TouchTarget.Css

/-- How a turn of a loop ends. -/
inductive Turn (σ ρ : Type)
  | again (state : σ) (cursor : Cursor)
  | stop (result : ρ) (cursor : Cursor)

namespace Turn

variable {σ ρ : Type}

def cursor : Turn σ ρ → Cursor
  | again _ cursor => cursor
  | stop _ cursor => cursor

def goesOn : Turn σ ρ → Bool
  | again .. => true
  | stop .. => false

/-- The result, given what a state makes of the components in view. -/
def outcome (meaning : σ → List Component → ρ) : Turn σ ρ → ρ
  | again state cursor => meaning state cursor.view
  | stop result _ => result

end Turn

structure Loop (σ ρ : Type) where
  turn : σ → Cursor → Turn σ ρ
  reaches : ∀ state (start : Cursor), ∃ passed, start.Reaches (turn state start).cursor passed
  isPast : ∀ state (start : Cursor), (turn state start).goesOn →
    (turn state start).cursor.IsPast start

/-- Each turn reads something as long as there is anything to be read, and the loop is left only
when there is nothing any more. -/
structure Loop.IsExhaustive {σ ρ : Type} (loop : Loop σ ρ) : Prop where
  isPast : ∀ state (start : Cursor), start.isExhausted = false →
    (loop.turn state start).cursor.IsPast start
  isAtEnd : ∀ state start, (loop.turn state start).goesOn = false →
    (loop.turn state start).cursor.IsAtEnd

namespace Loop

variable {σ ρ : Type}

theorem isPast_of_again {loop : Loop σ ρ} {state next : σ} {start cursor : Cursor}
    (h : loop.turn state start = .again next cursor) : cursor.IsPast start := by
  have hpast := loop.isPast state start (by rw [h]; rfl)
  rwa [h] at hpast

def run (loop : Loop σ ρ) (state : σ) (start : Cursor) : ρ × Cursor :=
  match hturn : loop.turn state start with
  | .again next cursor =>
    have : cursor.rest.length < start.rest.length :=
      (Cursor.isPast_iff.1 (isPast_of_again hturn)).2
    loop.run next cursor
  | .stop result cursor => (result, cursor)
termination_by start.rest.length

theorem run_of_again {loop : Loop σ ρ} {state next : σ} {start cursor : Cursor}
    (h : loop.turn state start = .again next cursor) :
    loop.run state start = loop.run next cursor := by
  rw [run]
  split
  next hturn =>
    obtain ⟨rfl, rfl⟩ := Turn.again.inj (hturn.symm.trans h)
    rfl
  next hturn => cases hturn.symm.trans h

theorem run_of_stop {loop : Loop σ ρ} {state : σ} {result : ρ} {start cursor : Cursor}
    (h : loop.turn state start = .stop result cursor) :
    loop.run state start = (result, cursor) := by
  rw [run]
  split
  next hturn => cases hturn.symm.trans h
  next hturn =>
    obtain ⟨rfl, rfl⟩ := Turn.stop.inj (hturn.symm.trans h)
    rfl

/-- What holds of every run if it holds of a run that stops at once and of one that goes on as a run
of which it holds. -/
theorem run_induction (loop : Loop σ ρ) {motive : σ → Cursor → Prop}
    (again : ∀ state start next cursor, loop.turn state start = .again next cursor →
      cursor.IsPast start → motive next cursor → motive state start)
    (stop : ∀ state start result cursor, loop.turn state start = .stop result cursor →
      motive state start)
    (state : σ) (start : Cursor) : motive state start := by
  induction hlength : start.rest.length using Nat.strongRecOn generalizing state start with
  | ind length ih =>
    cases hturn : loop.turn state start with
    | again next cursor =>
      have hpast := isPast_of_again hturn
      have hshorter : cursor.rest.length < length := hlength ▸ (Cursor.isPast_iff.1 hpast).2
      exact again state start next cursor hturn hpast (ih _ hshorter next cursor rfl)
    | stop result cursor => exact stop state start result cursor hturn

theorem reaches_run (loop : Loop σ ρ) (state : σ) (start : Cursor) :
    ∃ passed, start.Reaches (loop.run state start).2 passed := by
  induction state, start using loop.run_induction with
  | again state start next cursor hturn _ ih =>
    obtain ⟨first, hfirst⟩ := loop.reaches state start
    obtain ⟨more, hmore⟩ := ih
    rw [hturn] at hfirst
    exact ⟨first ++ more, run_of_again hturn ▸ hfirst.trans hmore⟩
  | stop state start result cursor hturn =>
    obtain ⟨passed, hreach⟩ := loop.reaches state start
    rw [hturn] at hreach
    exact ⟨passed, run_of_stop hturn ▸ hreach⟩

/-- The loop as a reader. -/
def reader (loop : Loop σ ρ) (state : σ) : Reader ρ where
  read := loop.run state
  reaches := loop.reaches_run state

theorem IsExhaustive.reader {loop : Loop σ ρ} (h : loop.IsExhaustive) (state : σ) :
    (loop.reader state).IsExhaustive := by
  intro start
  change (loop.run state start).2.isExhausted
  induction state, start using loop.run_induction with
  | again state start next cursor hturn _ ih => rw [run_of_again hturn, ih]
  | stop state start result cursor hturn =>
    have hend := h.isAtEnd state start (by rw [hturn]; rfl)
    rw [hturn] at hend
    rw [run_of_stop hturn, Cursor.isExhausted_iff_isAtEnd]
    exact hend

/-- The result of a loop is what its first state makes of the components in view, if no turn changes
what the state makes of them. -/
theorem run_fst {loop : Loop σ ρ} {meaning : σ → List Component → ρ} {start : Cursor}
    (h : ∀ state cursor, cursor.rest.length ≤ start.rest.length →
      (loop.turn state cursor).outcome meaning = meaning state cursor.view) (state : σ) :
    (loop.run state start).1 = meaning state start.view := by
  induction state, start using loop.run_induction with
  | again state start next cursor hturn hpast ih =>
    have hshorter : cursor.rest.length < start.rest.length := (Cursor.isPast_iff.1 hpast).2
    have hmeaning := h state start (Nat.le_refl _)
    rw [hturn] at hmeaning
    rw [run_of_again hturn, ih fun state cursor hle ↦
      h state cursor (Nat.le_trans hle (Nat.le_of_lt hshorter))]
    exact hmeaning
  | stop state start result cursor hturn =>
    have hmeaning := h state start (Nat.le_refl _)
    rw [hturn] at hmeaning
    rw [run_of_stop hturn]
    exact hmeaning

end Loop

/-! ## Blanks and comments -/

/-- Blanks and comments in front of the other components make no difference. -/
def IgnoresTrivia {σ ρ : Type} (meaning : σ → List Component → ρ) : Prop :=
  ∀ state component components, component.isTrivia →
    meaning state (component :: components) = meaning state components

theorem IgnoresTrivia.view_skipTrivia {σ ρ : Type} {meaning : σ → List Component → ρ}
    (h : IgnoresTrivia meaning) (state : σ) (cursor : Cursor) :
    meaning state cursor.view = meaning state cursor.skipTrivia.view := by
  have htrivia := cursor.isTrivia_of_mem_upcoming
  rw [cursor.reaches_skipTrivia.view_eq]
  generalize cursor.upcoming.takeWhile Component.isTrivia = trivia at htrivia
  induction trivia with
  | nil => rfl
  | cons component trivia ih =>
    rw [List.forall_mem_cons] at htrivia
    rw [List.cons_append, h state component _ htrivia.1, ih htrivia.2]

/-! ## Loops over tokens -/

section OverTokens

variable {σ ρ : Type} (each : σ → Token → Cursor → Turn σ ρ) (result : σ → ρ)

def tokenTurn (state : σ) (start : Cursor) : Turn σ ρ :=
  match start.next with
  | (some token, behind) => each state token behind
  | (none, behind) => .stop (result state) behind

/-- The loop that takes a token with each turn, until there is none. -/
def Loop.overTokens (heach : ∀ state token (start : Cursor),
    ∃ passed, start.Reaches (each state token start).cursor passed) : Loop σ ρ where
  turn := tokenTurn each result
  reaches state start := by
    unfold tokenTurn
    rcases start.next_cases with ⟨hnext, -⟩ | ⟨component, behind, hnext, -, hreach, -, -⟩
    · rw [hnext]
      exact ⟨_, start.reaches_skipTrivia⟩
    · obtain ⟨passed, hpassed⟩ := heach state component.first behind
      rw [hnext]
      exact ⟨_, (start.reaches_skipTrivia.trans hreach).trans hpassed⟩
  isPast state start hgoesOn := by
    unfold tokenTurn at hgoesOn ⊢
    rcases start.next_cases with ⟨hnext, -⟩ | ⟨component, behind, hnext, -, -, -, hpast⟩
    · rw [hnext] at hgoesOn
      cases hgoesOn
    · obtain ⟨passed, hpassed⟩ := heach state component.first behind
      rw [hnext]
      exact hpast.of_suffix hpassed.suffix

/-- A loop over tokens that is not left early reads to the end. -/
theorem Loop.isExhaustive_overTokens (heach : ∀ state token (start : Cursor),
    ∃ passed, start.Reaches (each state token start).cursor passed)
    (hgoesOn : ∀ state token start, (each state token start).goesOn) :
    (overTokens each result heach).IsExhaustive where
  isPast state start hstart := by
    apply (overTokens each result heach).isPast state start
    change (tokenTurn each result state start).goesOn
    unfold tokenTurn
    rcases start.next_cases with ⟨hnext, -⟩ | ⟨component, behind, hnext, -, -, -, -⟩
    · rw [Cursor.isExhausted, hnext] at hstart
      cases hstart
    · rw [hnext]
      exact hgoesOn state component.first behind
  isAtEnd state start hstops := by
    change (tokenTurn each result state start).goesOn = false at hstops
    change (tokenTurn each result state start).cursor.IsAtEnd
    unfold tokenTurn at hstops ⊢
    rcases start.next_cases with ⟨hnext, hview⟩ | ⟨component, behind, hnext, -, -, -, -⟩
    · rw [hnext]
      exact (Cursor.isExhausted_iff_isAtEnd _).1 (Cursor.isExhausted_of_view hview)
    · rw [hnext] at hstops
      cases (hgoesOn state component.first behind).symm.trans hstops

/-- What a turn over a token does is what is done with the component that the token begins. -/
theorem outcome_tokenTurn {meaning : σ → List Component → ρ} (htrivia : IgnoresTrivia meaning)
    {state : σ} (hnil : meaning state [] = result state) {start : Cursor}
    (heach : ∀ component behind, Cursor.HasRead behind component → behind.IsPast start →
      (each state component.first behind).outcome meaning =
        meaning state (component :: behind.view)) :
    (tokenTurn each result state start).outcome meaning = meaning state start.view := by
  rw [htrivia.view_skipTrivia, tokenTurn]
  rcases start.next_cases with ⟨hnext, hview⟩ | ⟨component, behind, hnext, -, hreach, hread, hpast⟩
  · rw [hnext, hview, hnil]
    rfl
  · rw [hnext, hreach.view_eq]
    exact heach component behind hread hpast

end OverTokens

/-! ## Loops until the end -/

/-- The cursor stands right in front of a component that is neither a blank nor a comment. -/
structure Cursor.StandsBefore (cursor : Cursor) (component : Component) : Prop where
  pending? : cursor.pending? = none
  view : ∃ more, cursor.view = component :: more
  isTrivia : component.isTrivia = false

/-- A turn reads something, and if it is the last one it leaves nothing unread. -/
structure Turn.Advances {σ ρ : Type} (turn : Turn σ ρ) (start : Cursor) : Prop where
  reaches : ∃ passed, start.Reaches turn.cursor passed
  isPast : turn.cursor.IsPast start
  isExhausted : turn.goesOn = false → turn.cursor.isExhausted

theorem Cursor.isExhausted_skipTrivia (cursor : Cursor) :
    cursor.skipTrivia.isExhausted = cursor.isExhausted := by
  rw [Bool.eq_iff_iff, isExhausted_iff, isExhausted_iff, cursor.reaches_skipTrivia.view_eq,
    List.forall_mem_append]
  exact (and_iff_right cursor.isTrivia_of_mem_upcoming).symm

theorem Cursor.exists_standsBefore {cursor : Cursor} (h : cursor.isExhausted = false) :
    ∃ component, cursor.skipTrivia.StandsBefore component := by
  cases hview : cursor.skipTrivia.view with
  | nil =>
    have hexhausted : cursor.skipTrivia.isExhausted := isExhausted_of_view hview
    rw [isExhausted_skipTrivia, h] at hexhausted
    cases hexhausted
  | cons component more =>
    exact ⟨component, pending?_settled cursor, ⟨more, hview⟩, isTrivia_of_view_skipTrivia hview⟩

/-- In front of a component the next token is the first one of that component. -/
theorem Cursor.StandsBefore.exists_next {start : Cursor} {component : Component}
    (h : start.StandsBefore component) :
    ∃ behind, start.next = (some component.first, behind) ∧ start.Reaches behind [component] ∧
      behind.HasRead component ∧ behind.IsPast start := by
  obtain ⟨more, hview⟩ := h.view
  have hskip := start.reaches_skipTrivia
  have hnone : start.upcoming.takeWhile Component.isTrivia = [] := by
    cases htake : start.upcoming.takeWhile Component.isTrivia with
    | nil => rfl
    | cons first trivia =>
      have hsplit := hskip.view_eq
      rw [hview, htake] at hsplit
      obtain ⟨rfl, -⟩ := List.cons.inj hsplit
      have hfirst := start.isTrivia_of_mem_upcoming component (htake ▸ List.mem_cons_self)
      rw [h.isTrivia] at hfirst
      cases hfirst
  rw [hnone] at hskip
  rcases start.next_cases with ⟨-, hempty⟩ | ⟨other, behind, hnext, -, hreach, hread, hpast⟩
  · have hsplit := hskip.view_eq
    rw [hempty, hview] at hsplit
    cases hsplit
  · have hreach := hskip.trans hreach
    have hsplit := hreach.view_eq
    rw [hview] at hsplit
    obtain ⟨rfl, -⟩ := List.cons.inj hsplit
    exact ⟨behind, hnext, hreach, hread, hpast⟩

section UntilExhausted

variable {σ : Type} (body : σ → Cursor → Turn σ σ)

def guardedTurn (state : σ) (start : Cursor) : Turn σ σ :=
  if start.skipTrivia.isExhausted then .stop state start.skipTrivia
  else body state start.skipTrivia

/-- A turn that is guarded finds the end or advances. -/
theorem guardedTurn_cases {body} (hbody : ∀ state start component,
    Cursor.StandsBefore start component → (body state start).Advances start)
    (state : σ) (start : Cursor) :
    start.isExhausted ∧ guardedTurn body state start = .stop state start.skipTrivia ∨
      start.isExhausted = false ∧
        guardedTurn body state start = body state start.skipTrivia ∧
        (body state start.skipTrivia).Advances start.skipTrivia := by
  unfold guardedTurn
  rw [Cursor.isExhausted_skipTrivia]
  cases hend : start.isExhausted with
  | true => exact .inl ⟨rfl, rfl⟩
  | false =>
    obtain ⟨component, hcomponent⟩ := Cursor.exists_standsBefore hend
    exact .inr ⟨rfl, rfl, hbody state _ component hcomponent⟩

/-- The loop that looks at the beginning of each turn whether anything is left. -/
def Loop.untilExhausted (hbody : ∀ state start component,
    Cursor.StandsBefore start component → (body state start).Advances start) : Loop σ σ where
  turn := guardedTurn body
  reaches state start := by
    rcases guardedTurn_cases hbody state start with ⟨-, hturn⟩ | ⟨-, hturn, hadvances⟩
    · rw [hturn]
      exact ⟨_, start.reaches_skipTrivia⟩
    · obtain ⟨passed, hpassed⟩ := hadvances.reaches
      rw [hturn]
      exact ⟨_, start.reaches_skipTrivia.trans hpassed⟩
  isPast state start hgoesOn := by
    rcases guardedTurn_cases hbody state start with ⟨-, hturn⟩ | ⟨-, hturn, hadvances⟩
    · rw [hturn] at hgoesOn
      cases hgoesOn
    · rw [hturn]
      exact hadvances.isPast.of_reaches start.reaches_skipTrivia

theorem Loop.isExhaustive_untilExhausted {body} (hbody : ∀ state start component,
    Cursor.StandsBefore start component → (body state start).Advances start) :
    (untilExhausted (σ := σ) body hbody).IsExhaustive where
  isPast state start hstart := by
    rcases guardedTurn_cases hbody state start with ⟨hend, -⟩ | ⟨-, hturn, hadvances⟩
    · cases hend.symm.trans hstart
    · change (guardedTurn body state start).cursor.IsPast start
      rw [hturn]
      exact hadvances.isPast.of_reaches start.reaches_skipTrivia
  isAtEnd state start hstops := by
    change (guardedTurn body state start).goesOn = false at hstops
    change (guardedTurn body state start).cursor.IsAtEnd
    rw [← Cursor.isExhausted_iff_isAtEnd]
    rcases guardedTurn_cases hbody state start with ⟨hend, hturn⟩ | ⟨-, hturn, hadvances⟩
    · rw [hturn]
      exact start.isExhausted_skipTrivia.trans hend
    · rw [hturn] at hstops ⊢
      exact hadvances.isExhausted hstops

/-- What a guarded turn does is what its body does in front of a component. -/
theorem outcome_guardedTurn {meaning : σ → List Component → σ} (htrivia : IgnoresTrivia meaning)
    (hnil : ∀ state, meaning state [] = state)
    (hbody : ∀ state start component, Cursor.StandsBefore start component →
      (body state start).outcome meaning = meaning state start.view)
    (state : σ) (start : Cursor) :
    (guardedTurn body state start).outcome meaning = meaning state start.view := by
  rw [htrivia.view_skipTrivia, guardedTurn, Cursor.isExhausted_skipTrivia]
  cases hend : start.isExhausted with
  | true =>
    rcases start.next_cases with ⟨-, hview⟩ | ⟨component, behind, hnext, -⟩
    · rw [hview, hnil]
      rfl
    · rw [Cursor.isExhausted, hnext] at hend
      cases hend
  | false =>
    obtain ⟨component, hcomponent⟩ := Cursor.exists_standsBefore hend
    exact hbody state _ component hcomponent

end UntilExhausted

end TouchTarget.Css
