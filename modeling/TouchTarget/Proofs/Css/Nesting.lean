import TouchTarget.Css.Component

/-!
# Components of lexemes read one after the other

Reading lexemes with blocks open around them goes as reading them with none open, as long as none
of them closes a block from outside. What has been read is therefore a reading from nothing, put
onto the reading at which it began. A text that leaves no block open contributes its own
components, whatever comes before and behind it, and also inside a block.
-/

namespace TouchTarget.Css

namespace OpenBlock

/-! ## The three things that a lexeme can do -/

/-- A lexeme closes the innermost block of a reading. -/
def closesInnermost (reading : Reading) (lexeme : Lexeme) : Bool :=
  reading.2.head?.any (·.closes lexeme)

theorem opens?_of_closes {block : OpenBlock} {lexeme : Lexeme} (h : block.closes lexeme) :
    lexeme.token.opens? = none := by
  unfold closes at h
  cases htoken : lexeme.token <;> simp_all [Token.closes?, Token.opens?]

theorem opens?_of_closesInnermost {reading : Reading} {lexeme : Lexeme}
    (h : closesInnermost reading lexeme) : lexeme.token.opens? = none := by
  obtain ⟨current, stack⟩ := reading
  cases stack with
  | nil => cases h
  | cons block outer =>
    have hblock : block.closes lexeme := h
    exact opens?_of_closes hblock

theorem read_of_opens {lexeme : Lexeme} (h : lexeme.token.opens?.isSome) (current : List Component)
    (stack : List OpenBlock) : read (current, stack) lexeme = ([], ⟨lexeme, current⟩ :: stack) := by
  simp only [read, h, if_true]

theorem read_of_closes {block : OpenBlock} {lexeme : Lexeme} (h : block.closes lexeme)
    (current : List Component) (outer : List OpenBlock) :
    read (current, block :: outer) lexeme =
      (.block block.opener current.reverse (some lexeme) :: block.before, outer) := by
  simp [read, opens?_of_closes h, h]

theorem read_of_leaf {reading : Reading} {lexeme : Lexeme} (hopens : lexeme.token.opens? = none)
    (hcloses : closesInnermost reading lexeme = false) :
    read reading lexeme = (.leaf lexeme :: reading.1, reading.2) := by
  obtain ⟨current, stack⟩ := reading
  cases stack with
  | nil => simp [read, hopens]
  | cons block outer =>
    have hblock : block.closes lexeme = false := hcloses
    simp [read, hopens, hblock]

/-! ## A reading onto another -/

/-- A reading put onto the one at which it began. -/
def onto (base : Reading) : Reading → Reading
  | (current, []) => (current ++ base.1, base.2)
  | (current, block :: outer) =>
    (current, ⟨block.opener, (onto base (block.before, outer)).1⟩ ::
      (onto base (block.before, outer)).2)
termination_by reading => reading.2.length

@[simp] theorem onto_nil (base : Reading) (current : List Component) :
    onto base (current, []) = (current ++ base.1, base.2) := by
  rw [onto]

theorem onto_cons (base : Reading) (current : List Component) (block : OpenBlock)
    (outer : List OpenBlock) :
    onto base (current, block :: outer) =
      (current, ⟨block.opener, (onto base (block.before, outer)).1⟩ ::
        (onto base (block.before, outer)).2) := by
  rw [onto]

theorem onto_component (base : Reading) (component : Component) (current : List Component)
    (stack : List OpenBlock) :
    onto base (component :: current, stack) =
      (component :: (onto base (current, stack)).1, (onto base (current, stack)).2) := by
  cases stack with
  | nil => rw [onto_nil, onto_nil, List.cons_append]
  | cons block outer => rw [onto_cons, onto_cons]

theorem closesInnermost_onto {base reading : Reading} {lexeme : Lexeme}
    (h : reading.2 = [] → closesInnermost base lexeme = false) :
    closesInnermost (onto base reading) lexeme = closesInnermost reading lexeme := by
  obtain ⟨current, stack⟩ := reading
  cases stack with
  | nil =>
    rw [onto_nil]
    exact h rfl
  | cons block outer =>
    rw [onto_cons]
    rfl

/-- A lexeme that closes no block from outside is read onto a base as from nothing. -/
theorem read_onto {base reading : Reading} {lexeme : Lexeme}
    (h : reading.2 = [] → closesInnermost base lexeme = false) :
    read (onto base reading) lexeme = onto base (read reading lexeme) := by
  obtain ⟨current, stack⟩ := reading
  cases hopens : lexeme.token.opens? with
  | some bracket =>
    have hsome : lexeme.token.opens?.isSome := by rw [hopens]; rfl
    rw [read_of_opens hsome, read_of_opens hsome, onto_cons]
  | none =>
    cases hcloses : closesInnermost (current, stack) lexeme with
    | false =>
      rw [read_of_leaf hopens hcloses, onto_component]
      exact read_of_leaf hopens ((closesInnermost_onto h).trans hcloses)
    | true =>
      cases stack with
      | nil => cases hcloses
      | cons block outer =>
        have hblock : block.closes lexeme := hcloses
        rw [read_of_closes hblock, onto_cons, onto_component, read_of_closes (by exact hblock)]

/-! ## The components outside all blocks -/

/-- The components of a reading that are in no open block, last one in front. -/
def ground : Reading → List Component
  | (current, []) => current
  | (_, block :: outer) => ground (block.before, outer)
termination_by reading => reading.2.length

theorem ground_nil (current : List Component) : ground (current, []) = current := by
  rw [ground]

theorem ground_cons (current : List Component) (block : OpenBlock) (outer : List OpenBlock) :
    ground (current, block :: outer) = ground (block.before, outer) := by
  rw [ground]

theorem ground_subset_component (component : Component) (current : List Component)
    (stack : List OpenBlock) : ground (current, stack) ⊆ ground (component :: current, stack) := by
  cases stack with
  | nil =>
    rw [ground_nil, ground_nil]
    exact List.subset_cons_self component current
  | cons block outer =>
    rw [ground_cons, ground_cons]
    exact List.Subset.refl _

theorem ground_subset_read (reading : Reading) (lexeme : Lexeme) :
    ground reading ⊆ ground (read reading lexeme) := by
  obtain ⟨current, stack⟩ := reading
  cases hopens : lexeme.token.opens? with
  | some bracket =>
    have hsome : lexeme.token.opens?.isSome := by rw [hopens]; rfl
    rw [read_of_opens hsome, ground_cons]
    exact List.Subset.refl _
  | none =>
    cases hcloses : closesInnermost (current, stack) lexeme with
    | false =>
      rw [read_of_leaf hopens hcloses]
      exact ground_subset_component _ current stack
    | true =>
      cases stack with
      | nil => cases hcloses
      | cons block outer =>
        rw [read_of_closes (by exact hcloses), ground_cons]
        exact ground_subset_component _ block.before outer

theorem ground_subset_foldl (reading : Reading) (lexemes : List Lexeme) :
    ground reading ⊆ ground (lexemes.foldl read reading) := by
  induction lexemes generalizing reading with
  | nil => exact List.Subset.refl _
  | cons lexeme lexemes ih =>
    exact List.Subset.trans (ground_subset_read reading lexeme) (ih (read reading lexeme))

/-- What is in no open block stays a component of its own. -/
theorem ground_subset_finish (current : List Component) (stack : List OpenBlock) :
    ground (current, stack) ⊆ finish current stack := by
  induction stack generalizing current with
  | nil =>
    intro component hmem
    rw [ground_nil] at hmem
    exact List.mem_reverse.2 hmem
  | cons block outer ih =>
    rw [ground_cons, finish]
    exact List.Subset.trans (ground_subset_component _ block.before outer) (ih _)

/-! ## Many lexemes -/

/-- The reading of lexemes from nothing. -/
def readAll (lexemes : List Lexeme) : Reading :=
  lexemes.foldl read ([], [])

/-- Lexemes of which none is left outside all blocks and closes a block of the base are read onto
the base as from nothing. -/
theorem foldl_read_onto {base reading : Reading} {lexemes : List Lexeme}
    (h : ∀ lexeme, .leaf lexeme ∈ ground (lexemes.foldl read reading) →
      closesInnermost base lexeme = false) :
    lexemes.foldl read (onto base reading) = onto base (lexemes.foldl read reading) := by
  induction lexemes generalizing reading with
  | nil => rfl
  | cons lexeme lexemes ih =>
    have hread : read (onto base reading) lexeme = onto base (read reading lexeme) := by
      apply read_onto
      intro hstack
      cases hcloses : closesInnermost base lexeme with
      | false => rfl
      | true =>
        -- Outside all blocks it would be left as a component.
        have hleaf : closesInnermost reading lexeme = false := by
          rw [closesInnermost, hstack]
          rfl
        have hground : .leaf lexeme ∈ ground (read reading lexeme) := by
          rw [read_of_leaf (opens?_of_closesInnermost hcloses) hleaf, hstack, ground_nil]
          exact List.mem_cons_self
        rw [← hcloses]
        exact h lexeme (ground_subset_foldl _ lexemes hground)
    rw [List.foldl_cons, List.foldl_cons, hread]
    exact ih h

theorem finish_onto (before : List Component) (reading : Reading) :
    finish (onto (before, []) reading).1 (onto (before, []) reading).2 =
      before.reverse ++ finish reading.1 reading.2 := by
  obtain ⟨current, stack⟩ := reading
  induction stack generalizing current with
  | nil => rw [onto_nil, finish, finish, List.reverse_append]
  | cons block outer ih =>
    have h := ih (.block block.opener current.reverse none :: block.before)
    rw [onto_component] at h
    rw [onto_cons, finish, finish]
    exact h

/-- A block that is left open is the last component. -/
theorem getLast?_finish {stack : List OpenBlock} (hstack : stack ≠ []) (current : List Component) :
    ∃ opener body, (finish current stack).getLast? = some (.block opener body none) := by
  induction stack generalizing current with
  | nil => exact absurd rfl hstack
  | cons block outer ih =>
    rw [finish]
    by_cases houter : outer = []
    · rw [houter, finish, List.getLast?_reverse, List.head?_cons]
      exact ⟨_, _, rfl⟩
    · exact ih houter _

end OpenBlock

namespace Component

open OpenBlock

theorem ofLexemes_eq_finish (lexemes : List Lexeme) :
    ofLexemes lexemes = finish (readAll lexemes).1 (readAll lexemes).2 := rfl

/-- No block is left open at the end of lexemes. -/
def closesAll (lexemes : List Lexeme) : Bool :=
  (readAll lexemes).2.isEmpty

theorem readAll_of_closesAll {lexemes : List Lexeme} (h : closesAll lexemes) :
    readAll lexemes = ((ofLexemes lexemes).reverse, []) := by
  have hstack : (readAll lexemes).2 = [] := List.isEmpty_iff.1 h
  have hcurrent : ofLexemes lexemes = (readAll lexemes).1.reverse := by
    rw [ofLexemes_eq_finish, hstack, finish]
  rw [hcurrent, List.reverse_reverse, ← hstack]

theorem readAll_append {left : List Lexeme} (h : closesAll left) (right : List Lexeme) :
    readAll (left ++ right) = onto ((ofLexemes left).reverse, []) (readAll right) := by
  calc
    readAll (left ++ right) = right.foldl OpenBlock.read (readAll left) := List.foldl_append
    _ = right.foldl OpenBlock.read (onto ((ofLexemes left).reverse, []) ([], [])) := by
      rw [onto_nil, List.nil_append, readAll_of_closesAll h]
    _ = onto ((ofLexemes left).reverse, []) (readAll right) :=
      foldl_read_onto fun _ _ ↦ rfl

/-- Behind lexemes that leave no block open, the components begin anew. -/
theorem ofLexemes_append {left : List Lexeme} (h : closesAll left) (right : List Lexeme) :
    ofLexemes (left ++ right) = ofLexemes left ++ ofLexemes right := by
  rw [ofLexemes_eq_finish, readAll_append h, finish_onto, List.reverse_reverse,
    ← ofLexemes_eq_finish]

/-- Behind lexemes that leave no block open, it is for the rest to do so. -/
theorem closesAll_append {left : List Lexeme} (h : closesAll left) (right : List Lexeme) :
    closesAll (left ++ right) = closesAll right := by
  rw [closesAll, readAll_append h, closesAll]
  obtain ⟨current, stack⟩ := readAll right
  cases stack with
  | nil => rw [onto_nil]
  | cons block outer => rw [onto_cons]; rfl

theorem closesAll_singleton {lexeme : Lexeme} (h : lexeme.token.opens? = none) :
    closesAll [lexeme] := by
  rw [closesAll, readAll, List.foldl_cons, List.foldl_nil, read_of_leaf h rfl]
  rfl

/-- A lexeme that opens nothing is a component if no block is open. -/
theorem ofLexemes_cons_of_leaf {lexeme : Lexeme} (h : lexeme.token.opens? = none)
    (lexemes : List Lexeme) :
    ofLexemes (lexeme :: lexemes) = .leaf lexeme :: ofLexemes lexemes := by
  have happend := ofLexemes_append (closesAll_singleton h) lexemes
  rw [List.singleton_append] at happend
  rw [happend, ofLexemes_eq_finish [lexeme], readAll, List.foldl_cons, List.foldl_nil,
    read_of_leaf h rfl]
  rfl

/-- Lexemes between an opening and a closing bracket are a block if they leave no block open and
do not close that one. -/
theorem readAll_block {opener closer : Lexeme} {inner : List Lexeme}
    (hopener : opener.token.opens?.isSome) (hcloser : closer.token.closes? = opener.token.opens?)
    (hinner : closesAll inner)
    (hstays : ∀ lexeme, .leaf lexeme ∈ ofLexemes inner →
      lexeme.token.closes? ≠ opener.token.opens?) :
    readAll (opener :: inner ++ [closer]) =
      ([.block opener (ofLexemes inner) (some closer)], []) := by
  have hread : readAll (opener :: inner) = ((ofLexemes inner).reverse, [⟨opener, []⟩]) := by
    calc
      readAll (opener :: inner) = inner.foldl OpenBlock.read ([], [⟨opener, []⟩]) := by
        rw [readAll, List.foldl_cons, read_of_opens hopener]
      _ = inner.foldl OpenBlock.read (onto ([], [⟨opener, []⟩]) ([], [])) := by
        rw [onto_nil, List.nil_append]
      _ = onto ([], [⟨opener, []⟩]) (readAll inner) := by
        apply foldl_read_onto
        intro lexeme hmem
        have hne := hstays lexeme (ground_subset_finish _ _ hmem)
        simp [closesInnermost, closes, hne]
      _ = ((ofLexemes inner).reverse, [⟨opener, []⟩]) := by
        rw [readAll_of_closesAll hinner, onto_nil, List.append_nil]
  have hcloses : (OpenBlock.mk opener []).closes closer := by
    simp [closes, hcloser, hopener]
  rw [readAll] at hread
  rw [readAll, List.foldl_append, hread, List.foldl_cons, List.foldl_nil, read_of_closes hcloses,
    List.reverse_reverse]

end Component

end TouchTarget.Css
