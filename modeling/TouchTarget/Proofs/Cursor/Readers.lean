import TouchTarget.Proofs.Cursor.Position

/-!
# Readers

A reader takes a cursor on and gives what it has read. It never goes back and never over a stop.
Where the cursor ends up behind a block that is read for itself, or behind a text that is read up to
a delimiter, does therefore not depend on the reader. Its result does: it is given up unless the
reader has left nothing unread. A reader that always reads to the end never loses its result in this
way.
-/

namespace TouchTarget.Css

structure Reader (α : Type) where
  read : Cursor → α × Cursor
  reaches : ∀ start : Cursor, ∃ passed, start.Reaches (read start).2 passed

/-- Nothing is left unread, wherever the reader begins. -/
def Reader.IsExhaustive {α : Type} (reader : Reader α) : Prop :=
  ∀ start, (reader.read start).2.isExhausted

namespace Cursor

variable {α : Type}

/-- Reads the inside of the block whose beginning has just been read, and goes on behind it. There
is no result if no block has begun, or if something inside is left unread. -/
def nested (cursor : Cursor) (reader : Reader α) : Option α × Cursor :=
  match cursor.pending? with
  | none => (none, cursor)
  | some bracket =>
    let (value, inner) := reader.read (cursor.inside bracket)
    (if inner.isExhausted then some value else none,
      { cursor with rest := (enclosed [bracket] inner.settled.rest).after, pending? := none })

/-- The cursor that stops in front of more delimiters. -/
def within (cursor : Cursor) (delimiters : List Delimiter) : Cursor :=
  { cursor with stops := delimiters ++ cursor.stops }

/-- Reads what is in front of the first delimiter, and goes on there. There is no result if
something in front of it is left unread. -/
def untilBefore (cursor : Cursor) (delimiters : List Delimiter) (reader : Reader α) :
    Option α × Cursor :=
  let (value, inner) := reader.read (cursor.within delimiters)
  (if inner.isExhausted then some value else none,
    { cursor with
      rest := fromStop (delimiters ++ cursor.stops) [] inner.settled.rest, pending? := none })

/-- Reads what is in front of the first delimiter, and goes on behind that delimiter. -/
def untilAfter (cursor : Cursor) (delimiters : List Delimiter) (reader : Reader α) :
    Option α × Cursor :=
  ((cursor.untilBefore delimiters reader).1,
    (cursor.untilBefore delimiters reader).2.take.2.settled)

/-- The cursor at the first delimiter. -/
def atDelimiter (cursor : Cursor) (delimiters : List Delimiter) : Cursor :=
  { cursor with
    rest := fromStop (delimiters ++ cursor.stops) [] cursor.settled.rest, pending? := none }

/-- The text between two cursors. -/
def textUpTo (start finish : Cursor) : List Char :=
  Lexeme.joined (start.rest.take (start.rest.length - finish.rest.length))

/-! ## Blocks -/

/-- Behind a block that is read for itself, the cursor is where it is behind one that is not. -/
theorem nested_snd (cursor : Cursor) (reader : Reader α) :
    (cursor.nested reader).2 = cursor.settled := by
  cases hpending : cursor.pending? with
  | none => rw [nested, hpending, settled_of_pending? hpending]
  | some bracket =>
    obtain ⟨passed, hreach⟩ := reader.reaches (cursor.inside bracket)
    have hupcoming : Component.ofLexemes cursor.rest =
        passed ++ (reader.read (cursor.inside bracket)).2.upcoming := hreach.upcoming_eq
    have hpasses : ∀ component ∈ passed, component.passes [.closing bracket] := hreach.passes
    have hafter : (enclosed [bracket] (reader.read (cursor.inside bracket)).2.settled.rest).after =
        (enclosed [bracket] cursor.rest).after := by
      rw [(Component.ofLexemes_enclosed bracket cursor.rest).2, hupcoming,
        List.dropWhile_append_of_pos hpasses, upcoming, ← (Component.ofLexemes_enclosed _ _).2]
    rw [nested, settled, hpending]
    exact congrArg (fun rest ↦ { cursor with rest := rest, pending? := none }) hafter

theorem nested_fst {cursor : Cursor} {bracket : Bracket} (h : cursor.pending? = some bracket)
    {reader : Reader α} (hreader : reader.IsExhaustive) :
    (cursor.nested reader).1 = some (reader.read (cursor.inside bracket)).1 := by
  rw [nested, h]
  exact if_pos (hreader _)

/-- A reader that stops right away has no result if the block is not empty. -/
example : (nested ⟨[⟨.ident ['a'], ['a']⟩], some .curly, []⟩
    ⟨fun start ↦ (0, start), fun start ↦ ⟨[], .refl start⟩⟩).1 = none := rfl

/-! ## Delimiters -/

theorem upcoming_within (cursor : Cursor) (delimiters : List Delimiter) :
    (cursor.within delimiters).upcoming = cursor.upcoming := by
  unfold upcoming settled within
  cases cursor.pending? <;> rfl

/-- The cursor stands at the delimiter whatever has been read in front of it. -/
theorem untilBefore_snd (cursor : Cursor) (delimiters : List Delimiter) (reader : Reader α) :
    (cursor.untilBefore delimiters reader).2 = cursor.atDelimiter delimiters := by
  obtain ⟨passed, hreach⟩ := reader.reaches (cursor.within delimiters)
  have hrest : fromStop (delimiters ++ cursor.stops) []
        (reader.read (cursor.within delimiters)).2.settled.rest =
      fromStop (delimiters ++ cursor.stops) [] cursor.settled.rest := by
    rw [← Component.lexemesIn_ofLexemes (fromStop _ _ _), ofLexemes_fromStop,
      ← Component.lexemesIn_ofLexemes (fromStop _ _ cursor.settled.rest), ofLexemes_fromStop]
    have hupcoming := upcoming_within cursor delimiters ▸ hreach.upcoming_eq
    have hpasses : ∀ component ∈ passed, component.passes (delimiters ++ cursor.stops) :=
      hreach.passes
    rw [← upcoming, ← upcoming, hupcoming, List.dropWhile_append_of_pos hpasses]
  rw [untilBefore, atDelimiter]
  exact congrArg (fun rest ↦ { cursor with rest := rest, pending? := none }) hrest

theorem untilBefore_fst (cursor : Cursor) (delimiters : List Delimiter) {reader : Reader α}
    (hreader : reader.IsExhaustive) :
    (cursor.untilBefore delimiters reader).1 =
      some (reader.read (cursor.within delimiters)).1 :=
  if_pos (hreader _)

theorem upcoming_atDelimiter (cursor : Cursor) (delimiters : List Delimiter) :
    (cursor.atDelimiter delimiters).upcoming =
      cursor.upcoming.dropWhile (Component.passes (delimiters ++ cursor.stops)) :=
  ofLexemes_fromStop _ _

/-- What is in front of the delimiter begins neither with one nor with any other stop. -/
theorem passes_of_mem_view_within {cursor : Cursor} {delimiters : List Delimiter}
    {component : Component} (h : component ∈ (cursor.within delimiters).view) :
    component.passes delimiters ∧ component.passes cursor.stops :=
  Component.passes_append_iff.1 (passes_of_mem_view h)

theorem reaches_atDelimiter (cursor : Cursor) (delimiters : List Delimiter) :
    cursor.Reaches (cursor.atDelimiter delimiters) (cursor.within delimiters).view where
  stops_eq := rfl
  suffix := (fromStop_suffix _ _ _).trans (settled_suffix cursor)
  upcoming_eq := by
    rw [upcoming_atDelimiter, view, upcoming_within]
    exact (List.takeWhile_append_dropWhile).symm
  passes _ hmem := (passes_of_mem_view_within hmem).2

/-- The first component behind begins with a delimiter. -/
theorem not_passes_of_view_atDelimiter {cursor : Cursor} {delimiters : List Delimiter}
    {component : Component} {more : List Component}
    (h : (cursor.atDelimiter delimiters).view = component :: more) :
    component.passes delimiters = false := by
  have hpasses : component.passes (cursor.atDelimiter delimiters).stops :=
    passes_of_mem_view (h ▸ List.mem_cons_self)
  obtain ⟨behind, hbehind⟩ : (cursor.atDelimiter delimiters).view <+:
      (cursor.atDelimiter delimiters).upcoming := List.takeWhile_prefix _
  rw [h, upcoming_atDelimiter, List.cons_append] at hbehind
  have hnot := List.head?_dropWhile_not (Component.passes (delimiters ++ cursor.stops))
    cursor.upcoming
  rw [← hbehind] at hnot
  have hstop : component.passes (delimiters ++ cursor.stops) = false := hnot
  rw [← Bool.not_eq_true, Component.passes_append_iff] at hstop
  exact Bool.eq_false_iff.2 fun hdelimiters ↦ hstop ⟨hdelimiters, hpasses⟩

/-- The cursor behind the delimiter has passed over it, if there is one. -/
theorem reaches_untilAfter (cursor : Cursor) (delimiters : List Delimiter) (reader : Reader α) :
    cursor.Reaches (cursor.untilAfter delimiters reader).2
      ((cursor.within delimiters).view ++ (cursor.atDelimiter delimiters).view.head?.toList) := by
  refine (reaches_atDelimiter cursor delimiters).trans ?_
  rw [untilAfter, untilBefore_snd]
  rcases take_cases (cursor.atDelimiter delimiters) with
    ⟨htake, hview⟩ | ⟨component, finish, htake, hreach, -, -⟩
  · rw [htake, hview, settled_settled]
    exact reaches_settled _
  · have hsettled := hreach.trans (reaches_settled finish)
    rw [htake, hreach.view_eq]
    exact hsettled

/-! ## Texts between cursors -/

theorem textUpTo_eq {start finish : Cursor} {passed : List Component}
    (h : start.Reaches finish passed) (hstart : start.pending? = none)
    (hfinish : finish.pending? = none) : start.textUpTo finish = Component.text passed := by
  rw [textUpTo, h.rest_eq hstart hfinish, List.length_append, Nat.add_sub_cancel, List.take_left,
    Component.text]

end Cursor

end TouchTarget.Css
