import TouchTarget.Proofs.Toml.DistinctKeys
import TouchTarget.Toml.Document

/-!
# The root table of a document

What holds of all values that a reader gives is followed through the ways in which readers are put
together. Scalars have no keys, a list has only values that its elements may be, and a table in curly
brackets is built like that of a document: key by key. Line by line the tables of a document keep
their keys apart, so that its root table has no key twice, and no table inside it either.
-/

namespace TouchTarget.Toml

namespace Reader

variable {α β : Type} {holds : α → Prop}

/-- Whatever the text, a value that is read is as it should be. -/
structure Yields (holds : α → Prop) (reader : Reader α) : Prop where
  of_read : ∀ {text outcome}, reader text = some outcome → holds outcome.1

namespace Yields

theorem any (reader : Reader α) : Yields (fun _ ↦ True) reader :=
  ⟨fun _ ↦ trivial⟩

theorem pure {value : α} (h : holds value) : Yields holds (Pure.pure value) where
  of_read hread := by
    obtain rfl := Option.some.inj hread
    exact h

theorem failure : Yields holds (Alternative.failure : Reader α) :=
  ⟨nofun⟩

theorem bind {reader : Reader β} {next : β → Reader α} {met : β → Prop} (h : Yields met reader)
    (hnext : ∀ value, met value → Yields holds (next value)) : Yields holds (reader >>= next) where
  of_read hread := by
    obtain ⟨⟨value, rest⟩, hvalue, hnextRead⟩ := Option.bind_eq_some_iff.1 hread
    exact (hnext value (h.of_read hvalue)).of_read hnextRead

/-- What is read in front does not matter where the last reader is right in any case. -/
theorem after (reader : Reader β) {next : β → Reader α} (h : ∀ value, Yields holds (next value)) :
    Yields holds (reader >>= next) :=
  (any reader).bind fun value _ ↦ h value

theorem map {reader : Reader β} {f : β → α} (h : ∀ value, holds (f value)) :
    Yields holds (f <$> reader) where
  of_read hread := by
    obtain ⟨⟨value, rest⟩, -, heq⟩ := Option.bind_eq_some_iff.1 hread
    cases heq
    exact h value

theorem seqRight {reader : Reader α} (first : Reader β) (h : Yields holds reader) :
    Yields holds (first *> reader) :=
  after first fun _ ↦ h

theorem seqLeft {reader : Reader α} (h : Yields holds reader) (last : Reader β) :
    Yields holds (reader <* last) :=
  h.bind fun _ hvalue ↦ after last fun _ ↦ pure hvalue

theorem orElse {first second : Reader α} (hfirst : Yields holds first)
    (hsecond : Yields holds second) : Yields holds (first <|> second) where
  of_read {text outcome} hread := by
    have hread : (first text).orElse (fun _ ↦ second text) = some outcome := hread
    cases hresult : first text with
    | none =>
      rw [hresult] at hread
      exact hsecond.of_read hread
    | some result =>
      rw [hresult] at hread
      obtain rfl := Option.some.inj hread
      exact hfirst.of_read hresult

theorem optional {reader : Reader α} (h : Yields holds reader) :
    Yields (fun value? ↦ ∀ value ∈ value?, holds value) (optional reader) := by
  apply orElse
  · constructor
    intro text outcome hread
    obtain ⟨⟨value, rest⟩, hvalue, heq⟩ := Option.bind_eq_some_iff.1 hread
    cases heq
    intro _ hmem
    obtain rfl := Option.some.inj hmem
    exact h.of_read hvalue
  · exact pure nofun

theorem upTo {reader : Reader α} (h : Yields holds reader) (count : Nat) :
    Yields (fun values ↦ ∀ value ∈ values, holds value) (upTo count reader) := by
  induction count with
  | zero => exact pure nofun
  | succ count ih =>
    rw [Reader.upTo]
    apply h.optional.bind
    intro value? hvalue
    cases value? with
    | none => exact pure nofun
    | some value =>
      apply ih.bind
      intro values hvalues
      exact pure (List.forall_mem_cons.2 ⟨hvalue value rfl, hvalues⟩)

theorem many {reader : Reader α} (h : Yields holds reader) :
    Yields (fun values ↦ ∀ value ∈ values, holds value) (many reader) where
  of_read hread := (h.upTo _).of_read hread

theorem separated {reader : Reader α} (separator : Reader β) (h : Yields holds reader) :
    Yields (fun values ↦ ∀ value ∈ values, holds value) (separated separator reader) := by
  unfold Reader.separated
  apply h.bind
  intro first hfirst
  apply (h.seqRight separator).many.bind
  intro others hothers
  exact pure (List.forall_mem_cons.2 ⟨hfirst, hothers⟩)

theorem lift {value? : Option α} (h : ∀ value ∈ value?, holds value) :
    Yields holds (liftM value? : Reader α) where
  of_read hread := by
    obtain ⟨value, hvalue, heq⟩ := Option.bind_eq_some_iff.1 hread
    cases heq
    exact h value hvalue

theorem foldlM {step : α → β → Reader α} {start : α} {items : List β} (hstart : holds start)
    (hstep : ∀ state, ∀ item ∈ items, holds state → Yields holds (step state item)) :
    Yields holds (items.foldlM step start) := by
  induction items generalizing start with
  | nil => exact pure hstart
  | cons item items ih =>
    apply (hstep start item List.mem_cons_self hstart).bind
    intro next hnext
    exact ih hnext fun state item hmem ↦ hstep state item (List.mem_cons_of_mem _ hmem)

end Yields

end Reader

open Reader

/-! ## Scalars -/

theorem yields_integerOf (negative : Bool) (magnitude : Nat) :
    Yields (·.isScalar) (integerOf negative magnitude) := by
  unfold integerOf
  extract_lets value
  split
  · exact .pure rfl
  · exact .failure

theorem yields_floatOf (negative : Bool) (digits : List Char) (exponent : Int) :
    Yields (·.isScalar) (floatOf negative digits exponent) := by
  unfold floatOf
  extract_lets magnitude
  split
  · exact .failure
  · exact .pure rfl

theorem yields_basedInteger (letter : Char) (base : Nat) (isDigit : Char → Bool) :
    Yields (·.isScalar) (basedInteger letter base isDigit) :=
  .after _ fun _ ↦ .after _ fun _ ↦ yields_integerOf ..

theorem yields_decimalNumber : Yields (·.isScalar) decimalNumber := by
  unfold decimalNumber
  apply Yields.after
  intro negative
  apply Yields.after
  intro whole
  apply Yields.after
  intro fraction?
  apply Yields.after
  intro exponent?
  split
  · exact yields_integerOf ..
  · exact yields_floatOf ..

theorem yields_specialNumber : Yields (·.isScalar) specialNumber :=
  .after _ fun _ ↦ .orElse (.seqRight _ (.pure rfl)) (.seqRight _ (.pure rfl))

theorem yields_number : Yields (·.isScalar) number :=
  .orElse (yields_basedInteger ..) <| .orElse (yields_basedInteger ..) <|
    .orElse (yields_basedInteger ..) <| .orElse yields_decimalNumber yields_specialNumber

theorem yields_moment : Yields (·.isScalar) moment :=
  .after _ fun _ ↦ .pure rfl

theorem yields_scalar : Yields (·.isScalar) scalar := by
  unfold scalar
  apply Yields.after
  intro next?
  split
  · exact .map fun _ ↦ rfl
  · exact .map fun _ ↦ rfl
  · exact .seqRight _ (.pure rfl)
  · exact .seqRight _ (.pure rfl)
  · exact yields_moment.orElse yields_number

/-! ## Values -/

theorem yields_array {element : Reader Value} (h : Yields (·.HasDistinctKeys) element) :
    Yields (·.HasDistinctKeys) (array element) := by
  have hseparated := ((h.seqRight gapAndLines).seqLeft gapAndLines).separated (char ',')
  have helements : Yields (fun elements ↦ ∀ element ∈ elements, element.HasDistinctKeys) (do
      let elements ← separated (char ',') (gapAndLines *> element <* gapAndLines)
      discard <| optional (char ',')
      return elements) :=
    hseparated.bind fun _ hmem ↦ .after _ fun _ ↦ .pure hmem
  unfold array
  apply Yields.after
  intro _
  apply helements.optional.bind
  intro elements? hmem
  apply Yields.after
  intro _
  apply Yields.after
  intro _
  apply Yields.pure
  cases elements? with
  | none => exact .array nofun
  | some elements => exact .array (hmem elements rfl)

theorem yields_pair {value : Reader Value} (h : Yields (·.HasDistinctKeys) value) :
    Yields (·.2.2.HasDistinctKeys) (pair value) := by
  unfold pair
  apply Yields.after
  intro key
  apply Yields.after
  intro _
  apply Yields.after
  intro _
  apply h.bind
  intro written hwritten
  exact .pure hwritten

theorem yields_inlineTable {value : Reader Value} (h : Yields (·.HasDistinctKeys) value) :
    Yields (·.HasDistinctKeys) (inlineTable value) := by
  unfold inlineTable
  apply Yields.after
  intro _
  apply ((yields_pair h).seqLeft gap |>.separated (char ',')).optional.bind
  intro pairs? hmem
  apply Yields.after
  intro _
  apply Yields.after
  intro _
  have hpairs : ∀ pair ∈ pairs?.getD [], pair.2.2.HasDistinctKeys := by
    cases pairs? with
    | none => exact nofun
    | some pairs => exact hmem pairs rfl
  apply (Yields.foldlM Entries.HasDistinctKeys.nil fun entries pair hmem hentries ↦
    .lift fun _ hset ↦ hentries.set (hpairs pair hmem) hset).bind
  intro entries hentries
  exact .pure hentries.finished

theorem yields_value (room : Nat) : Yields (·.HasDistinctKeys) (value room) := by
  have hscalar : Yields (·.HasDistinctKeys) scalar :=
    ⟨fun hread ↦ .scalar (yields_scalar.of_read hread)⟩
  induction room with
  | zero => exact hscalar
  | succ room ih =>
    rw [value]
    apply Yields.after
    intro next?
    split
    · exact yields_array ih
    · exact yields_inlineTable ih
    · exact hscalar

/-! ## Lines -/

/-- Neither the current table nor those read before have a key twice, and there will be none either
once the current table is put in its place, whatever it holds by then. -/
structure Progress.HasDistinctKeys (progress : Progress) : Prop where
  entries : progress.entries.HasDistinctKeys
  closed : ∀ entries closed : Entries, entries.HasDistinctKeys →
    { progress with entries := entries }.closed = some closed → closed.HasDistinctKeys

namespace Progress.HasDistinctKeys

variable {progress next : Progress} {path : List String} {key : String}

theorem start : HasDistinctKeys {} where
  entries := .nil
  closed entries closed h hclosed := by
    obtain rfl := Option.some.inj hclosed
    exact h

theorem of_closed (h : progress.HasDistinctKeys) {closed : Entries}
    (hclosed : progress.closed = some closed) : closed.HasDistinctKeys :=
  h.closed _ _ h.entries hclosed

theorem set (h : progress.HasDistinctKeys) {value : Value} (hvalue : value.HasDistinctKeys)
    (hset : progress.set path key value = some next) : next.HasDistinctKeys := by
  obtain ⟨entries, hentries, heq⟩ := Option.bind_eq_some_iff.1 hset
  cases heq
  exact ⟨h.entries.set hvalue hentries, h.closed⟩

theorem openTable (h : progress.HasDistinctKeys)
    (hopen : progress.openTable path key = some next) : next.HasDistinctKeys := by
  obtain ⟨closed, hclosed, hopen⟩ := Option.bind_eq_some_iff.1 hopen
  obtain ⟨outcome, houtcome, heq⟩ := Option.bind_eq_some_iff.1 hopen
  cases heq
  obtain ⟨hentries, hcloses⟩ := (h.of_closed hclosed).openTable houtcome
  exact ⟨hentries, hcloses⟩

theorem openElement (h : progress.HasDistinctKeys)
    (hopen : progress.openElement path key = some next) : next.HasDistinctKeys := by
  obtain ⟨closed, hclosed, hopen⟩ := Option.bind_eq_some_iff.1 hopen
  obtain ⟨tables, htables, heq⟩ := Option.bind_eq_some_iff.1 hopen
  cases heq
  have hdistinct := (h.of_closed hclosed).openList htables
  exact ⟨.nil, fun _ _ hentries hcloses ↦ hdistinct.closeElement hentries hcloses⟩

end Progress.HasDistinctKeys

theorem yields_line {progress : Progress} (h : progress.HasDistinctKeys) :
    Yields (·.HasDistinctKeys) (line progress) := by
  unfold line
  apply Yields.after
  intro next?
  split
  · exact .failure
  · exact .seqRight _ (.pure h)
  · exact .seqRight _ (.pure h)
  · exact .seqRight _ (.pure h)
  · apply Yields.after
    intro _
    apply Yields.after
    intro second?
    split
    · apply Yields.after
      intro key
      iterate 3
        apply Yields.after
        intro _
      exact .lift fun _ hopen ↦ h.openElement hopen
    · apply Yields.after
      intro key
      iterate 2
        apply Yields.after
        intro _
      exact .lift fun _ hopen ↦ h.openTable hopen
  · apply (yields_pair (yields_value _)).bind
    intro pair hpair
    apply Yields.after
    intro _
    exact .lift fun _ hset ↦ h.set hpair hset

theorem yields_lines (count : Nat) {progress : Progress} (h : progress.HasDistinctKeys) :
    Yields (·.HasDistinctKeys) (lines count progress) := by
  induction count generalizing progress with
  | zero => exact .seqRight _ (.pure h)
  | succ count ih =>
    rw [lines]
    apply Yields.after
    intro isAtEnd
    split
    · exact .pure h
    · apply (yields_line h).bind
      intro next hnext
      apply Yields.after
      intro _
      exact ih hnext

/-! ## Documents -/

theorem Reader.Yields.of_run? {α : Type} {holds : α → Prop} {reader : Reader α}
    (h : Yields holds reader) {text : List Char} {value : α} (hrun : reader.run? text = some value) :
    holds value := by
  unfold Reader.run? at hrun
  split at hrun
  next hread =>
    obtain rfl := Option.some.inj hrun
    exact h.of_read hread
  next => cases hrun

/-- The root table of a document has no key twice, and neither has any table inside it. -/
theorem hasDistinctKeys_of_document? {text : String} {entries : List (String × Value)}
    (h : document? text = some entries) : (Value.table entries).HasDistinctKeys := by
  obtain ⟨progress, hprogress, h⟩ := Option.bind_eq_some_iff.1 h
  obtain ⟨closed, hclosed, heq⟩ := Option.bind_eq_some_iff.1 h
  cases heq
  have hdistinct : progress.HasDistinctKeys :=
    Reader.Yields.of_run? (.after _ fun _ ↦ yields_lines _ .start) hprogress
  exact (hdistinct.of_closed hclosed).finished

end TouchTarget.Toml
