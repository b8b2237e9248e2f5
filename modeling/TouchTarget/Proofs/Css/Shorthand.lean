import TouchTarget.Css.Length
import TouchTarget.Proofs.Css.Blocks
import TouchTarget.Proofs.Css.FirstLength
import TouchTarget.Proofs.Css.Pieces
import TouchTarget.Proofs.Text.Runs

/-!
# Values and words of the padding shorthand

The shorthand is cut into words before anything is known of its tokens. Where no value and no
comment has a blank character inside, and no comment stands alone, its words are its values, with
the comments that stand right beside them. The main statement says that the sides are then the
lengths of the values. A value that is cut counts as several, so that a function with a space
between its arguments does not give its length to all sides.
-/

namespace TouchTarget.Css

namespace Component

/-- Blank space. -/
def isBlank (component : Component) : Bool :=
  component.token? = some .blank

def isComment (component : Component) : Bool :=
  component.token? = some .comment

end Component

/-- Without comments the text consists of values between blank space, in each of which nothing is
open at its end. -/
structure IsShorthand (shown : List Char) (values : List Component) : Prop where
  runs_eq : Text.runs Component.isBlank ((components shown).filter (!·.isComment)) =
    values.map ([·])
  isClosed : ∀ value ∈ values, IsClosed (Component.text [value])

/-- Blank characters stand in blank space only, and between blank space there are not comments
alone. -/
structure IsUncut (shown : List Char) : Prop where
  notBlank : ∀ component ∈ components shown, component.isBlank = false →
    ∀ c ∈ Component.text [component], Text.isBlank c = false
  joined : ∀ run ∈ Text.runs Component.isBlank (components shown),
    ∃ component ∈ run, component.isComment = false

/-! ## The text of components -/

namespace Component

theorem text_eq_flatMap (components : List Component) :
    text components = components.flatMap fun component ↦ text [component] := by
  induction components with
  | nil => rfl
  | cons component components ih =>
    rw [List.flatMap_cons, ← ih, ← text_append, List.singleton_append]

theorem exists_of_token? {component : Component} {token : Token}
    (h : component.token? = some token) : ∃ spelling, component = .leaf ⟨token, spelling⟩ := by
  cases component with
  | leaf lexeme =>
    obtain rfl := Option.some.inj h
    exact ⟨lexeme.text, rfl⟩
  | block opener body closer? => cases h

variable {shown : List Char} {component : Component}

theorem text_ne_nil (h : component ∈ components shown) : text [component] ≠ [] := by
  obtain ⟨lexeme, rest, hlexemes⟩ := List.exists_cons_of_ne_nil component.lexemes_ne_nil
  obtain ⟨c, spelling, -, htext, -⟩ :=
    Lexeme.exists_run_of_mem (mem_lexemes h (hlexemes ▸ List.mem_cons_self))
  rw [text, lexemesIn, hlexemes, List.cons_append, Lexeme.joined_cons, htext, List.cons_append]
  exact List.cons_ne_nil c _

theorem isBlank_of_mem_text (h : component ∈ components shown) (hblank : component.isBlank) :
    ∀ c ∈ text [component], Text.isBlank c := by
  obtain ⟨spelling, rfl⟩ := exists_of_token? (of_decide_eq_true hblank)
  intro c hc
  have hmem : c ∈ spelling := by simpa [text, lexemesIn, lexemes] using hc
  apply isBlank_of_isSpace
  exact Lexeme.isSpace_of_blank (mem_lexemes h List.mem_cons_self) rfl c hmem

end Component

/-! ## Comments beside a value -/

theorem token_of_mem_comments {comments : List Component}
    (h : ∀ comment ∈ comments, comment.isComment) :
    ∀ lexeme ∈ Component.lexemesIn comments, lexeme.token = .comment := by
  induction comments with
  | nil =>
    intro lexeme hmem
    cases hmem
  | cons comment comments ih =>
    rw [List.forall_mem_cons] at h
    obtain ⟨spelling, rfl⟩ := Component.exists_of_token? (of_decide_eq_true h.1)
    rw [Component.lexemesIn, Component.lexemes, List.singleton_append, List.forall_mem_cons]
    exact ⟨rfl, ih h.2⟩

/-- Comments that follow a text are lexemes of their own if nothing is open at its end. -/
theorem lexemes_append_comments {text : List Char} (htext : EndsBetweenLexemes text)
    {comments after : List Lexeme}
    (h : lexemes (Lexeme.joined (comments ++ after)) = comments ++ after)
    (hcomments : ∀ lexeme ∈ comments, lexeme.token = .comment) :
    lexemes (text ++ Lexeme.joined comments) = lexemes text ++ comments := by
  have hown : lexemes (Lexeme.joined comments) = comments := by
    have happend : lexemes (Lexeme.joined comments ++ []) = comments ++ lexemes [] :=
      lexemes_comments_append h hcomments fun _ ↦ rfl
    rwa [lexemes_nil, List.append_nil, List.append_nil] at happend
  cases comments with
  | nil => rw [Lexeme.joined_nil, List.append_nil, List.append_nil]
  | cons first comments =>
    have hmem : first ∈ lexemes (Lexeme.joined (first :: comments)) := by
      rw [hown]
      exact List.mem_cons_self
    obtain ⟨rest, hfirst⟩ := Lexeme.text_of_comment hmem (hcomments first List.mem_cons_self)
    have hslash : State.ExtendsNone '/' :=
      State.extendsNone_of_class rfl rfl rfl rfl (by decide)
    rw [Lexeme.joined_cons, hfirst, List.cons_append] at hown ⊢
    rw [lexemes_append_of_extendsNone htext hslash, hown]

variable {shown : List Char} {before after : List Component} {value : Component}

/-- The text of a value with comments beside it has the lexemes that the text of the value alone has
and the comments. -/
theorem lexemes_text_of_comments (hplace : before ++ value :: after <:+: components shown)
    (hbefore : ∀ comment ∈ before, comment.isComment)
    (hafter : ∀ comment ∈ after, comment.isComment)
    (hvalue : EndsBetweenLexemes (Component.text [value])) :
    lexemes (Component.text (before ++ value :: after)) = Component.lexemesIn before ++
      (lexemes (Component.text [value]) ++ Component.lexemesIn after) := by
  obtain ⟨left, right, hshown⟩ := hplace
  have hfront : lexemes shown = Component.lexemesIn left ++
      (Component.lexemesIn before ++ Component.lexemesIn (value :: after ++ right)) := by
    rw [← lexemesIn_components, ← hshown]
    simp only [Component.lexemesIn_append, List.append_assoc]
  have hback : lexemes shown = Component.lexemesIn (left ++ before ++ [value]) ++
      (Component.lexemesIn after ++ Component.lexemesIn right) := by
    rw [← lexemesIn_components, ← hshown]
    simp only [Component.lexemesIn_append, Component.lexemesIn, List.append_assoc,
      List.append_nil]
  have hvalueAfter : lexemes (Component.text (value :: after)) =
      lexemes (Component.text [value]) ++ Component.lexemesIn after := by
    rw [← List.singleton_append, Component.text_append]
    exact lexemes_append_comments hvalue (lexemes_joined_back hback) (token_of_mem_comments hafter)
  rw [Component.text_append, ← hvalueAfter]
  apply lexemes_comments_append (lexemes_joined_back hfront) (token_of_mem_comments hbefore)
  intro hnil
  rw [Component.lexemesIn_append, Lexeme.joined_append, List.append_eq_nil_iff] at hnil
  exact hnil.1

/-- A value has the same length with comments beside it. -/
theorem wordLength_of_comments (hplace : before ++ value :: after <:+: components shown)
    (hbefore : ∀ comment ∈ before, comment.isComment)
    (hafter : ∀ comment ∈ after, comment.isComment)
    (hvalue : EndsBetweenLexemes (Component.text [value])) :
    wordLength (Component.text (before ++ value :: after)) =
      wordLength (Component.text [value]) := by
  have htrivia {comments : List Component} (h : ∀ comment ∈ comments, comment.isComment) :
      ∀ lexeme ∈ Component.lexemesIn comments, lexeme.token.isTrivia := by
    intro lexeme hmem
    rw [token_of_mem_comments h lexeme hmem]
    rfl
  rw [wordLength, wordLength, lengthOf?, lengthOf?, components, components,
    Component.lengthIn?_ofLexemes, Component.lengthIn?_ofLexemes,
    lexemes_text_of_comments hplace hbefore hafter hvalue,
    firstLength_trivia_append (htrivia hbefore), firstLength_append_trivia (htrivia hafter)]

/-! ## Words and values -/

/-- The words of the text are its values with the comments beside them. -/
theorem words_eq_map_text (huncut : IsUncut shown) :
    Text.words shown = (Text.runs Component.isBlank (components shown)).map Component.text := by
  have hparted : ∀ component ∈ components shown, ∀ c ∈ Component.text [component],
      Text.isBlank c = component.isBlank := by
    intro component hmem
    cases hblank : component.isBlank with
    | true => exact Component.isBlank_of_mem_text hmem hblank
    | false => exact huncut.notBlank component hmem hblank
  have hrun : ∀ run ∈ Text.runs Component.isBlank (components shown),
      run.flatMap (fun component ↦ Component.text [component]) ≠ [] := by
    intro run hmem
    obtain ⟨component, rest, rfl⟩ := List.exists_cons_of_ne_nil (Text.ne_nil_of_mem_runs hmem)
    have hcomponent : component ∈ components shown :=
      (Text.infix_of_mem_runs hmem).subset List.mem_cons_self
    rw [List.flatMap_cons]
    exact List.append_ne_nil_of_left_ne_nil (Component.text_ne_nil hcomponent) _
  have hruns := Text.runs_flatMap hparted (fun _ hmem _ ↦ Component.text_ne_nil hmem) hrun
  rw [← Component.text_eq_flatMap, Component.text_components] at hruns
  rw [Text.words_eq_runs, hruns]
  exact List.map_congr_left fun run _ ↦ (Component.text_eq_flatMap run).symm

theorem map_wordLength_words {values : List Component} (hvalues : IsShorthand shown values)
    (huncut : IsUncut shown) :
    (Text.words shown).map wordLength =
      values.map fun value ↦ wordLength (Component.text [value]) := by
  have hkeeps : ∀ component ∈ components shown, component.isBlank → !component.isComment := by
    intro component _ hblank
    obtain ⟨spelling, rfl⟩ := Component.exists_of_token? (of_decide_eq_true hblank)
    rfl
  have hjoined : ∀ run ∈ Text.runs Component.isBlank (components shown),
      ∃ component ∈ run, !component.isComment := by
    simpa using huncut.joined
  have hfilter := (Text.runs_filter hkeeps hjoined).symm.trans hvalues.runs_eq
  have hlength : ∀ run ∈ Text.runs Component.isBlank (components shown),
      wordLength (Component.text run) =
        wordLength (Component.text (run.filter (!·.isComment))) := by
    intro run hmem
    obtain ⟨value, hvalue, hrun⟩ : ∃ value ∈ values, run.filter (!·.isComment) = [value] := by
      have hmap : run.filter (!·.isComment) ∈ values.map ([·]) :=
        hfilter ▸ List.mem_map_of_mem hmem
      obtain ⟨value, hvalue, heq⟩ := List.mem_map.1 hmap
      exact ⟨value, hvalue, heq.symm⟩
    obtain ⟨before, after, rfl, hbefore, -, hafter⟩ := List.filter_eq_cons_iff.1 hrun
    rw [hrun]
    apply wordLength_of_comments (Text.infix_of_mem_runs hmem)
    · simpa using hbefore
    · simpa using List.filter_eq_nil_iff.1 hafter
    · exact (hvalues.isClosed value hvalue).endsBetweenLexemes
  calc
    (Text.words shown).map wordLength =
        (Text.runs Component.isBlank (components shown)).map
          (fun run ↦ wordLength (Component.text run)) := by
      rw [words_eq_map_text huncut, List.map_map]
      rfl
    _ = ((Text.runs Component.isBlank (components shown)).map (List.filter (!·.isComment))).map
          fun run ↦ wordLength (Component.text run) := by
      rw [List.map_map]
      exact List.map_congr_left hlength
    _ = values.map fun value ↦ wordLength (Component.text [value]) := by
      rw [hfilter, List.map_map]
      rfl

/-- Where no blank character stands but between values, and no comment alone, the sides are the
lengths of the values: all of them, first the vertical and then the horizontal ones, or each in its
turn. Any other number of values gives no space. -/
theorem padding_of_values {raw : String} {values : List Component}
    (hvalues : IsShorthand (raw.toList.takeWhile (· != '!')) values)
    (huncut : IsUncut (raw.toList.takeWhile (· != '!'))) :
    let side (value : Component) := (length? (.ofList (Component.text [value]))).getD 0
    (∀ all, values = [all] → padding raw = .uniform (side all)) ∧
      (∀ vertical horizontal, values = [vertical, horizontal] →
        padding raw = .symmetric (side vertical) (side horizontal)) ∧
      (∀ top right bottom left, values = [top, right, bottom, left] →
        padding raw = ⟨side top, side right, side bottom, side left⟩) ∧
      (values.length ∉ [1, 2, 4] → padding raw = .zero) := by
  intro side
  have hside (value : Component) : wordLength (Component.text [value]) = side value := by
    rw [wordLength]
    simp only [side, length?, String.toList_ofList]
  have hpadding : padding raw = .ofShorthand (values.map side) := by
    rw [padding, map_wordLength_words hvalues huncut]
    simp only [hside]
  rw [hpadding]
  refine ⟨?_, ?_, ?_, ?_⟩
  · rintro all rfl
    rfl
  · rintro vertical horizontal rfl
    rfl
  · rintro top right bottom left rfl
    rfl
  · intro hlength
    apply Edges.ofShorthand_eq_zero
    rwa [List.length_map]

/-- A function and a dimension are the values here, the comment belongs to the first word, and what
is behind the mark does not count. -/
theorem padding_of_values_function_and_dimension :
    (∃ values, IsShorthand ("calc(10px+5px)/**/ 7px !x y".toList.takeWhile (· != '!')) values ∧
        values.length = 2) ∧
      IsUncut ("calc(10px+5px)/**/ 7px !x y".toList.takeWhile (· != '!')) ∧
      padding "calc(10px+5px)/**/ 7px !x y" = .symmetric 10 7 := by
  have hvalues : IsShorthand ("calc(10px+5px)/**/ 7px !x y".toList.takeWhile (· != '!'))
      ((components "calc(10px+5px)/**/ 7px ".toList).filter (!·.isTrivia)) :=
    ⟨rfl, by decide +kernel⟩
  have hall : ∀ component ∈ components ("calc(10px+5px)/**/ 7px !x y".toList.takeWhile (· != '!')),
      component.isBlank = false → (Component.text [component]).all (!Text.isBlank ·) := by
    decide +kernel
  have huncut : IsUncut ("calc(10px+5px)/**/ 7px !x y".toList.takeWhile (· != '!')) :=
    ⟨by simpa only [List.all_eq_true, Bool.not_eq_true'] using hall, by decide +kernel⟩
  have hpadding := (padding_of_values hvalues huncut).2.1 _ _ rfl
  exact ⟨⟨_, hvalues, rfl⟩, huncut, hpadding.trans (by decide +kernel)⟩

/-- A space inside a function or a comment, a comment between two spaces and a no-break space inside
a dimension all make more words than there are values. -/
theorem padding_ne_of_cut :
    (∃ values, IsShorthand ("max(12px, 1rem)".toList.takeWhile (· != '!')) values ∧
        values.map (fun value ↦ length? (.ofList (Component.text [value]))) = [some 12] ∧
        padding "max(12px, 1rem)" ≠ .uniform 12) ∧
      (∃ values, IsShorthand ("1px /**/ 2px".toList.takeWhile (· != '!')) values ∧
        values.map (fun value ↦ length? (.ofList (Component.text [value]))) = [some 1, some 2] ∧
        padding "1px /**/ 2px" ≠ .symmetric 1 2) ∧
      (∃ values, IsShorthand ("1px/* */ 2px".toList.takeWhile (· != '!')) values ∧
        values.map (fun value ↦ length? (.ofList (Component.text [value]))) = [some 1, some 2] ∧
        padding "1px/* */ 2px" ≠ .symmetric 1 2) ∧
      (∃ values, IsShorthand ("1px\u00a02px".toList.takeWhile (· != '!')) values ∧
        values.map (fun value ↦ length? (.ofList (Component.text [value]))) = [none] ∧
        padding "1px\u00a02px" ≠ .uniform 0) := by
  refine ⟨⟨(components "max(12px, 1rem)".toList).filter (!·.isTrivia), ⟨rfl, ?_⟩, ?_, ?_⟩,
    ⟨(components "1px /**/ 2px".toList).filter (!·.isTrivia), ⟨rfl, ?_⟩, ?_, ?_⟩,
    ⟨(components "1px/* */ 2px".toList).filter (!·.isTrivia), ⟨rfl, ?_⟩, ?_, ?_⟩,
    ⟨(components "1px\u00a02px".toList).filter (!·.isTrivia), ⟨rfl, ?_⟩, ?_, ?_⟩⟩ <;> decide +kernel

end TouchTarget.Css
