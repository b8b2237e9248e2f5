import TouchTarget.Proofs.Html.StyleRegion

/-!
# What ends the style region

A start tag is one of a style element only if its name ends behind `style`. The region that begins
behind it ends at the first text that looks like an end tag, whatever its name goes on with. The
main statement compares this with the region that ends at an end tag of exactly this name: the two
are the same in a document, or both missing, exactly if what looks like the first end tag is one.
-/

namespace TouchTarget.Html

open Text

/-- A character that ends the name in an end tag: `>`, `/` or white space. -/
def endsEndTagName (c : Char) : Bool :=
  endsName c || c == '\x0c'

/-- An end tag of a style element begins here, and not one with a longer name. -/
def isEndTag (text : List Char) : Bool :=
  startsWith endTag text && (text.drop endTag.length).head?.any endsEndTagName

/-- The first style element has its text from here on. -/
def IsContentStart (document : List Char) (start : Nat) : Prop :=
  ∃ opening close, IsFirst (fun k ↦ isOpening (document.drop k)) 0 opening ∧
    IsFirst (fun k ↦ (document.drop k).head? = some '>') (opening + startTag.length) close ∧
    close + 1 = start

/-- The region runs from the beginning of the element's text to the first place at which the element
ends. -/
def IsRegion (ends : List Char → Bool) (document region : List Char) : Prop :=
  ∃ start stop, IsContentStart document start ∧
    IsFirst (fun k ↦ ends (document.drop k)) start stop ∧ (document.take stop).drop start = region

theorem IsContentStart.eq {document : List Char} {start other : Nat}
    (h : IsContentStart document start) (hother : IsContentStart document other) :
    start = other := by
  obtain ⟨opening, close, hopening, hclose, rfl⟩ := h
  obtain ⟨opening', close', hopening', hclose', rfl⟩ := hother
  obtain rfl := hopening.eq hopening'
  rw [hclose.eq hclose']

/-- The region ends at the first text that looks like an end tag. -/
theorem styleRegion?_eq_some_iff (document region : String) :
    styleRegion? document = some region ↔
      IsRegion (startsWith endTag) document.toList region.toList := by
  have hregion : styleRegion? document = some region ↔
      ((afterName? document.toList).bind afterTag?).bind beforeEndTag? = some region.toList := by
    rw [styleRegion?, Option.map_eq_some_iff]
    constructor
    · rintro ⟨letters, hletters, rfl⟩
      rw [hletters, String.toList_ofList]
    · intro h
      exact ⟨region.toList, h, String.ofList_toList⟩
  rw [hregion, region_eq_some_iff]
  constructor
  · rintro ⟨opening, close, stop, hopening, hclose, hstop, hslice⟩
    exact ⟨close + 1, stop, ⟨opening, close, hopening, hclose, rfl⟩, hstop, hslice⟩
  · rintro ⟨_, stop, ⟨opening, close, hopening, hclose, rfl⟩, hstop, hslice⟩
    exact ⟨opening, close, stop, hopening, hclose, hstop, hslice⟩

theorem startsWith_of_isEndTag {text : List Char} (h : isEndTag text) : startsWith endTag text :=
  (Bool.and_eq_true_iff.1 h).1

/-- The text goes on where something like an end tag begins. -/
theorem lt_length_of_startsWith {document : List Char} {k : Nat}
    (h : startsWith endTag (document.drop k)) : k < document.length := by
  apply Nat.lt_of_not_le
  intro hle
  rw [List.drop_eq_nil_of_le hle] at h
  exact absurd h (by decide)

/-- Two regions of the same text end at the same place. -/
theorem eq_of_take_drop_eq {document : List Char} {start stop other : Nat}
    (hstop : start ≤ stop ∧ stop < document.length)
    (hother : start ≤ other ∧ other < document.length)
    (h : (document.take stop).drop start = (document.take other).drop start) : stop = other := by
  have hlength := congrArg List.length h
  rw [List.length_drop, List.length_drop, List.length_take, List.length_take] at hlength
  omega

/-- The two regions are the same if what looks like the first end tag is one. -/
theorem isRegion_congr {document : List Char}
    (h : ∀ start stop, IsContentStart document start →
      IsFirst (fun k ↦ startsWith endTag (document.drop k)) start stop →
        isEndTag (document.drop stop)) (region : List Char) :
    IsRegion (startsWith endTag) document region ↔ IsRegion isEndTag document region := by
  constructor
  · rintro ⟨start, stop, hstart, hstop, hslice⟩
    refine ⟨start, stop, hstart, ⟨hstop.start_le, h start stop hstart hstop, ?_⟩, hslice⟩
    intro k hk hlt hend
    exact hstop.least k hk hlt (startsWith_of_isEndTag hend)
  · rintro ⟨start, stop, hstart, hstop, hslice⟩
    obtain ⟨first, hfirst⟩ := exists_isFirst
      (p := fun k ↦ startsWith endTag (document.drop k)) hstop.start_le
      (startsWith_of_isEndTag hstop.holds)
    have hsame : first = stop := by
      apply IsFirst.eq _ hstop
      refine ⟨hfirst.start_le, h start first hstart hfirst, ?_⟩
      intro k hk hlt hend
      exact hfirst.least k hk hlt (startsWith_of_isEndTag hend)
    exact ⟨start, stop, hstart, hsame ▸ hfirst, hslice⟩

/-- Behind the region of a document stands what looks like an end tag. The region is the one that
ends at an end tag of exactly this name, and missing if there is no such tag, exactly if what looks
like the first end tag behind the start tag is one. -/
theorem styleRegion?_ends_at_endTag_iff (document : String) :
    (∀ region, styleRegion? document = some region →
      ∃ before after, document.toList = before ++ region.toList ++ after ∧
        startsWith endTag after) ∧
      ((∀ region, styleRegion? document = some region ↔
          IsRegion isEndTag document.toList region.toList) ↔
        ∀ start stop, IsContentStart document.toList start →
          IsFirst (fun k ↦ startsWith endTag (document.toList.drop k)) start stop →
            isEndTag (document.toList.drop stop)) := by
  simp only [styleRegion?_eq_some_iff]
  refine ⟨?_, ?_, ?_⟩
  · rintro region ⟨start, stop, -, hstop, hslice⟩
    refine ⟨(document.toList.take stop).take start, document.toList.drop stop, ?_, hstop.holds⟩
    rw [← hslice, List.take_append_drop, List.take_append_drop]
  · intro h start stop hstart hstop
    have hregion := (h (.ofList ((document.toList.take stop).drop start))).1
      ⟨start, stop, hstart, hstop, String.toList_ofList.symm⟩
    obtain ⟨start', stop', hstart', hstop', hslice⟩ := hregion
    obtain rfl := hstart.eq hstart'
    rw [String.toList_ofList] at hslice
    obtain rfl := eq_of_take_drop_eq
      ⟨hstop'.start_le, lt_length_of_startsWith (startsWith_of_isEndTag hstop'.holds)⟩
      ⟨hstop.start_le, lt_length_of_startsWith hstop.holds⟩ hslice
    exact hstop'.holds
  · intro h region
    exact isRegion_congr h region.toList

/-- An end tag with a longer name ends the region, which should go on to the end tag behind it. -/
theorem styleRegion?_ends_at_longer_name :
    styleRegion? "<style>a</styles>b</style>" = some "a" ∧
      ¬IsRegion isEndTag "<style>a</styles>b</style>".toList "a".toList ∧
      IsRegion isEndTag "<style>a</styles>b</style>".toList "a</styles>b".toList := by
  have hstart : IsContentStart "<style>a</styles>b</style>".toList 7 :=
    ⟨0, 6, (isFirst_zero_iff (by decide) 0).2 rfl,
      ⟨by decide, by decide, fun k hk hlt ↦ absurd hlt (Nat.not_lt_of_le hk)⟩, rfl⟩
  refine ⟨by decide, ?_, 7, 18, hstart, ⟨by decide, by decide, by decide⟩, by decide⟩
  rintro ⟨start, stop, hstart', hstop, hslice⟩
  obtain rfl := hstart.eq hstart'
  have hlt := lt_length_of_startsWith (startsWith_of_isEndTag hstop.holds)
  have hle : 7 ≤ stop := hstop.start_le
  -- A region of one character ends behind it, and there the longer name begins.
  obtain rfl : stop = 8 := eq_of_take_drop_eq ⟨hle, hlt⟩ ⟨by decide, by decide⟩ hslice
  exact absurd hstop.holds (by decide)

end TouchTarget.Html
