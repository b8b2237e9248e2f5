import Mathlib.Data.List.Infix
import TouchTarget.Proofs.Text.Utf8
import TouchTarget.SizeStyle

/-!
# Where the style region is

The style region is described by positions in the bytes of the document: the first opening of a
style element, the first closing angle bracket behind it and the first end tag behind that. The main
statement says that there is a region exactly if there are these three positions, and that it is
what stands between the last two, unchanged. A region thus begins and ends with whole characters.

For a document put together from its parts this gives the sheet: if the element is the first one
and closed behind its text, the sheet is that of the text.
-/

namespace TouchTarget.Html

open Text

/-! ## Words in the bytes of a text -/

def lowerByte (byte : UInt8) : UInt8 :=
  if 0x41 ≤ byte ∧ byte ≤ 0x5A then byte + 0x20 else byte

/-- The bytes begin with a word in any letter case. -/
def BeginsWith (word : List Char) (bytes : List UInt8) : Prop :=
  bytesOf word <+: bytes.map lowerByte

/-- What can follow the name of a style element: `>`, space, tab, line feed, carriage return and
`/`. -/
def nameEnds : List UInt8 := [0x3E, 0x20, 0x09, 0x0A, 0x0D, 0x2F]

/-- A style element begins here. -/
def Opens (bytes : List UInt8) : Prop :=
  BeginsWith startTag bytes ∧ ∃ byte ∈ nameEnds, bytes[startTag.length]? = some byte

def ClosesTag (bytes : List UInt8) : Prop :=
  bytes[0]? = some 0x3E

/-- A word of lower-case letters and other ASCII characters. -/
def IsLowerWord (word : List Char) : Prop :=
  ∀ letter ∈ word, letter.toNat < 128 ∧ letter.toLower = letter

instance (word : List Char) : Decidable (IsLowerWord word) :=
  List.decidableBAll (fun letter : Char ↦ letter.toNat < 128 ∧ letter.toLower = letter) word

theorem isLowerWord_startTag : IsLowerWord startTag := by decide

theorem isLowerWord_endTag : IsLowerWord endTag := by decide

theorem toLower_eq_self {c : Char} (h : 128 ≤ c.toNat) : c.toLower = c := by
  apply dif_neg
  rintro ⟨-, hle⟩
  have hle' : c.toNat ≤ 90 := hle
  omega

theorem lowerByte_of_lt {c : Char} (h : c.toNat < 128) :
    lowerByte (UInt8.ofNat c.toNat) = UInt8.ofNat c.toLower.toNat ∧ c.toLower.toNat < 128 := by
  have hall : ∀ n < 128, lowerByte (UInt8.ofNat (Char.ofNat n).toNat) =
      UInt8.ofNat (Char.ofNat n).toLower.toNat ∧ (Char.ofNat n).toLower.toNat < 128 := by decide
  have hc := hall c.toNat h
  rwa [Char.ofNat_toNat] at hc

theorem le_toNat_lowerByte {byte : UInt8} (h : 128 ≤ byte.toNat) :
    128 ≤ (lowerByte byte).toNat := by
  rw [lowerByte, if_neg]
  · exact h
  · rintro ⟨-, hle⟩
    have hle' : byte.toNat ≤ 90 := hle
    omega

theorem ofNat_toNat_inj {c d : Char} (hc : c.toNat < 128) (hd : d.toNat < 128) :
    UInt8.ofNat c.toNat = UInt8.ofNat d.toNat ↔ c = d := by
  constructor
  · intro h
    have hnat := congrArg UInt8.toNat h
    rw [UInt8.toNat_ofNat', UInt8.toNat_ofNat', Nat.mod_eq_of_lt (by omega),
      Nat.mod_eq_of_lt (by omega)] at hnat
    exact Char.toNat_inj.1 hnat
  · rintro rfl
    rfl

theorem startsWith_nil (text : List Char) : startsWith [] text = true := by
  rw [startsWith, List.length_nil, List.take_zero, sameLetters_self]

theorem startsWith_cons_cons (letter : Char) (letters : List Char) (c : Char) (text : List Char) :
    startsWith (letter :: letters) (c :: text) =
      (c.toLower == letter.toLower && startsWith letters text) := rfl

/-- A word that the bytes begin with is one that the characters begin with. -/
theorem beginsWith_bytesOf_iff {word : List Char} (hword : IsLowerWord word) (text : List Char) :
    BeginsWith word (bytesOf text) ↔ startsWith word text := by
  unfold BeginsWith
  induction word generalizing text with
  | nil => exact iff_of_true List.nil_prefix (startsWith_nil text)
  | cons letter word ih =>
    obtain ⟨⟨hletter, hlower⟩, hrest⟩ := List.forall_mem_cons.1 hword
    rw [bytesOf_cons_of_lt hletter]
    cases text with
    | nil => exact iff_of_false (List.not_mem_nil <| ·.subset List.mem_cons_self) Bool.false_ne_true
    | cons c text =>
      rw [startsWith_cons_cons, Bool.and_eq_true, beq_iff_eq, hlower]
      rcases Nat.lt_or_ge c.toNat 128 with hc | hc
      · obtain ⟨hbyte, hlt⟩ := lowerByte_of_lt hc
        rw [bytesOf_cons_of_lt hc, List.map_cons, List.cons_prefix_cons, hbyte, ih hrest,
          ofNat_toNat_inj hletter hlt, eq_comm]
      · obtain ⟨byte, bytes, hbytes, hbyte⟩ := exists_bytesOf_cons_of_le hc text
        rw [toLower_eq_self hc, hbytes, List.map_cons, List.cons_prefix_cons]
        apply iff_of_false
        · rintro ⟨heq, -⟩
          have hle := le_toNat_lowerByte hbyte
          rw [← heq, UInt8.toNat_ofNat', Nat.mod_eq_of_lt (by omega)] at hle
          omega
        · rintro ⟨rfl, -⟩
          omega

/-- A word takes one byte for each of its characters, also in another letter case. -/
theorem offset_of_startsWith {word : List Char} (hword : IsLowerWord word) {text : List Char}
    (h : startsWith word text) :
    offset text word.length = word.length ∧ word.length ≤ text.length := by
  induction word generalizing text with
  | nil => exact ⟨rfl, Nat.zero_le _⟩
  | cons letter word ih =>
    obtain ⟨⟨hletter, hlower⟩, hrest⟩ := List.forall_mem_cons.1 hword
    cases text with
    | nil => cases h
    | cons c text =>
      rw [startsWith_cons_cons, Bool.and_eq_true, beq_iff_eq, hlower] at h
      have hc : c.toNat < 128 := by
        apply Nat.lt_of_not_le
        intro hc
        rw [toLower_eq_self hc] at h
        rw [h.1] at hc
        omega
      obtain ⟨hoffset, hlength⟩ := ih hrest h.2
      rw [List.length_cons, offset_cons_succ, utf8EncodeChar_of_lt hc, hoffset]
      exact ⟨Nat.add_comm _ _, Nat.succ_le_succ hlength⟩

/-! ## The three marks of the region -/

theorem toNat_lt_of_endsName {c : Char} (h : endsName c) : c.toNat < 128 := by
  apply Nat.lt_of_not_le
  intro hle
  simp only [endsName, Bool.or_eq_true, beq_iff_eq] at h
  rcases h with ((((rfl | rfl) | rfl) | rfl) | rfl) | rfl <;> revert hle <;> decide

theorem mem_nameEnds_iff {c : Char} (h : c.toNat < 128) :
    UInt8.ofNat c.toNat ∈ nameEnds ↔ endsName c := by
  have hall : ∀ n < 128, UInt8.ofNat (Char.ofNat n).toNat ∈ nameEnds ↔ endsName (Char.ofNat n) := by
    decide
  have hc := hall c.toNat h
  rwa [Char.ofNat_toNat] at hc

theorem endsName_head?_iff (text : List Char) :
    (∃ byte ∈ nameEnds, (bytesOf text)[0]? = some byte) ↔ text.head?.any endsName := by
  cases text with
  | nil => exact iff_of_false (by rintro ⟨byte, -, ⟨⟩⟩) Bool.false_ne_true
  | cons c text =>
    rw [List.head?_cons, Option.any_some]
    rcases Nat.lt_or_ge c.toNat 128 with hc | hc
    · rw [bytesOf_cons_of_lt hc, ← mem_nameEnds_iff hc]
      constructor
      · rintro ⟨byte, hmem, ⟨⟩⟩
        exact hmem
      · intro hmem
        exact ⟨_, hmem, rfl⟩
    · obtain ⟨byte, bytes, hbytes, hbyte⟩ := exists_bytesOf_cons_of_le hc text
      rw [hbytes]
      apply iff_of_false
      · rintro ⟨_, hmem, ⟨⟩⟩
        have hlt : ∀ mark ∈ nameEnds, mark.toNat < 128 := by simp [nameEnds]
        exact Nat.not_le.2 (hlt byte hmem) hbyte
      · intro hends
        exact Nat.not_le.2 (toNat_lt_of_endsName hends) hc

theorem opens_bytesOf_iff (text : List Char) : Opens (bytesOf text) ↔ isOpening text := by
  rw [Opens, isOpening, Bool.and_eq_true, beginsWith_bytesOf_iff isLowerWord_startTag,
    ← endsName_head?_iff]
  apply and_congr_right
  intro hstart
  -- The byte behind the name is the first one of the character behind it.
  have hbyte : (bytesOf text)[startTag.length]? =
      (bytesOf (text.drop startTag.length))[0]? := by
    rw [← drop_offset, (offset_of_startsWith isLowerWord_startTag hstart).1, List.getElem?_drop,
      Nat.add_zero]
  rw [hbyte]

theorem closesTag_bytesOf_iff (text : List Char) :
    ClosesTag (bytesOf text) ↔ text.head? = some '>' := by
  cases text with
  | nil => exact iff_of_false (by rintro ⟨⟩) (by rintro ⟨⟩)
  | cons c text =>
    rw [ClosesTag, List.head?_cons, Option.some_inj]
    rcases Nat.lt_or_ge c.toNat 128 with hc | hc
    · have hiff := ofNat_toNat_inj hc (by decide : '>'.toNat < 128)
      rw [bytesOf_cons_of_lt hc]
      exact Option.some_inj.trans hiff
    · obtain ⟨byte, bytes, hbytes, hbyte⟩ := exists_bytesOf_cons_of_le hc text
      rw [hbytes]
      apply iff_of_false
      · intro heq
        obtain rfl : byte = 0x3E := Option.some.inj heq
        revert hbyte
        decide
      · rintro rfl
        revert hc
        decide

theorem lt_of_beginsWith {letter : Char} {word : List Char} (hletter : letter.toNat < 128)
    {bytes : List UInt8} (h : BeginsWith (letter :: word) bytes) :
    ∃ byte, bytes[0]? = some byte ∧ byte.toNat < 128 := by
  unfold BeginsWith at h
  rw [bytesOf_cons_of_lt hletter] at h
  cases bytes with
  | nil => exact absurd (h.subset List.mem_cons_self) List.not_mem_nil
  | cons byte bytes =>
    rw [List.map_cons, List.cons_prefix_cons] at h
    refine ⟨byte, rfl, Nat.lt_of_not_le fun hbyte ↦ ?_⟩
    have hle := le_toNat_lowerByte hbyte
    rw [← h.1, UInt8.toNat_ofNat', Nat.mod_eq_of_lt (by omega)] at hle
    omega

theorem lt_of_opens {bytes : List UInt8} (h : Opens bytes) :
    ∃ byte, bytes[0]? = some byte ∧ byte.toNat < 128 :=
  lt_of_beginsWith (by decide) h.1

theorem lt_of_closesTag {bytes : List UInt8} (h : ClosesTag bytes) :
    ∃ byte, bytes[0]? = some byte ∧ byte.toNat < 128 :=
  ⟨0x3E, h, by decide⟩

theorem lt_of_ends {bytes : List UInt8} (h : BeginsWith endTag bytes) :
    ∃ byte, bytes[0]? = some byte ∧ byte.toNat < 128 :=
  lt_of_beginsWith (by decide) h

/-! ## The region among the characters -/

theorem afterName?_eq_some_iff (text rest : List Char) : afterName? text = some rest ↔
    ∃ k, IsFirst (fun k ↦ isOpening (text.drop k)) 0 k ∧
      text.drop (k + startTag.length) = rest := by
  induction text with
  | nil =>
    exact iff_of_false (by rintro ⟨⟩)
      (not_exists_isFirst_nil (fun text ↦ isOpening text) _ (by decide))
  | cons c text ih =>
    rw [afterName?, exists_isFirst_cons_iff (fun text ↦ isOpening text)]
    split
    next => rw [Option.some_inj, Nat.zero_add]
    next =>
      rw [ih]
      simp only [Nat.add_right_comm, List.drop_succ_cons]

theorem afterTag?_eq_some_iff (text rest : List Char) : afterTag? text = some rest ↔
    ∃ k, IsFirst (fun k ↦ (text.drop k).head? = some '>') 0 k ∧ text.drop (k + 1) = rest := by
  induction text with
  | nil =>
    exact iff_of_false (by rintro ⟨⟩)
      (not_exists_isFirst_nil (fun text ↦ text.head? = some '>') _ (by decide))
  | cons c text ih =>
    rw [afterTag?, exists_isFirst_cons_iff (fun text ↦ text.head? = some '>'), List.head?_cons]
    simp only [Option.some_inj]
    split
    next => exact Option.some_inj
    next => exact ih

theorem beforeEndTag?_eq_some_iff (text region : List Char) : beforeEndTag? text = some region ↔
    ∃ k, IsFirst (fun k ↦ startsWith endTag (text.drop k)) 0 k ∧ text.take k = region := by
  induction text generalizing region with
  | nil =>
    exact iff_of_false (by rintro ⟨⟩)
      (not_exists_isFirst_nil (fun text ↦ startsWith endTag text) _ (by decide))
  | cons c text ih =>
    rw [beforeEndTag?, exists_isFirst_cons_iff (fun text ↦ startsWith endTag text)]
    split
    next => rw [Option.some_inj, List.take_zero]
    next =>
      simp only [Option.map_eq_some_iff, ih, List.take_succ_cons]
      constructor
      · rintro ⟨_, ⟨k, hk, rfl⟩, rfl⟩
        exact ⟨k, hk, rfl⟩
      · rintro ⟨k, hk, rfl⟩
        exact ⟨_, ⟨k, hk, rfl⟩, rfl⟩

/-- The region stands between the first closing bracket behind the first opening and the first end
tag behind that bracket. -/
theorem region_eq_some_iff (text region : List Char) :
    ((afterName? text).bind afterTag?).bind beforeEndTag? = some region ↔
      ∃ opening close stop,
        IsFirst (fun k ↦ isOpening (text.drop k)) 0 opening ∧
        IsFirst (fun k ↦ (text.drop k).head? = some '>') (opening + startTag.length) close ∧
        IsFirst (fun k ↦ startsWith endTag (text.drop k)) (close + 1) stop ∧
        (text.take stop).drop (close + 1) = region := by
  have hclose (start : Nat) (rest : List Char) : afterTag? (text.drop start) = some rest ↔
      ∃ close, IsFirst (fun k ↦ (text.drop k).head? = some '>') start close ∧
        text.drop (close + 1) = rest := by
    rw [afterTag?_eq_some_iff, exists_isFirst_iff_drop (fun text ↦ text.head? = some '>')
      (fun close ↦ text.drop (close + 1) = rest) text start]
    simp only [List.drop_drop, Nat.add_assoc]
  have hstop (start : Nat) (region : List Char) : beforeEndTag? (text.drop start) = some region ↔
      ∃ stop, IsFirst (fun k ↦ startsWith endTag (text.drop k)) start stop ∧
        (text.take stop).drop start = region := by
    rw [beforeEndTag?_eq_some_iff, exists_isFirst_iff_drop (fun text ↦ startsWith endTag text)
      (fun stop ↦ (text.take stop).drop start = region) text start]
    simp only [List.drop_drop, List.take_drop]
  rw [Option.bind_assoc, Option.bind_eq_some_iff]
  simp only [afterName?_eq_some_iff, Option.bind_eq_some_iff]
  constructor
  · rintro ⟨_, ⟨opening, hopening, rfl⟩, rest, hrest, hregion⟩
    obtain ⟨close, hfirst, rfl⟩ := (hclose _ _).1 hrest
    obtain ⟨stop, hlast, rfl⟩ := (hstop _ _).1 hregion
    exact ⟨opening, close, stop, hopening, hfirst, hlast, rfl⟩
  · rintro ⟨opening, close, stop, hopening, hfirst, hlast, rfl⟩
    exact ⟨_, ⟨opening, hopening, rfl⟩, _, (hclose _ _).2 ⟨close, hfirst, rfl⟩,
      (hstop _ _).2 ⟨stop, hlast, rfl⟩⟩

/-! ## The region among the bytes -/

theorem exists_region_bytesOf_iff (text : List Char) (bytes : List UInt8) :
    (∃ region, ((afterName? text).bind afterTag?).bind beforeEndTag? = some region ∧
        bytesOf region = bytes) ↔
      ∃ opening close stop,
        IsFirst (fun i ↦ Opens ((bytesOf text).drop i)) 0 opening ∧
        IsFirst (fun i ↦ ClosesTag ((bytesOf text).drop i)) (opening + startTag.length) close ∧
        IsFirst (fun i ↦ BeginsWith endTag ((bytesOf text).drop i)) (close + 1) stop ∧
        ((bytesOf text).take stop).drop (close + 1) = bytes := by
  have hopening := isFirst_offset_iff opens_bytesOf_iff lt_of_opens text (Nat.zero_le _)
  have hclose {start : Nat} (h : start ≤ text.length) :=
    isFirst_offset_iff closesTag_bytesOf_iff lt_of_closesTag text h
  have hstop {start : Nat} (h : start ≤ text.length) :=
    isFirst_offset_iff (beginsWith_bytesOf_iff isLowerWord_endTag) lt_of_ends text h
  -- The name of the element and the bracket behind it take as many bytes as they have characters.
  have hname {k : Nat} (h : isOpening (text.drop k)) :
      offset text k + startTag.length = offset text (k + startTag.length) ∧
        k + startTag.length ≤ text.length := by
    obtain ⟨hoffset, hlength⟩ :=
      offset_of_startsWith isLowerWord_startTag (Bool.and_eq_true_iff.1 h).1
    have hlast : 0 < startTag.length := by decide
    rw [List.length_drop] at hlength
    rw [offset_add, hoffset]
    exact ⟨rfl, by omega⟩
  have hbracket {k : Nat} (h : (text.drop k).head? = some '>') :
      offset text k + 1 = offset text (k + 1) ∧ k + 1 ≤ text.length := by
    obtain ⟨rest, hrest⟩ := List.head?_eq_some_iff.1 h
    have hlength := congrArg List.length hrest
    rw [List.length_drop, List.length_cons] at hlength
    rw [offset_add, hrest]
    exact ⟨rfl, by omega⟩
  simp only [region_eq_some_iff]
  constructor
  · rintro ⟨_, ⟨opening, close, stop, ho, hc, hs, rfl⟩, rfl⟩
    obtain ⟨hoffset, hlength⟩ := hname ho.holds
    obtain ⟨hoffset', hlength'⟩ := hbracket hc.holds
    refine ⟨offset text opening, offset text close, offset text stop,
      (hopening _).2 ⟨opening, rfl, ho⟩, ?_, ?_, ?_⟩
    · rw [hoffset]
      exact (hclose hlength _).2 ⟨close, rfl, hc⟩
    · rw [hoffset']
      exact (hstop hlength' _).2 ⟨stop, rfl, hs⟩
    · rw [hoffset', take_drop_offset text hs.start_le]
  · rintro ⟨_, _, _, hopens, hcloses, hends, rfl⟩
    obtain ⟨opening, rfl, ho⟩ := (hopening _).1 hopens
    obtain ⟨hoffset, hlength⟩ := hname ho.holds
    rw [hoffset] at hcloses
    obtain ⟨close, rfl, hc⟩ := (hclose hlength _).1 hcloses
    obtain ⟨hoffset', hlength'⟩ := hbracket hc.holds
    rw [hoffset'] at hends
    obtain ⟨stop, rfl, hs⟩ := (hstop hlength' _).1 hends
    refine ⟨_, ⟨opening, close, stop, ho, hc, hs, rfl⟩, ?_⟩
    rw [hoffset', take_drop_offset text hs.start_le]

/-! ## Documents put together -/

/-- A text with an angle bracket in it begins with a word that has none only if what is in front of
the bracket does. -/
theorem startsWith_of_append {word : List Char} (hword : '<' ∉ word.map Char.toLower)
    {front : List Char} (rest : List Char) (h : startsWith word (front ++ '<' :: rest)) :
    startsWith word front := by
  induction word generalizing front with
  | nil => exact startsWith_nil front
  | cons letter word ih =>
    rw [List.map_cons, List.mem_cons, not_or] at hword
    obtain ⟨hletter, hrest⟩ := hword
    cases front with
    | nil =>
      rw [List.nil_append, startsWith_cons_cons, Bool.and_eq_true, beq_iff_eq] at h
      exact absurd h.1 hletter
    | cons c front =>
      rw [List.cons_append, startsWith_cons_cons, Bool.and_eq_true] at h
      rw [startsWith_cons_cons, Bool.and_eq_true]
      exact ⟨h.1, ih hrest h.2⟩

theorem startsWith_tag_of_append {word : List Char}
    (hword : '<' ∉ word.map Char.toLower) {c : Char} {front : List Char}
    (rest : List Char) (h : startsWith ('<' :: word) (c :: front ++ '<' :: rest)) :
    startsWith ('<' :: word) (c :: front) := by
  rw [List.cons_append, startsWith_cons_cons, Bool.and_eq_true] at h
  rw [startsWith_cons_cons, Bool.and_eq_true]
  exact ⟨h.1, startsWith_of_append hword rest h.2⟩

theorem isOpening_of_append {c : Char} {front : List Char} (rest : List Char)
    (h : isOpening (c :: front ++ '<' :: rest)) : isOpening (c :: front) := by
  rw [isOpening, Bool.and_eq_true] at h ⊢
  have hstart : startsWith startTag (c :: front) := startsWith_tag_of_append (by decide) rest h.1
  refine ⟨hstart, ?_⟩
  have hends := h.2
  rw [List.drop_append_of_le_length (offset_of_startsWith isLowerWord_startTag hstart).2] at hends
  cases hbehind : (c :: front).drop startTag.length with
  | nil =>
    rw [hbehind] at hends
    exact absurd hends (by decide : ¬endsName '<')
  | cons d behind =>
    rw [hbehind] at hends
    exact hends

theorem afterName?_append {front : List Char} (hfront : ∀ k, ¬isOpening (front.drop k))
    {rest : List Char} (hrest : isOpening ('<' :: rest)) :
    afterName? (front ++ '<' :: rest) = some (('<' :: rest).drop startTag.length) := by
  induction front with
  | nil => exact if_pos hrest
  | cons c front ih =>
    have hc : ¬isOpening (c :: front ++ '<' :: rest) :=
      fun h ↦ hfront 0 (isOpening_of_append rest h)
    rw [List.cons_append, afterName?, ← List.cons_append, if_neg hc]
    exact ih fun k ↦ hfront (k + 1)

theorem afterTag?_append {front : List Char} (hfront : '>' ∉ front) (rest : List Char) :
    afterTag? (front ++ '>' :: rest) = some rest := by
  induction front with
  | nil => rfl
  | cons c front ih =>
    rw [List.mem_cons, not_or] at hfront
    rw [List.cons_append, afterTag?, if_neg (Ne.symm hfront.1), ih hfront.2]

theorem beforeEndTag?_append {front : List Char}
    (hfront : ∀ k, ¬startsWith endTag (front.drop k)) {rest : List Char}
    (hrest : startsWith endTag ('<' :: rest)) :
    beforeEndTag? (front ++ '<' :: rest) = some front := by
  induction front with
  | nil => exact if_pos hrest
  | cons c front ih =>
    have hc : ¬startsWith endTag (c :: front ++ '<' :: rest) :=
      fun h ↦ hfront 0 (startsWith_tag_of_append (by decide) rest h)
    rw [List.cons_append, beforeEndTag?, ← List.cons_append, if_neg hc,
      ih fun k ↦ hfront (k + 1)]
    rfl

/-- The first style element of a document has the region that stands between its tags. -/
theorem styleRegion?_append {before attributes css : String} (after : String)
    (hbefore : ∀ k, ¬isOpening (before.toList.drop k)) (hattributes : '>' ∉ attributes.toList)
    (hends : attributes.toList.head?.all endsName)
    (hcss : ∀ k, ¬startsWith endTag (css.toList.drop k)) :
    styleRegion? (before ++ "<style" ++ attributes ++ ">" ++ css ++ "</style>" ++ after) =
      some css := by
  have hopening (rest : List Char) :
      isOpening ('<' :: ("style".toList ++ (attributes.toList ++ '>' :: rest))) := by
    rw [isOpening, Bool.and_eq_true]
    refine ⟨rfl, ?_⟩
    cases hlist : attributes.toList with
    | nil => rfl
    | cons c others =>
      rw [hlist] at hends
      exact hends
  have htext : (before ++ "<style" ++ attributes ++ ">" ++ css ++ "</style>" ++ after).toList =
      before.toList ++ '<' :: ("style".toList ++ (attributes.toList ++ '>' ::
        (css.toList ++ '<' :: ("/style>".toList ++ after.toList)))) := by
    simp [String.toList_append]
  have hregion : beforeEndTag? (css.toList ++ '<' :: ("/style>".toList ++ after.toList)) =
      some css.toList := beforeEndTag?_append hcss rfl
  rw [styleRegion?, htext, afterName?_append hbefore (hopening _), Option.bind_some]
  have hname : ('<' :: ("style".toList ++ (attributes.toList ++ '>' ::
      (css.toList ++ '<' :: ("/style>".toList ++ after.toList))))).drop startTag.length =
        attributes.toList ++ '>' :: (css.toList ++ '<' :: ("/style>".toList ++ after.toList)) := rfl
  rw [hname, afterTag?_append hattributes, Option.bind_some, hregion, Option.map_some,
    String.ofList_toList]

/-- There is a region exactly if the first opening of a style element, the first closing bracket
behind its name and the first end tag behind that bracket are there, and it then has the bytes
between the last two. In a document put together from its parts the style element has this region
if there is no opening in front of it, no bracket among its attributes and no end tag in its text,
so that the sheet of the document is that of the text. -/
theorem styleRegion?_first_element :
    (∀ (document : String) (bytes : List UInt8),
      (∃ region, styleRegion? document = some region ∧ storedBytes region = bytes) ↔
        ∃ opening close stop,
          IsFirst (fun i ↦ Opens ((storedBytes document).drop i)) 0 opening ∧
          IsFirst (fun i ↦ ClosesTag ((storedBytes document).drop i))
            (opening + startTag.length) close ∧
          IsFirst (fun i ↦ BeginsWith endTag ((storedBytes document).drop i)) (close + 1) stop ∧
          ((storedBytes document).take stop).drop (close + 1) = bytes) ∧
      ∀ before attributes css after : String,
        (∀ i, ¬Opens ((storedBytes before).drop i)) → '>' ∉ attributes.toList →
        attributes.toList.head?.all endsName →
        (∀ i, ¬BeginsWith endTag ((storedBytes css).drop i)) →
        StyleSheet.ofDocument
            (before ++ "<style" ++ attributes ++ ">" ++ css ++ "</style>" ++ after) =
          StyleSheet.parse css := by
  constructor
  · intro document bytes
    rw [storedBytes_eq, ← exists_region_bytesOf_iff, styleRegion?]
    simp only [Option.map_eq_some_iff]
    constructor
    · rintro ⟨_, ⟨region, hregion, rfl⟩, rfl⟩
      rw [storedBytes_eq, String.toList_ofList]
      exact ⟨region, hregion, rfl⟩
    · rintro ⟨region, hregion, rfl⟩
      refine ⟨.ofList region, ⟨region, hregion, rfl⟩, ?_⟩
      rw [storedBytes_eq, String.toList_ofList]
  · intro before attributes css after hbefore hattributes hends hcss
    rw [storedBytes_eq] at hbefore hcss
    have hregion := styleRegion?_append after
      ((forall_not_drop_iff opens_bytesOf_iff lt_of_opens _).1 hbefore) hattributes hends
      ((forall_not_drop_iff (beginsWith_bytesOf_iff isLowerWord_endTag) lt_of_ends _).1 hcss)
    rw [StyleSheet.ofDocument, hregion, Option.map_some, Option.getD_some]

/-- A longer name in front, letters beyond ASCII, and half an end tag at the end of the text. -/
theorem styleRegion?_behind_longer_name :
    (∀ i, ¬Opens ((storedBytes "é<styles>").drop i)) ∧ '>' ∉ "/ü".toList ∧
      "/ü".toList.head?.all endsName ∧
      (∀ i, ¬BeginsWith endTag ((storedBytes "b{width:1px}</styl").drop i)) ∧
      StyleSheet.ofDocument ("é<styles>" ++ "<style" ++ "/ü" ++ ">" ++ "b{width:1px}</styl" ++
          "</style>" ++ "<style>é") =
        StyleSheet.parse "b{width:1px}</styl" := by
  have htails : ∀ rest ∈ "é<styles>".toList.tails, ¬isOpening rest := by decide
  have hbefore : ∀ i, ¬Opens ((storedBytes "é<styles>").drop i) := by
    rw [storedBytes_eq]
    apply (forall_not_drop_iff opens_bytesOf_iff lt_of_opens _).2
    intro k
    exact htails _ ((List.mem_tails _ _).2 (List.drop_suffix k _))
  have htails' : ∀ rest ∈ "b{width:1px}</styl".toList.tails, ¬startsWith endTag rest := by decide
  have hcss : ∀ i, ¬BeginsWith endTag ((storedBytes "b{width:1px}</styl").drop i) := by
    rw [storedBytes_eq]
    apply (forall_not_drop_iff (beginsWith_bytesOf_iff isLowerWord_endTag) lt_of_ends _).2
    intro k
    exact htails' _ ((List.mem_tails _ _).2 (List.drop_suffix k _))
  have hattributes : '>' ∉ "/ü".toList := by decide
  have hends : "/ü".toList.head?.all endsName := by decide
  exact ⟨hbefore, hattributes, hends, hcss,
    styleRegion?_first_element.2 "é<styles>" "/ü" "b{width:1px}</styl" "<style>é" hbefore hattributes
      hends hcss⟩

end TouchTarget.Html
