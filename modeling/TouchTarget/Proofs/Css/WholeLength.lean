import Mathlib.Data.List.Induction
import Mathlib.Data.Nat.Digits.Defs
import TouchTarget.Css.Length
import TouchTarget.Proofs.Css.Spelling
import TouchTarget.Proofs.Numeric.Rounding
import TouchTarget.Proofs.Rules.MediaRule

/-!
# Whole numbers of pixels

Digits are taken in one by one in double precision. A whole number that double precision holds comes
out exactly, and one that is beyond all counts of pixels stays beyond them whatever digits follow. A
length is therefore the number that is written, with the bits that single precision keeps of it, up
to the largest count of pixels. It does not matter how long the text of the number is.
-/

namespace TouchTarget

open Numeric

namespace Css

/-! ## The token of a number of pixels -/

theorem isSpace_of_isDigit {c : Char} (h : c.isDigit) : isSpace c = false := by
  apply Bool.eq_false_iff.2
  intro hspace
  simp only [isSpace, isNewline, Bool.or_eq_true, beq_iff_eq, or_assoc] at hspace
  rcases hspace with rfl | rfl | rfl | rfl | rfl <;> cases h

namespace State

/-- A number takes in the digits that follow. -/
theorem run_number (value : Numeral) {digits : List Char} (h : ∀ c ∈ digits, c.isDigit) :
    (number value).run digits =
      some (number { value with whole := (digits.map digit).reverse ++ value.whole }) := by
  induction digits generalizing value with
  | nil => rfl
  | cons c digits ih =>
    rw [List.forall_mem_cons] at h
    rw [run, step, if_pos h.1, Option.bind_some, ih _ h.2]
    simp [withDigit]

theorem run_digits {digits : List Char} (hne : digits ≠ []) (h : ∀ c ∈ digits, c.isDigit) :
    start.run digits = some (number { whole := (digits.map digit).reverse }) := by
  obtain ⟨c, digits, rfl⟩ := List.exists_cons_of_ne_nil hne
  rw [List.forall_mem_cons] at h
  have hstart : stepStart c = number { whole := [digit c] } := by
    unfold stepStart
    rw [isSpace_of_isDigit h.1, if_neg Bool.false_ne_true, if_pos h.1]
  rw [run, step, hstart, Option.bind_some, run_number _ h.2]
  simp

end State

/-- A text that leads to a state in which a unit may begin is a number of pixels with the unit of
pixels behind it, unless a name goes on there. -/
theorem lexemes_append_px {text more : List Char} {state : State} {value : Numeral}
    (hrun : State.start.run text = some state)
    (hunit : state.step 'p' = some (.name (.unit value) ['p'] none))
    (hmore : ∀ c ∈ more.head?, isNameChar c = false ∧ c ≠ '\\') :
    lexemes (text ++ 'p' :: 'x' :: more) =
      ⟨.dimension value ['p', 'x'], text ++ ['p', 'x']⟩ :: lexemes more := by
  have hwhole : State.start.run (text ++ ['p', 'x']) =
      some (.name (.unit value) ['x', 'p'] none) := by
    rw [State.run_append, hrun, Option.bind_some, State.run, hunit]
    rfl
  have hstuck : ∀ c ∈ more.head?, (State.name (.unit value) ['x', 'p'] none).step c = none := by
    intro c hc
    obtain ⟨hname, hbackslash⟩ := hmore c hc
    simp [State.step, State.stepName, hname, hbackslash]
  have hlexemes := lexemes_append_of_stuck hwhole rfl rfl hstuck
  rw [List.append_assoc] at hlexemes
  exact hlexemes

/-- A text that is a number with the unit of pixels behind it is the length that the number stands
for. -/
theorem length?_append_px {text : String} {state : State} {value : Numeral}
    (hrun : State.start.run text.toList = some state)
    (hunit : state.step 'p' = some (.name (.unit value) ['p'] none)) :
    length? (text ++ "px") = some value.pixels := by
  have hlexemes : lexemes (text.toList ++ ['p', 'x']) =
      ⟨.dimension value ['p', 'x'], text.toList ++ ['p', 'x']⟩ :: lexemes [] :=
    lexemes_append_px hrun hunit nofun
  have htext : (text ++ "px").toList = text.toList ++ ['p', 'x'] := String.toList_append
  rw [length?, lengthOf?, components, htext, hlexemes, lexemes_nil,
    Component.ofLexemes_cons_of_leaf rfl]
  rfl

/-! ## The value of whole numbers -/

namespace Numeral

theorem precision_pos : 0 < binary64.precision ∧ 0 < binary32.precision := by decide

theorem wholeValue_cons (d : Nat) (digits : List Nat) :
    wholeValue (d :: digits) = wholeValue digits * ten + .ofNat d := rfl

theorem ofDigits_reverse_map_digit (digits : List Char) :
    Nat.ofDigits 10 (digits.map digit).reverse = Nat.ofDigitChars 10 digits 0 := by
  induction digits using List.reverseRecOn with
  | nil => rfl
  | append_singleton digits c ih =>
    rw [List.map_append, List.reverse_append, Nat.ofDigitChars_append, List.map_singleton,
      List.reverse_singleton, List.singleton_append, Nat.ofDigits_cons, ih, Nat.ofDigitChars_cons,
      Nat.add_comm]
    rfl

theorem ten_eq_whole : ten = .whole 10 :=
  Rounded.ofNat_eq_whole precision_pos.1 (by decide) (by decide)

/-- Digits add up to the number that they are, as long as double precision holds it. -/
theorem wholeValue_eq_whole {digits : List Nat} (h : Nat.ofDigits 10 digits < 2 ^ 53) :
    wholeValue digits = .whole (Nat.ofDigits 10 digits) := by
  induction digits with
  | nil => exact Rounded.zero_eq_whole
  | cons d digits ih =>
    rw [Nat.ofDigits_cons] at h ⊢
    have hten : (Rounded.whole (Nat.ofDigits 10 digits) * .whole 10 : Rounded binary64) =
        .whole (Nat.ofDigits 10 digits * 10) :=
      Rounded.whole_mul_whole precision_pos.1 (show _ < 2 ^ 53 by omega) (by decide)
    have hdigit : (Rounded.ofNat d : Rounded binary64) = .whole d :=
      Rounded.ofNat_eq_whole precision_pos.1 (show _ < 2 ^ 53 by omega) (by decide)
    have hsum : (Rounded.whole (Nat.ofDigits 10 digits * 10) + .whole d : Rounded binary64) =
        .whole (Nat.ofDigits 10 digits * 10 + d) :=
      Rounded.whole_add_whole precision_pos.1 (show _ < 2 ^ 53 by omega) (by decide)
    rw [wholeValue_cons, ih (by omega), ten_eq_whole, hten, hdigit, hsum, Nat.mul_comm, Nat.add_comm]

/-- Digits that are beyond all pixels stay beyond them, whatever digits follow. -/
theorem isAtLeast_wholeValue {digits : List Nat} (hdigits : ∀ d ∈ digits, d < 10)
    (h : 2 ^ 32 ≤ Nat.ofDigits 10 digits) : (wholeValue digits).IsAtLeast (2 ^ 32) := by
  have hbound : HasPrecision binary64.precision (2 ^ 32) := hasPrecision_of_lt (by decide)
  induction digits with
  | nil => cases h
  | cons d digits ih =>
    rw [List.forall_mem_cons] at hdigits
    rcases Nat.lt_or_ge (Nat.ofDigits 10 digits) (2 ^ 32) with hlt | hge
    · have hexact : Nat.ofDigits 10 (d :: digits) < 2 ^ 53 := by
        rw [Nat.ofDigits_cons]
        omega
      rw [wholeValue_eq_whole hexact]
      exact Nat.mul_le_mul_right _ h
    · have hdigit : (Rounded.ofNat d : Rounded binary64) = .whole d :=
        Rounded.ofNat_eq_whole precision_pos.1 (show _ < 2 ^ 53 by omega) (by decide)
      rw [wholeValue_cons, ten_eq_whole, hdigit]
      exact ((ih hdigits.2 hge).mul_whole precision_pos.1 hbound (by decide)).add_whole
        precision_pos.1 hbound d

theorem powTen_zero : (Rounded.powTen false 0 : Rounded binary64) = .whole 1 := by
  decide +kernel

theorem magnitude_whole (digits : List Nat) :
    magnitude { whole := digits } = (wholeValue digits + .whole 0) * .whole 1 := by
  rw [magnitude, powTen_zero, ← Rounded.zero_eq_whole]
  rfl

end Numeral

end Css

namespace Pixels

theorem ofRounded_whole {format : Format} (n : Nat) :
    ofRounded (Rounded.whole n : Rounded format) = clamp n := by
  rw [Rounded.whole, ofRounded, Nat.shiftRight_eq_div_pow,
    Nat.mul_div_cancel _ (Nat.two_pow_pos _)]

theorem clamp_of_le {count : Nat} (h : 2 ^ 32 ≤ count) : clamp count = clamp (2 ^ 32) := by
  have hsize : UInt32.size = 2 ^ 32 := rfl
  apply UInt32.toNat_inj.1
  rw [toNat_clamp, toNat_clamp]
  omega

theorem ofRounded_of_isAtLeast {format : Format} {number : Rounded format}
    (h : number.IsAtLeast (2 ^ 32)) : ofRounded number = clamp (2 ^ 32) := by
  cases number with
  | finite units =>
    apply clamp_of_le
    rw [Nat.shiftRight_eq_div_pow]
    exact (Nat.le_div_iff_mul_le (Nat.two_pow_pos _)).2 h
  | infinite => rfl
  | undefined => exact h.elim

end Pixels

namespace Css.Numeral

/-- A whole number of pixels is the number with the bits that single precision keeps of it, or the
largest count of pixels. -/
theorem pixels_whole {digits : List Nat} (hdigits : ∀ d ∈ digits, d < 10) :
    pixels { whole := digits } = Pixels.clamp (nearestWithin 24 (Nat.ofDigits 10 digits) 1) := by
  have hpixels : pixels { whole := digits } =
      .ofRounded ((magnitude { whole := digits }).convert binary32) := rfl
  rw [hpixels, magnitude_whole]
  rcases Nat.lt_or_ge (Nat.ofDigits 10 digits) (2 ^ 53) with hlt | hge
  · have hsum : (Rounded.whole (Nat.ofDigits 10 digits) + .whole 0 : Rounded binary64) =
        .whole (Nat.ofDigits 10 digits + 0) :=
      Rounded.whole_add_whole precision_pos.1 hlt (by decide)
    have hproduct : (Rounded.whole (Nat.ofDigits 10 digits) * .whole 1 : Rounded binary64) =
        .whole (Nat.ofDigits 10 digits * 1) :=
      Rounded.whole_mul_whole precision_pos.1 (by rwa [Nat.mul_one]) (by decide)
    have hbound : nearestWithin 24 (Nat.ofDigits 10 digits) 1 ≤ 2 ^ 53 := by
      apply nearestWithin_le (by decide) Nat.one_pos
      · exact (hasPrecision_of_lt (m := 1) (by decide)).mul_two_pow 53
      · exact Nat.le_of_lt (by rwa [Nat.mul_one])
    have hconvert : (.whole (Nat.ofDigits 10 digits) : Rounded binary64).convert binary32 =
        .whole (nearestWithin binary32.precision (Nat.ofDigits 10 digits) 1) :=
      Rounded.convert_whole precision_pos.2
        (Nat.lt_of_le_of_lt hbound (Nat.pow_lt_pow_right (by decide) (by decide)))
    rw [wholeValue_eq_whole hlt, hsum, Nat.add_zero, hproduct, Nat.mul_one, hconvert,
      Pixels.ofRounded_whole]
    rfl
  · have hbound : HasPrecision 24 (2 ^ 32) :=
      (hasPrecision_of_lt (m := 1) (by decide)).mul_two_pow 32
    have hdouble : HasPrecision binary64.precision (2 ^ 32) := hasPrecision_of_lt (by decide)
    have hle : 2 ^ 32 ≤ nearestWithin 24 (Nat.ofDigits 10 digits) 1 :=
      le_nearestWithin (by decide) Nat.one_pos hbound (by omega)
    have hwhole := isAtLeast_wholeValue hdigits (by omega)
    have hmagnitude : ((wholeValue digits + .whole 0) * .whole 1 : Rounded binary64).convert
        binary32 |>.IsAtLeast (2 ^ 32) :=
      ((hwhole.add_whole precision_pos.1 hdouble 0).mul_whole precision_pos.1 hdouble
        Nat.one_pos).convert precision_pos.2 hbound
    rw [Pixels.clamp_of_le hle]
    exact Pixels.ofRounded_of_isAtLeast hmagnitude

end Css.Numeral

namespace Css

/-! ## Texts of whole numbers -/

/-- The text consists of decimal digits, of which there is at least one. -/
def IsDigits (text : String) : Prop :=
  text ≠ "" ∧ ∀ c ∈ text.toList, c.isDigit

instance (text : String) : Decidable (IsDigits text) :=
  haveI : Decidable (∀ c ∈ text.toList, c.isDigit) := List.decidableBAll _ text.toList
  inferInstanceAs (Decidable (_ ∧ _))

/-- The number that decimal digits denote. -/
def denoted (digits : String) : Nat :=
  Nat.ofDigitChars 10 digits.toList 0

theorem IsDigits.toList_ne_nil {text : String} (h : IsDigits text) : text.toList ≠ [] := by
  intro hnil
  exact h.1 (String.toList_inj.1 hnil)

theorem digit_lt {c : Char} (h : c.isDigit) : digit c < 10 := by
  simp only [Char.isDigit, Bool.and_eq_true, decide_eq_true_eq, ge_iff_le, UInt32.le_iff_toNat_le]
    at h
  have hzero : '0'.toNat = 48 := rfl
  have hupper : c.toNat ≤ 57 := h.2
  rw [digit, hzero]
  omega

theorem lt_ten_of_mem_digits {digits : List Char} (h : ∀ c ∈ digits, c.isDigit) :
    ∀ d ∈ (digits.map digit).reverse, d < 10 := by
  intro d hd
  obtain ⟨c, hc, rfl⟩ := List.mem_map.1 (List.mem_reverse.1 hd)
  exact digit_lt (h c hc)

theorem pixels_of_isDigits {digits : String} (h : IsDigits digits) :
    Numeral.pixels { whole := (digits.toList.map digit).reverse } =
      Pixels.clamp (nearestWithin 24 (denoted digits) 1) := by
  rw [Numeral.pixels_whole (lt_ten_of_mem_digits h.2), Numeral.ofDigits_reverse_map_digit, denoted]

theorem length?_of_isDigits {digits : String} (h : IsDigits digits) :
    length? (digits ++ "px") = some (Pixels.clamp (nearestWithin 24 (denoted digits) 1)) := by
  rw [length?_append_px (State.run_digits h.toList_ne_nil h.2) rfl, pixels_of_isDigits h]

/-! ## Texts of thresholds -/

/-- The lexemes of a condition that asks for a whole number of pixels. -/
theorem lexemes_maxWidth {digits : List Char} (hne : digits ≠ []) (h : ∀ c ∈ digits, c.isDigit) :
    lexemes (" (max-width: ".toList ++ (digits ++ "px)".toList)) =
      [⟨.blank, [' ']⟩, ⟨.opener .round, ['(']⟩, ⟨.ident "max-width".toList, "max-width".toList⟩,
        ⟨.colon, [':']⟩, ⟨.blank, [' ']⟩,
        ⟨.dimension { whole := (digits.map digit).reverse } ['p', 'x'], digits ++ ['p', 'x']⟩,
        ⟨.closer .round, [')']⟩] := by
  have hnumber : lexemes (digits ++ "px)".toList) =
      [⟨.dimension { whole := (digits.map digit).reverse } ['p', 'x'], digits ++ ['p', 'x']⟩,
        ⟨.closer .round, [')']⟩] := by
    have hcloser : ∀ c ∈ [')'].head?, isNameChar c = false ∧ c ≠ '\\' := by
      intro c hc
      obtain rfl := Option.some.inj hc
      decide
    exact lexemes_append_px (State.run_digits hne h) rfl hcloser
  have hspace : (digits ++ "px)".toList).takeWhile isSpace = [] ∧
      (digits ++ "px)".toList).dropWhile isSpace = digits ++ "px)".toList := by
    obtain ⟨c, digits, rfl⟩ := List.exists_cons_of_ne_nil hne
    have hc : ¬isSpace c := Bool.eq_false_iff.1 (isSpace_of_isDigit (h c List.mem_cons_self))
    exact ⟨List.takeWhile_cons_of_neg hc, List.dropWhile_cons_of_neg hc⟩
  have hname : State.start.run "max-width".toList =
      some (.name .ident "max-width".toList.reverse none) := rfl
  have hstuck : ∀ c ∈ (':' :: ' ' :: (digits ++ "px)".toList)).head?,
      (State.name .ident "max-width".toList.reverse none).step c = none := by
    intro c hc
    obtain rfl := Option.some.inj hc
    rfl
  calc
    lexemes (" (max-width: ".toList ++ (digits ++ "px)".toList)) = ⟨.blank, [' ']⟩ ::
        lexemes ('(' :: ("max-width".toList ++ ':' :: ' ' :: (digits ++ "px)".toList))) :=
      lexemes_cons_space rfl _
    _ = ⟨.blank, [' ']⟩ :: ⟨.opener .round, ['(']⟩ ::
        lexemes ("max-width".toList ++ ':' :: ' ' :: (digits ++ "px)".toList)) := by
      rw [lexemes_cons_done (c := '(') rfl]
    _ = ⟨.blank, [' ']⟩ :: ⟨.opener .round, ['(']⟩ ::
        ⟨.ident "max-width".toList, "max-width".toList⟩ ::
          lexemes (':' :: ' ' :: (digits ++ "px)".toList)) := by
      rw [lexemes_append_of_stuck hname rfl rfl hstuck]
      rfl
    _ = _ := by
      rw [lexemes_cons_done (c := ':') rfl, lexemes_cons_space rfl, hspace.1, hspace.2, hnumber]

theorem toList_maxWidth (digits : String) :
    (" (max-width: " ++ digits ++ "px)").toList =
      " (max-width: ".toList ++ (digits.toList ++ "px)".toList) := by
  simp

variable {digits : String}

/-- The condition is one feature, which asks for the number of pixels. -/
theorem threshold?_maxWidth (h : IsDigits digits) :
    threshold? (components (" (max-width: " ++ digits ++ "px)").toList) =
      some (Pixels.clamp (nearestWithin 24 (denoted digits) 1)) := by
  rw [components, toList_maxWidth, lexemes_maxWidth h.toList_ne_nil h.2, ← pixels_of_isDigits h]
  rfl

theorem isHead_maxWidth (h : IsDigits digits) :
    IsHead (" (max-width: " ++ digits ++ "px)").toList where
  endsBetweenLexemes := by
    intro lexeme hlast
    rw [toList_maxWidth, lexemes_maxWidth h.toList_ne_nil h.2] at hlast
    obtain rfl := Option.some.inj hlast
    rfl
  closesAll := by
    rw [toList_maxWidth, lexemes_maxWidth h.toList_ne_nil h.2]
    rfl
  endsNoRule := by
    rw [components, toList_maxWidth, lexemes_maxWidth h.toList_ne_nil h.2]
    intro component hmem
    rcases List.mem_cons.1 hmem with rfl | hmem
    · exact ⟨rfl, rfl⟩
    · rcases List.mem_singleton.1 hmem with rfl
      exact ⟨rfl, rfl⟩

theorem toNat_clamp_nearestWithin_of_le {n : Nat} (h : n ≤ 2 ^ 24) :
    (Pixels.clamp (nearestWithin 24 n 1)).toNat = n := by
  have hexact : nearestWithin 24 n 1 = n := by
    have hprecision : HasPrecision 24 n := by
      rcases Nat.eq_or_lt_of_le h with rfl | hlt
      · exact (hasPrecision_of_lt (m := 1) (by decide)).mul_two_pow 24
      · exact hasPrecision_of_lt hlt
    have hwithin := nearestWithin_of_hasPrecision (by decide) Nat.one_pos hprecision
    rwa [Nat.mul_one] at hwithin
  have hsize : UInt32.size = 2 ^ 32 := rfl
  rw [hexact, Pixels.toNat_clamp]
  omega

theorem clamp_nearestWithin_mono {n n' : Nat} (h : n ≤ n') :
    Pixels.clamp (nearestWithin 24 n 1) ≤ Pixels.clamp (nearestWithin 24 n' 1) := by
  have hmono : nearestWithin 24 n 1 ≤ nearestWithin 24 n' 1 :=
    nearestWithin_mono (by decide) Nat.one_pos Nat.one_pos (Nat.mul_le_mul_right 1 h)
  rw [UInt32.le_iff_toNat_le, Pixels.toNat_clamp, Pixels.toNat_clamp]
  omega

/-- Decimal digits with the unit of pixels are a length of as many pixels as they denote, up to the
number from which on single precision keeps only the leading bits. Above it the length is the rounded
number as long as that is a count of pixels, and the largest count otherwise, however many digits
there are. A larger number never gives a smaller length. The same digits give the same count where
they are the threshold of a media rule. -/
theorem length?_of_whole_number {digits : String} (h : IsDigits digits) :
    ∃ pixels, length? (digits ++ "px") = some pixels ∧
      (denoted digits ≤ 2 ^ 24 → pixels.toNat = denoted digits) ∧
      (2 ^ 24 < denoted digits → denoted digits < 2 ^ 32 →
        ∃ rounded, IsRoundedTo 24 (denoted digits) rounded ∧
          pixels.toNat = min rounded (2 ^ 32 - 1)) ∧
      (2 ^ 32 ≤ denoted digits → pixels.toNat = 2 ^ 32 - 1) ∧
      (∀ more, IsDigits more → denoted digits ≤ denoted more →
        ∃ others, length? (more ++ "px") = some others ∧ pixels ≤ others) ∧
      ∀ body : String, IsBody body.toList →
        (StyleSheet.parse ("@media" ++ (" (max-width: " ++ digits ++ "px)") ++ "\x7b" ++ body ++
          "\x7d")).conditionals = [⟨pixels, RuleSet.parse body⟩] := by
  have hsize : UInt32.size = 2 ^ 32 := rfl
  refine ⟨_, length?_of_isDigits h, toNat_clamp_nearestWithin_of_le, ?_, ?_, ?_, ?_⟩
  · intro hlarge _
    exact ⟨_, isRoundedTo_nearestWithin (by decide) (by omega), Pixels.toNat_clamp _⟩
  · intro hbeyond
    have hle : 2 ^ 32 ≤ nearestWithin 24 (denoted digits) 1 := by
      apply le_nearestWithin (by decide) Nat.one_pos
      · exact (hasPrecision_of_lt (m := 1) (by decide)).mul_two_pow 32
      · omega
    rw [Pixels.clamp_of_le hle]
    rfl
  · intro more hmore hle
    exact ⟨_, length?_of_isDigits hmore, clamp_nearestWithin_mono hle⟩
  · intro body hbody
    have hends : EndsKeyword (" (max-width: " ++ digits ++ "px)").toList := by
      rw [toList_maxWidth]
      exact endsKeyword_cons (.inl rfl) _
    rw [StyleSheet.parse_media _ _ (isHead_maxWidth h) hends hbody, threshold?_maxWidth h]
    exact StyleSheet.conditionals_addConditional_empty _ _

/-- A number that is a tie between two numbers of single precision, behind two zeros. -/
theorem length?_of_whole_number_tie :
    IsDigits "0016777219" ∧ denoted "0016777219" = 2 ^ 24 + 3 ∧
      ∃ pixels, length? "0016777219px" = some pixels ∧
        ∃ rounded, IsRoundedTo 24 (2 ^ 24 + 3) rounded ∧ pixels.toNat = min rounded (2 ^ 32 - 1) := by
  have hdigits : IsDigits "0016777219" := by decide
  have hdenoted : denoted "0016777219" = 2 ^ 24 + 3 := by decide
  obtain ⟨pixels, hlength, -, hrounded, -⟩ := length?_of_whole_number hdigits
  rw [hdenoted] at hrounded
  exact ⟨hdigits, hdenoted, pixels, hlength, hrounded (by decide) (by decide)⟩

end Css

end TouchTarget
