/-!
# Blank characters and letter case

Text is trimmed and cut into words at the characters with the Unicode property White_Space. Names
are compared up to the case of ASCII letters; all other characters, also letters outside ASCII,
count as they are. The definitions work on lists of characters, so that statements about them go by
induction.
-/

namespace TouchTarget.Text

/-! ## Blanks -/

/-- The characters of the Unicode property White_Space. -/
def isBlank (c : Char) : Bool :=
  (0x9 ≤ c.val && c.val ≤ 0xD) || c.val == 0x20 || c.val == 0x85 || c.val == 0xA0 ||
    c.val == 0x1680 || (0x2000 ≤ c.val && c.val ≤ 0x200A) || c.val == 0x2028 ||
    c.val == 0x2029 || c.val == 0x202F || c.val == 0x205F || c.val == 0x3000

def trimStart (text : List Char) : List Char :=
  text.dropWhile isBlank

def trimEnd (text : List Char) : List Char :=
  (trimStart text.reverse).reverse

def trim (text : List Char) : List Char :=
  trimEnd (trimStart text)

/-- A character joins the word behind it exactly if no blank follows. -/
def words : List Char → List (List Char)
  | [] => []
  | c :: rest =>
    if isBlank c then words rest
    else if rest.head?.all isBlank then [c] :: words rest
    else match words rest with
      | [] => [[c]]
      | word :: others => (c :: word) :: others

@[simp] theorem trimStart_nil : trimStart [] = [] := rfl

@[simp] theorem trim_nil : trim [] = [] := rfl

@[simp] theorem words_nil : words [] = [] := rfl

/-! ## Letter case -/

/-- Equality up to the case of ASCII letters. -/
def sameLetters (left right : List Char) : Bool :=
  left.map Char.toLower == right.map Char.toLower

@[simp] theorem sameLetters_self (text : List Char) : sameLetters text text = true := by
  simp [sameLetters]

theorem sameLetters_iff {left right : List Char} :
    sameLetters left right = true ↔ left.map Char.toLower = right.map Char.toLower := by
  simp [sameLetters]

end TouchTarget.Text
