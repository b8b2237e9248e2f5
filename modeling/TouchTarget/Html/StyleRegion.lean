import TouchTarget.Text.Characters

/-!
# The style region of a document

The style region is the text of the first style element. The element begins where its name is
followed by a blank, a slash or the end of the tag; a longer name is none. The region starts behind
the next closing angle bracket and runs to the first text that looks like an end tag of the same
name, whatever comes behind that name. Letter case does not matter, and an element without an end
has no region.
-/

namespace TouchTarget.Html

open Text

def startsWith (letters text : List Char) : Bool :=
  sameLetters (text.take letters.length) letters

def startTag : List Char := ['<', 's', 't', 'y', 'l', 'e']

def endTag : List Char := ['<', '/', 's', 't', 'y', 'l', 'e']

/-- A character that ends the name of a tag. -/
def endsName (c : Char) : Bool :=
  c == '>' || c == ' ' || c == '\t' || c == '\n' || c == '\r' || c == '/'

/-- Whether a style element begins here. -/
def isOpening (text : List Char) : Bool :=
  startsWith startTag text && (text.drop startTag.length).head?.any endsName

/-- What follows the name of the first style element. -/
def afterName? : List Char → Option (List Char)
  | [] => none
  | c :: rest =>
    if isOpening (c :: rest) then some ((c :: rest).drop startTag.length) else afterName? rest

/-- What follows the first closing angle bracket. -/
def afterTag? : List Char → Option (List Char)
  | [] => none
  | c :: rest => if c = '>' then some rest else afterTag? rest

/-- What comes before the first end tag. -/
def beforeEndTag? : List Char → Option (List Char)
  | [] => none
  | c :: rest =>
    if startsWith endTag (c :: rest) then some [] else (beforeEndTag? rest).map (c :: ·)

/-- The text of the first style element of a document. -/
def styleRegion? (document : String) : Option String :=
  (((afterName? document.toList).bind afterTag?).bind beforeEndTag?).map String.ofList

end TouchTarget.Html
