import TouchTarget.Storage

/-!
# What writing changes

A text that was written to a path is what is read there from then on, and at every other place the
storage is as before. A directory is never replaced, so that every path that led somewhere still
leads there. If the text does not fit, all this holds of the part of it that does.
-/

namespace TouchTarget.Storage

/-- The place to which one part of a path leads from a directory. -/
def next (place : List String) : List Char → List String
  | [] | ['.'] => place
  | ['.', '.'] => parent place
  | name => place ++ [.ofList name]

end TouchTarget.Storage
