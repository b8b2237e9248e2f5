import TouchTarget.Config
import TouchTarget.Text.Hidden
import TouchTarget.Toml.Document

/-!
# Configurations from settings documents

The lists `viewports` and `targets` of a document replace the built-in ones, each by itself; other
keys never matter. An element of a list is a table, or a list of its fields in their order, in which
further elements never matter. The minimum size of a viewport may be spelled in two ways, but not
in both at once.

The entries are taken in the order of the document, and the first thing that does not fit is the
error.
-/

namespace TouchTarget

open Toml Numeric

/-- What a document should have held. -/
inductive Config.Shape
  | text
  | pixels
  | list
  | viewport
  | target
deriving DecidableEq, Repr, Inhabited

/-- Why a text is no configuration. -/
inductive ConfigError
  | malformed
  | missingField (field : String)
  | duplicateField (field : String)
  | wrongType (found : Value) (expected : Config.Shape)
  | outOfRange (found : Int)
  | tooShort (length : Nat) (expected : Config.Shape)
deriving Repr, Inhabited

namespace Config

def Shape.name : Shape → String
  | text => "a string"
  | pixels => "u32"
  | list => "a sequence"
  | viewport => "struct Viewport"
  | target => "struct Target"

/-- The number of fields of a shape that has fields. -/
def Shape.fields : Shape → Nat
  | viewport => 3
  | target => 2
  | _ => 0

def floatText (negative : Bool) : Rounded binary64 → String
  | .finite units => (if negative then "-" else "") ++ .ofList (positional binary64 units)
  | .infinite => if negative then "-inf" else "inf"
  | .undefined => "NaN"

/-- The kind of a value, with the value itself if it is short. -/
def described : Value → String
  | .text value => s!"string {Text.quoted value}"
  | .integer value => s!"integer `{value}`"
  | .float negative magnitude => s!"floating point `{floatText negative magnitude}`"
  | .boolean value => s!"boolean `{value}`"
  | .array _ => "sequence"
  | .moment | .table _ => "map"

end Config

def ConfigError.message : ConfigError → String
  | malformed => "no settings document"
  | missingField field => s!"missing field `{field}`"
  | duplicateField field => s!"duplicate field `{field}`"
  | wrongType found expected =>
    s!"invalid type: {Config.described found}, expected {expected.name}"
  | outOfRange found =>
    s!"invalid value: integer `{found}`, expected {Config.Shape.pixels.name}"
  | tooShort length expected =>
    s!"invalid length {length}, expected {expected.name} with {expected.fields} elements"

namespace Config

abbrev Decoded := Except ConfigError

def decodeText : Value → Decoded String
  | .text value => pure value
  | value => throw (.wrongType value .text)

def decodePixels : Value → Decoded Pixels
  | .integer value =>
    if 0 ≤ value ∧ value.toNat < UInt32.size then pure (.clamp value.toNat) else throw (.outOfRange value)
  | value => throw (.wrongType value .pixels)

def required {α : Type} (field : String) : Option α → Decoded α
  | some value => pure value
  | none => throw (.missingField field)

/-- The element at an index, which a list of fields has to reach. -/
def element (shape : Shape) (elements : List Value) (index : Nat) : Decoded Value :=
  match elements[index]? with
  | some value => pure value
  | none => throw (.tooShort index shape)

/-- The fields of a viewport that have been met. -/
structure ViewportFields where
  name? : Option String := none
  width? : Option Pixels := none
  minSize? : Option Pixels := none

def ViewportFields.take (fields : ViewportFields) : String × Value → Decoded ViewportFields
  | ("name", value) => return { fields with name? := ← decodeText value }
  | ("width", value) => return { fields with width? := ← decodePixels value }
  | ("min_size", value) | ("minSize", value) =>
    if fields.minSize?.isSome then throw (.duplicateField "min_size")
    else return { fields with minSize? := ← decodePixels value }
  | _ => return fields

def viewportOfEntries (entries : List (String × Value)) : Decoded Viewport := do
  let fields ← entries.foldlM ViewportFields.take {}
  let name ← required "name" fields.name?
  let width ← required "width" fields.width?
  let minSize ← required "min_size" fields.minSize?
  return ⟨name, width, minSize⟩

def decodeViewport : Value → Decoded Viewport
  | .table entries => viewportOfEntries entries
  | .moment => viewportOfEntries []
  | .array elements => do
    let name ← decodeText (← element .viewport elements 0)
    let width ← decodePixels (← element .viewport elements 1)
    let minSize ← decodePixels (← element .viewport elements 2)
    return ⟨name, width, minSize⟩
  | value => throw (.wrongType value .viewport)

/-- The fields of a target that have been met. -/
structure TargetFields where
  selector? : Option String := none
  name? : Option String := none

def TargetFields.take (fields : TargetFields) : String × Value → Decoded TargetFields
  | ("selector", value) => return { fields with selector? := ← decodeText value }
  | ("name", value) => return { fields with name? := ← decodeText value }
  | _ => return fields

def targetOfEntries (entries : List (String × Value)) : Decoded Target := do
  let fields ← entries.foldlM TargetFields.take {}
  let selector ← required "selector" fields.selector?
  let name ← required "name" fields.name?
  return ⟨selector, name⟩

def decodeTarget : Value → Decoded Target
  | .table entries => targetOfEntries entries
  | .moment => targetOfEntries []
  | .array elements => do
    let selector ← decodeText (← element .target elements 0)
    let name ← decodeText (← element .target elements 1)
    return ⟨selector, name⟩
  | value => throw (.wrongType value .target)

def decodeList {α : Type} (decode : Value → Decoded α) : Value → Decoded (List α)
  | .array elements => elements.mapM decode
  | value => throw (.wrongType value .list)

/-- Takes one entry of the root table in. -/
def take (config : Config) : String × Value → Decoded Config
  | ("viewports", value) => return { config with viewports := ← decodeList decodeViewport value }
  | ("targets", value) => return { config with targets := ← decodeList decodeTarget value }
  | _ => return config

/-- The configuration of a root table. -/
def ofEntries (entries : List (String × Value)) : Decoded Config :=
  entries.foldlM take builtin

/-- The configuration that a text gives. -/
def parse (text : String) : Decoded Config :=
  match document? text with
  | some entries => ofEntries entries
  | none => throw .malformed

end Config

end TouchTarget
