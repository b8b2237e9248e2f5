import TouchTarget.Main
import TouchTarget.Proofs.Css.Boundary
import TouchTarget.Proofs.Css.Spelling
import TouchTarget.Proofs.Css.Pieces
import TouchTarget.Proofs.Css.Nesting
import TouchTarget.Proofs.Css.Depth
import TouchTarget.Proofs.Css.FirstLength
import TouchTarget.Proofs.Css.Statements
import TouchTarget.Proofs.Css.Blocks
import TouchTarget.Proofs.Rules.Merging
import TouchTarget.Proofs.Rules.AtRules
import TouchTarget.Proofs.Rules.Concatenation
import TouchTarget.Proofs.Rules.MediaRule
import TouchTarget.Proofs.Rules.Omission
import TouchTarget.Proofs.Rules.OnePass
import TouchTarget.Proofs.Rules.Clauses
import TouchTarget.Proofs.Rules.LastSemicolon
import TouchTarget.Proofs.Rules.History
import TouchTarget.Proofs.Rules.Changes
import TouchTarget.Proofs.Cascade.Overlay
import TouchTarget.Proofs.Cascade.Activity
import TouchTarget.Proofs.Cascade.Winner
import TouchTarget.Proofs.Cascade.Unmerged
import TouchTarget.Proofs.Cascade.Narrowing
import TouchTarget.Proofs.Text.Utf8
import TouchTarget.Proofs.Text.Runs
import TouchTarget.Proofs.Html.StyleRegion
import TouchTarget.Proofs.Html.EndTag
import TouchTarget.Proofs.Json.Layout
import TouchTarget.Proofs.Json.Reader
import TouchTarget.Proofs.Json.Exactness
import TouchTarget.Proofs.Results.Totals
import TouchTarget.Proofs.Results.RoundTrip
import TouchTarget.Proofs.Results.Isolation
import TouchTarget.Proofs.Results.Regrouping
import TouchTarget.Proofs.Results.ByName
import TouchTarget.Proofs.Results.Saturation
import TouchTarget.Proofs.Toml.DistinctKeys
import TouchTarget.Proofs.Toml.RootTable
import TouchTarget.Proofs.Config.Entries
import TouchTarget.Proofs.Config.Acceptance
import TouchTarget.Proofs.Storage.Writing
import TouchTarget.Proofs.CommandLine.Grammar
import TouchTarget.Proofs.CommandLine.Outcome
import TouchTarget.Proofs.Css.Shorthand
import TouchTarget.Proofs.Numeric.Rounding
import TouchTarget.Proofs.Css.WholeLength
import TouchTarget.Proofs.Css.FractionLength
import TouchTarget.Proofs.Css.LetterCase
import TouchTarget.Proofs.Rules.MediaLetterCase
import TouchTarget.Proofs.Css.Stops
import TouchTarget.Proofs.Cursor.Position
import TouchTarget.Proofs.Cursor.Readers
import TouchTarget.Proofs.Cursor.Loops
import TouchTarget.Proofs.Cursor.Statements
import TouchTarget.Proofs.Cursor.Rules
import TouchTarget.Proofs.Cursor.Agreement
import TouchTarget.Proofs.Cursor.Lengths
import TouchTarget.Proofs.Cursor.Sheets
