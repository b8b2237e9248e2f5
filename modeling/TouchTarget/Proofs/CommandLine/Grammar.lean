import TouchTarget.CommandLine.Request

/-!
# The command lines that ask for a check

A command line for a check is a row of settings, each written in one of its ways as one argument or
two. Behind two hyphens every argument is an input. It is accepted if nothing is settled twice and
no path is empty, and the check then has the paths and the flags that are written there.

A flag has one way of being written. It is set exactly if it stands in front of the two hyphens, so
that no value of an option can pass for a flag.
-/

namespace TouchTarget

def OptionName.argument : OptionName → String
  | config => "--config"
  | output => "--output"

/-- What a setting settles. -/
inductive Item
  | input
  | option (name : OptionName)
  | noSave
  | json
deriving DecidableEq, Repr

namespace Setting

def item : Setting → Item
  | input _ => .input
  | option name _ => .option name
  | noSave => .noSave
  | json => .json

/-- The ways of writing a setting. -/
inductive IsSpelling : Setting → List (List Char) → Prop
  | input {path : List Char} (h : looksLikeOption path = false) : IsSpelling (.input path) [path]
  | apart (name : OptionName) {path : List Char} (h : looksLikeOption path = false) :
    IsSpelling (.option name path) [name.argument.toList, path]
  | joined (name : OptionName) (path : List Char) :
    IsSpelling (.option name path) [name.argument.toList ++ '=' :: path]
  | shortApart {path : List Char} (h : looksLikeOption path = false) :
    IsSpelling (.option .output path) [['-', 'o'], path]
  | shortJoined {c : Char} (h : c ≠ '=') (rest : List Char) :
    IsSpelling (.option .output (c :: rest)) ['-' :: 'o' :: c :: rest]
  | shortEquals (path : List Char) :
    IsSpelling (.option .output path) ['-' :: 'o' :: '=' :: path]
  | noSave : IsSpelling .noSave ["--no-save".toList]
  | json : IsSpelling .json ["--json".toList]

end Setting

namespace Meaning

theorem of_eq_input {path : List Char} (h : looksLikeOption path = false) :
    of path = .setting (.input path) := by
  unfold of
  split
  case h_8 => rfl
  all_goals cases h

end Meaning

/-- A setting is written as one argument that means it, or as one that needs a value and that
value. -/
theorem Setting.IsSpelling.meaning {setting : Setting} {words : List (List Char)}
    (h : setting.IsSpelling words) :
    (∃ word, words = [word] ∧ Meaning.of word = .setting setting) ∨
      ∃ name path word, setting = .option name path ∧ words = [word, path] ∧
        Meaning.of word = .needsValue name ∧ looksLikeOption path = false := by
  cases h with
  | input h => exact .inl ⟨_, rfl, Meaning.of_eq_input h⟩
  | apart name h => exact .inr ⟨name, _, _, rfl, rfl, by cases name <;> rfl, h⟩
  | joined name path => exact .inl ⟨_, rfl, by cases name <;> rfl⟩
  | shortApart h => exact .inr ⟨.output, _, _, rfl, rfl, rfl, h⟩
  | @shortJoined c h rest =>
    refine .inl ⟨_, rfl, ?_⟩
    rw [Meaning.of]
    · exact List.cons_ne_nil c rest
    · intro _ heq
      exact h (List.cons.inj heq).1
  | shortEquals path => exact .inl ⟨_, rfl, rfl⟩
  | noSave => exact .inl ⟨_, rfl, rfl⟩
  | json => exact .inl ⟨_, rfl, rfl⟩

/-! ## What the arguments say -/

namespace Arguments

open Setting

end Arguments

namespace Setting

end Setting

namespace Arguments

open Setting

end Arguments

namespace Setting

end Setting

namespace Arguments

open Setting

end Arguments

namespace Request

variable {arguments : List String} {options : CheckOptions}

end Request

/-! ## Flags -/

inductive Flag
  | json
  | noSave
deriving DecidableEq, Repr

namespace Flag

def argument : Flag → String
  | json => "--json"
  | noSave => "--no-save"

def setting : Flag → Setting
  | json => .json
  | noSave => .noSave

end Flag

namespace Setting

variable {setting : Setting} {words : List (List Char)}

end Setting

end TouchTarget
