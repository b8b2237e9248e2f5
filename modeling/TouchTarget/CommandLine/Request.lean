/-!
# What a command line asks for

The arguments are taken one by one. What follows two hyphens is no option any more. An option and
a flag may be given once, a flag takes no value, and the value of an option may stand behind an
equals sign, or be the next argument if that does not look like an option. No value may be empty.

A command line that asks for anything else is refused, by the first argument that does.
-/

namespace TouchTarget

/-- What a check reads, prints and saves. -/
structure CheckOptions where
  input : String := "index.html"
  config? : Option String := none
  output : String := "touch-target-test-results.json"
  saves : Bool := true
  printsDocument : Bool := false
deriving DecidableEq, Repr, Inhabited

inductive Request
  | version
  | check (options : CheckOptions)
deriving DecidableEq, Repr, Inhabited

inductive OptionName
  | config
  | output
deriving DecidableEq, Repr, Inhabited

/-- One thing that arguments can settle. -/
inductive Setting
  | input (path : List Char)
  | option (name : OptionName) (path : List Char)
  | noSave
  | json
deriving DecidableEq, Repr, Inhabited

/-- What an argument means. -/
inductive Meaning
  | version
  | endOfOptions
  | setting (setting : Setting)
  /-- The value of the option is the next argument. -/
  | needsValue (name : OptionName)
  | refused
deriving DecidableEq, Repr, Inhabited

namespace Meaning

/-- An option that begins with two hyphens, given its name and its value. -/
def ofLong : String → Option (List Char) → Meaning
  | "version", none => version
  | "json", none => setting .json
  | "no-save", none => setting .noSave
  | "config", some path => setting (.option .config path)
  | "output", some path => setting (.option .output path)
  | "config", none => needsValue .config
  | "output", none => needsValue .output
  | _, _ => refused

def of : List Char → Meaning
  | ['-', '-'] => endOfOptions
  | '-' :: '-' :: long =>
    ofLong (.ofList (long.takeWhile (· != '='))) (long.dropWhile (· != '=')).tail?
  | '-' :: 'V' :: _ => version
  | ['-', 'o'] => needsValue .output
  | '-' :: 'o' :: '=' :: path => setting (.option .output path)
  | '-' :: 'o' :: path => setting (.option .output path)
  | '-' :: _ :: _ => refused
  | path => setting (.input path)

end Meaning

/-- A single hyphen is a value like any other. -/
def looksLikeOption (argument : List Char) : Bool :=
  argument.head? = some '-' && argument ≠ ['-']

/-- What the arguments have settled. -/
structure Arguments where
  input? : Option String := none
  config? : Option String := none
  output? : Option String := none
  noSave : Bool := false
  json : Bool := false
deriving DecidableEq, Repr, Inhabited

namespace Arguments

def options (arguments : Arguments) : CheckOptions :=
  let defaults : CheckOptions := {}
  { input := arguments.input?.getD defaults.input
    config? := arguments.config?
    output := arguments.output?.getD defaults.output
    saves := !arguments.noSave
    printsDocument := arguments.json }

/-- A path that is given once and not empty. -/
def once (present? : Option String) (path : List Char) : Option (Option String) :=
  if present?.isSome || path.isEmpty then none else some (some (.ofList path))

def settle (arguments : Arguments) : Setting → Option Arguments
  | .input path => do
    return { arguments with input? := ← once arguments.input? path }
  | .option .config path => do
    return { arguments with config? := ← once arguments.config? path }
  | .option .output path => do
    return { arguments with output? := ← once arguments.output? path }
  | .noSave => if arguments.noSave then none else some { arguments with noSave := true }
  | .json => if arguments.json then none else some { arguments with json := true }

/-- Takes arguments none of which is an option. -/
def takeInputs (arguments : Arguments) (paths : List (List Char)) : Option Arguments :=
  paths.foldlM (fun arguments path ↦ arguments.settle (.input path)) arguments

/-- Takes the arguments from left to right. -/
def take (arguments : Arguments) : List (List Char) → Option Request
  | [] => some (.check arguments.options)
  | argument :: rest =>
    match Meaning.of argument with
    | .version => some .version
    | .endOfOptions => (arguments.takeInputs rest).map fun arguments ↦ .check arguments.options
    | .setting setting => (arguments.settle setting).bind fun arguments ↦ arguments.take rest
    | .needsValue name =>
      match rest with
      | [] => none
      | path :: others =>
        if looksLikeOption path then none
        else (arguments.settle (.option name path)).bind fun arguments ↦ arguments.take others
    | .refused => none

end Arguments

/-- The request of a command line, unless it is refused. -/
def Request.parse? (arguments : List String) : Option Request :=
  ({} : Arguments).take (arguments.map String.toList)

end TouchTarget
