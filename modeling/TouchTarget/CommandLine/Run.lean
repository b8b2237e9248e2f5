import TouchTarget.Analysis
import TouchTarget.CommandLine.Request
import TouchTarget.Config.Decoding
import TouchTarget.Results.Document
import TouchTarget.Results.Text
import TouchTarget.Storage

/-!
# Running a check

A check reads the configuration, then the document, and so comes to its results. They are printed
before they are saved, so that a failure to save comes after the printed report. A run that fails
before has printed and saved nothing.

What a run needs of the computer is left open (`Host`), so that the same run works on a `Storage`
and on the files of a real one.
-/

namespace TouchTarget

/-- Why a run came to no result. -/
inductive Failure
  | document (path : String) (error : StorageError)
  | file (path : String) (error : StorageError)
  | config (path : String) (error : ConfigError)
deriving Repr, Inhabited

def Failure.message : Failure → String
  | document path error => s!"Failed to read document '{path}': {error.message}"
  | file path error => s!"I/O error on '{path}': {error.message}"
  | config path _ => s!"Invalid configuration '{path}'"

section Reading

variable {m : Type → Type} [Monad m] (read : String → m (Except StorageError String))

/-- The sheet of the document at a path. -/
def StyleSheet.load (path : String) : ExceptT Failure m StyleSheet := do
  match ← read path with
  | .ok document => return .ofDocument document
  | .error error => throw (.document path error)

/-- The configuration at a path. -/
def Config.load (path : String) : ExceptT Failure m Config := do
  match ← read path with
  | .error error => throw (.file path error)
  | .ok text =>
    match Config.parse text with
    | .ok config => return config
    | .error error => throw (.config path error)

end Reading

/-- What a run needs of the computer. -/
structure Host (m : Type → Type) where
  read (path : String) : m (Except StorageError String)
  /-- The time in the form in which results have it. -/
  now : m String
  print (text : String) : m Unit
  /-- Makes or replaces a file; if that fails, there is an error. -/
  write (path text : String) : m (Option StorageError)

namespace CheckOptions

/-- What is printed of results, without the end of the line. -/
def rendering (options : CheckOptions) (results : Results) : String :=
  if options.printsDocument then results.document else results.text

/-- A path and the text that is saved there. -/
def saved? (options : CheckOptions) (results : Results) : Option (String × String) :=
  if options.saves then some (options.output, results.document) else none

end CheckOptions

section Running

variable {m : Type → Type} [Monad m] (host : Host m)

/-- Saves a text, if there is one. -/
def Host.save : Option (String × String) → m (Option Failure)
  | none => return none
  | some (path, text) => return (← host.write path text).map (.file path)

namespace CheckOptions

variable (options : CheckOptions)

/-- The configuration that a check is to use. -/
def loadConfig : ExceptT Failure m Config :=
  match options.config? with
  | some path => Config.load host.read path
  | none => pure .builtin

/-- Prints results, and then saves them where they are to be saved. -/
def publish (results : Results) : ExceptT Failure m Unit := do
  host.print (options.rendering results ++ "\n")
  if let some failure ← host.save (options.saved? results) then throw failure

def run : ExceptT Failure m Results := do
  let config ← options.loadConfig host
  let sheet ← StyleSheet.load host.read options.input
  let results := config.analyze (← host.now) sheet
  options.publish host results
  return results

end CheckOptions

end Running

/-- The exit code of a run. -/
def exitCode : Except Failure Results → Nat
  | .ok results => if results.allPassed then 0 else 1
  | .error _ => 2

/-- What a run printed, and how it ended. -/
structure Outcome where
  printed : String
  result : Except Failure Results
deriving Inhabited

namespace Outcome

def failure? (outcome : Outcome) : Option Failure :=
  match outcome.result with
  | .ok _ => none
  | .error failure => some failure

def exitCode (outcome : Outcome) : Nat :=
  TouchTarget.exitCode outcome.result

end Outcome

/-- A storage, and what has been printed by now. -/
structure Session where
  storage : Storage
  printed : String := ""

namespace Storage

/-- A computer with the files of a storage, on which time stands still. -/
def host (timestamp : String) (faults : Faults) : Host (StateM Session) where
  read path := return (← get).storage.read path faults
  now := return timestamp
  print text := modify fun session ↦ { session with printed := session.printed ++ text }
  write path text := modifyGet fun session ↦
    let (storage, error?) := session.storage.write path text faults
    (error?, { session with storage })

/-- Saves a text, if there is one. -/
def save (storage : Storage) (saved? : Option (String × String)) (faults : Faults := {}) :
    Storage × Option Failure :=
  let (failure?, session) := ((host "" faults).save saved?).run { storage }
  (session.storage, failure?)

/-- Runs a check on a storage. -/
def check (storage : Storage) (timestamp : String) (options : CheckOptions)
    (faults : Faults := {}) : Storage × Outcome :=
  let (result, session) := (options.run (host timestamp faults)).run.run { storage }
  (session.storage, ⟨session.printed, result⟩)

end Storage

/-- The line that tells the version. -/
def versionText : String := "tapcheck 0.1.0\n"

/-- The exit code of a command line that is refused. -/
def refusedExitCode : Nat := 2

end TouchTarget
