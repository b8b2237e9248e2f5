import Std.Time
import TouchTarget.CommandLine.Run

/-!
# The program

The program runs a check on the files of the computer and by its clock.
-/

namespace TouchTarget

def StorageError.ofSystem : IO.Error → StorageError
  | .noFileOrDirectory .. => .notFound
  | .inappropriateType _ 20 _ => .notDirectory
  | .inappropriateType _ _ _ => .isDirectory
  | error => .other error.toString

def readFile (path : String) : IO (Except StorageError String) := do
  try
    let content ← IO.FS.withFile path .read fun handle ↦ handle.readBinToEnd
    match String.fromUTF8? content with
    | some text => return .ok text
    | none => return .error .notText
  catch error => return .error (.ofSystem error)

def writeFile (path text : String) : IO (Option StorageError) := do
  try
    IO.FS.writeFile path text
    return none
  catch error => return some (.ofSystem error)

/-- The time in the form of RFC 3339, in milliseconds and universal time. -/
def timestampNow : IO String := do
  let now ← Std.Time.Timestamp.now
  return (Std.Time.DateTime.ofTimestampWithZone now .UTC).format "uuuu-MM-dd'T'HH:mm:ss.SSS'Z'"

/-- The computer that the program runs on. -/
def computer : Host IO where
  read := readFile
  now := timestampNow
  print := IO.print
  write := writeFile

def Failure.detail : Failure → String
  | .config _ error => s!": {error.message}"
  | _ => ""

end TouchTarget

open TouchTarget in
def main (arguments : List String) : IO UInt32 := do
  match Request.parse? arguments with
  | none =>
    IO.eprintln "tapcheck: the command line was not understood"
    return refusedExitCode.toUInt32
  | some .version =>
    IO.print versionText
    return 0
  | some (.check options) =>
    let result ← (options.run computer).run
    if let .error failure := result then
      IO.eprintln s!"tapcheck: {failure.message}{failure.detail}"
    return (exitCode result).toUInt32
