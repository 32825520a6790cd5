import RouteClient.CommandLine.Arguments
import RouteClient.CommandLine.Report
import RouteClient.Run.Generate

/-!
# The program

The program reads its arguments, performs a run on a file tree and reports the result. Nothing is
printed when a run fails; the exit code tells why.
-/

namespace RouteClient

namespace Program

/-- What the program prints when it is asked for its version. -/
def versionText : String := "sdkgen 0.1.0\n"

/-- What a run of the program leaves: its exit code, what it printed, and the file tree. -/
structure Outcome where
  exit : ExitCode
  printed : String
  root : FileNode

/-- What the program prints when its arguments are refused. -/
def refusalText : Arguments.Refusal → String
  | .version => versionText
  | _ => ""

/-- A summary as the program prints it. -/
def summaryText (format : ReportFormat) (colored : Bool) (summary : RunSummary) : String :=
  Report.render format colored summary.toJson ++ "\n"

/-- Carries out what the arguments ask for. -/
def carryOut (colored : Bool) (cwd : String) (root : FileNode) (call : Arguments.Invocation) :
    Outcome :=
  match ReportFormat.parse call.format with
  | .error _ => ⟨.failed, "", root⟩
  | .ok format =>
    match call.command with
    | .completions _ => ⟨.success, "", root⟩
    | .generate options =>
      match Run.perform options cwd root with
      | (root, .error trouble) => ⟨trouble.exitCode, "", root⟩
      | (root, .ok summary) => ⟨.success, summaryText format colored summary, root⟩

/-- Runs the program. `environment` is the project file that the environment names. -/
def run (environment : Option String) (colored : Bool) (args : List String) (cwd : String)
    (root : FileNode) : Outcome :=
  match Arguments.parse environment args with
  | .error refusal => ⟨refusal.exitCode, refusalText refusal, root⟩
  | .ok call => carryOut colored cwd root call

end Program

end RouteClient
