import RouteClient.Failure

/-!
# Troubles of a run

A run fails with a failure of the library, to which the run adds what it was doing, or for another
reason that is given in words.
-/

namespace RouteClient

/-- Why a run fails. -/
inductive Trouble where
  /-- A failure of the library, with what was being done, outermost first. -/
  | failure (context : List String) (failure : Failure)
  /-- Another reason. -/
  | other (description : String)
  deriving DecidableEq

namespace Trouble

/-- A failure of the library without further context. -/
def of (f : Failure) : Trouble := .failure [] f

/-- A failure with its source, as they are listed in messages. -/
def chain (f : Failure) : List String :=
  match f with
  | .serialization _ (some source) => [f.message, source]
  | .io _ cause => [f.message, cause]
  | _ => [f.message]

/-- The trouble in words: what was being done, then the failure with its source. -/
def message : Trouble → String
  | .failure context f => ": ".intercalate (context ++ chain f)
  | .other description => description

/-- The exit code of a run that fails with a trouble. -/
def exitCode : Trouble → ExitCode
  | .failure _ f => f.exitCode
  | .other _ => .failed

end Trouble

/-- Passes a failure of the library on as the trouble of a run. -/
def liftFailure {α : Type} (result : Except Failure α) : Except Trouble α :=
  result.mapError Trouble.of

end RouteClient
