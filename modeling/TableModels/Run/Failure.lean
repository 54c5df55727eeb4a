import TableModels.Disk.Basic
import TableModels.Document.Fetch
import TableModels.Model.Emit
import TableModels.Settings.Basic

/-! What can stop a run. -/

namespace TableModels

inductive Failure where
  /-- The file of settings cannot be used. -/
  | settingsFile (message : String) (file : Path)
  | settings (file : Option String) (issues : List Settings.Issue)
  /-- The settings do not allow a run. -/
  | unusable (problems : List String)
  | noCache (directory : Path)
  | fetch (fault : Document.FetchFault)
  | document (fault : Document.Fault)
  | emit (fault : Model.EmitFault)
  | disk (fault : DiskFault)
  | undecodable (fault : Text.DecodeFault)
  | tooManyDigits (cause : Number.TooManyDigits)
  | tooDeep (nest : Json.Nest)
  /-- A scalar in the file of settings that spells no number or date. -/
  | badScalar (message : String)
  /-- A change was kept from being made. -/
  | interrupted
  deriving Repr

namespace Failure

/-- The report of a failure that a run is prepared for. -/
def report? : Failure → Option Report
  | .settingsFile message file => some (.configuration message (some file.text))
  | .settings file issues => some (.invalidSettings file issues)
  | .unusable problems => some (.configuration "Invalid configuration" none problems)
  | .noCache directory =>
    some (.noCache "No cached schema available and fetching is disabled (fetch: never)" (some directory.text))
  | .fetch fault => some fault.report
  | .emit (.default table cause) => some (Model.renderFailure table cause)
  | _ => none

/-- The text of any failure. -/
def message (failure : Failure) : String :=
  match failure.report? with
  | some report => report.text
  | none =>
    match failure with
    | .document fault => fault.message
    | .emit _ => "argument \"text\" (str) is not an instance of inflect.Word"
    | .disk fault => fault.message
    | .undecodable fault => fault.message
    | .tooManyDigits cause => cause.message
    | .tooDeep nest => nest.message
    | .badScalar text => text
    | _ => "interrupted"

end Failure

end TableModels
