import TableModels.Log
import TableModels.Text.Case
import TableModels.Value

/-! When the schema is fetched anew and when the stored one is taken. -/

namespace TableModels.Settings

inductive FetchMode where
  | always
  | ifNoCache
  | never
  deriving DecidableEq, Repr

namespace FetchMode

def name : FetchMode → String
  | .always => "always"
  | .ifNoCache => "if_no_cache"
  | .never => "never"

def ofWord? (word : String) : Option FetchMode :=
  if word == "always" then some .always
  else if word == "if_no_cache" || word == "ifnocache" then some .ifNoCache
  else if word == "never" then some .never
  else none

private def ofValue? (value : Value) : Option FetchMode := ofWord? (Text.lower (Text.strip value.toText))

/-- Anything that names no mode means `always`. -/
def ofValue (value : Value) : FetchMode := (ofValue? value).getD .always

/-- A warning if the value is there and names no mode. -/
def notes : Value → List Log.Line
  | .null => []
  | value =>
    if (ofValue? value).isSome then []
    else [Log.warning s!"Unknown fetch mode '{value.toText}', using 'always'"]

end FetchMode

end TableModels.Settings
