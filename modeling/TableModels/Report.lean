import TableModels.Value

/-! Failures as they are reported: a message, and with it a code, some context and suggestions. -/

namespace TableModels

structure Report where
  message : String
  code : Option String := none
  context : Fields := []
  suggestions : List String := []
  deriving Repr

namespace Report

private def part (title : String) (lines : List String) : List String :=
  if lines.isEmpty then [] else title :: lines

def text (report : Report) : String :=
  "\n".intercalate (report.message ::
    ((match report.code with
      | none => []
      | some code => if code == "" then [] else ["Error Code: " ++ code])
    ++ part "Context:" (report.context.map fun (name, value) => "  " ++ name ++ ": " ++ value.toText)
    ++ part "Suggestions:" (report.suggestions.map ("  • " ++ ·))))

private def orDefault (given usual : List String) : List String := if given.isEmpty then usual else given

/-- Adds a text to the context unless it is missing or empty. -/
private def noting (name : String) (text : Option String) (context : Fields) : Fields :=
  match text with
  | none => context
  | some text => if text == "" then context else Keyed.set context name (.text text)

def configuration (message : String) (file : Option String := none) (issues : List String := [])
    (context : Fields := []) (suggestions : List String := []) : Report where
  message := message
  code := some "CONFIG_ERROR"
  context :=
    let context := noting "config_file" file context
    if issues.isEmpty then context else Keyed.set context "issues" (.text ("; ".intercalate issues))
  suggestions := orDefault suggestions
    ["Check the supadantic.yaml syntax",
      "Set SUPABASE_DATA_API_URL and SUPABASE_SECRET_KEY in .env or the environment",
      "Use either 'include' or 'exclude', not both"]

/-- Long answers are cut. -/
private def shortened (body : String) : String :=
  if body.length ≤ 500 then body else Text.takeText 500 body ++ "..."

def fetch (message : String) (status : Option Int := none) (body : Option String := none)
    (context : Fields := []) (suggestions : List String := []) : Report where
  message := message
  code := some "FETCH_ERROR"
  context := noting "response" (body.map shortened) (match status with
    | none => context
    | some status => Keyed.set context "status_code" (.int status))
  suggestions := orDefault suggestions
    ["Verify the Data API URL (https://<project>.supabase.co)",
      "Verify the secret key is the service_role key, not the anon key",
      "Check that the project is active and reachable"]

def noCache (message : String) (directory : Option String := none) (context : Fields := [])
    (suggestions : List String := []) : Report where
  message := message
  code := some "NO_CACHE"
  context := noting "cache_dir" directory context
  suggestions := orDefault suggestions
    ["Run once with 'fetch: always' to populate the cache", "Check the 'cache_dir' setting"]

def codeGeneration (message : String) (table : Option String := none) (context : Fields := [])
    (suggestions : List String := []) : Report where
  message := message
  code := some "CODE_GENERATION_ERROR"
  context := noting "table" table context
  suggestions := orDefault suggestions
    ["Check the table schema for unsupported patterns", "Check for naming conflicts or reserved words"]

end Report

end TableModels
