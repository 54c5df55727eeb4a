import TableModels.Document.Basic
import TableModels.Json.Reader
import TableModels.Report

/-! Fetching the schema document of a server: one request, and what its answer amounts to. -/

namespace TableModels.Document

structure Server where
  url : String
  secretKey : String
  schema : String := "public"
  /-- Seconds to wait for an answer, whole or not. -/
  timeout : Value := .int 30
  /-- How deep the text of an answer can be nested. -/
  room : Nat := Json.usualRoom
  deriving Repr

structure Request where
  url : String
  headers : List (String × String)
  timeout : Value
  deriving Repr

inductive Response where
  | answer (status : Int) (body : String)
  | unreachable (reason : String)
  deriving Repr

inductive FetchFault where
  | unreachable (url reason : String)
  | refused (status : Int) (body : String)
  | notJson (status : Int) (body : String)
  | notAnObject
  deriving Repr

namespace FetchFault

def message : FetchFault → String
  | .unreachable url reason => s!"Could not reach the Data API at {url}: {reason}"
  | .refused .. => "Failed to fetch OpenAPI spec"
  | .notJson .. => "Data API returned a response that is not valid JSON"
  | .notAnObject => "Data API returned an unexpected OpenAPI document"

def report (fault : FetchFault) : Report :=
  match fault with
  | .refused status body => .fetch fault.message (some status) (some body)
  | .notJson status body => .fetch fault.message (some status) (some body)
  | _ => .fetch fault.message

end FetchFault

/-- A fetch fails as such, its answer is nested too deep, or its document cannot be read. -/
inductive SourceFault where
  | fetch (fault : FetchFault)
  | tooDeep (nest : Json.Nest)
  | document (fault : Fault)
  deriving Repr

namespace Server

private def baseUrl (server : Server) : String := String.ofList (Text.dropTrailing (· == '/') server.url.toList)

def endpoint (server : Server) : String := server.baseUrl ++ "/rest/v1/"

def request (server : Server) : Request where
  url := server.endpoint
  headers :=
    [("apikey", server.secretKey), ("Authorization", "Bearer " ++ server.secretKey),
      ("Accept", "application/openapi+json")]
      ++ (if server.schema == "public" then [] else [("Accept-Profile", server.schema)])
  timeout := server.timeout

/-- The document in an answer. -/
def document (server : Server) : Response → Except SourceFault Value
  | .unreachable reason => .error (.fetch (.unreachable server.baseUrl reason))
  | .answer status body =>
    if status != 200 then .error (.fetch (.refused status body))
    else match Json.read server.room body with
      | .error (.tooDeep nest) => .error (.tooDeep nest)
      | .error _ => .error (.fetch (.notJson status body))
      | .ok (.object fields) => .ok (.object fields)
      | .ok _ => .error (.fetch .notAnObject)

def contents (server : Server) (response : Response) : Except SourceFault Contents := do
  let document ← server.document response
  (read document).mapError .document

/-- What a fetch has to say. -/
def notes (server : Server) (response : Response) : List Log.Line :=
  Log.debug s!"Requesting OpenAPI document from {server.endpoint}" ::
    match server.contents response with
    | .ok contents =>
      Document.notes contents ++ [Log.info s!"Found {contents.snapshot.size} tables in schema '{server.schema}'"]
    | .error _ => []

end Server

end TableModels.Document
