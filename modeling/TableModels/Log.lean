/-! Log lines: a level and a text. -/

namespace TableModels.Log

inductive Level where
  | debug
  | info
  | warning
  | error
  | critical
  deriving DecidableEq, Repr

def Level.name : Level → String
  | .debug => "DEBUG"
  | .info => "INFO"
  | .warning => "WARNING"
  | .error => "ERROR"
  | .critical => "CRITICAL"

structure Line where
  level : Level
  text : String
  deriving DecidableEq, Repr

def debug (text : String) : Line := ⟨.debug, text⟩
def info (text : String) : Line := ⟨.info, text⟩
def warning (text : String) : Line := ⟨.warning, text⟩
def error (text : String) : Line := ⟨.error, text⟩

/-- The line without colours. -/
def Line.plain (line : Line) : String := line.level.name ++ ": " ++ line.text

def successMark : String := "✓"
def progressMark : String := "→"
def highlightMark : String := "•"

def success (text : String) : Line := info (successMark ++ " " ++ text)
def progress (text : String) : Line := info (progressMark ++ " " ++ text)
def highlight (text : String) : Line := info (highlightMark ++ " " ++ text)

def separator : String := String.ofList (List.replicate 60 '=')

/-- A heading between two rules. The caller gives the title in capitals. -/
def heading (title : String) : List Line := [info separator, info ("  " ++ title), info separator]

end TableModels.Log
