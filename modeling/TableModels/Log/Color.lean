import TableModels.Log
import TableModels.Text.Scan

/-! Log lines in colour. Warnings and errors take the colour of their level, other lines that of the
marker their text begins with. -/

namespace TableModels.Log

private def escape (codes : String) : String := "\x1b[" ++ codes ++ "m"

def reset : String := escape "0"
def bold : String := escape "1"

def Level.color : Level → String
  | .debug => escape "36"
  | .info => escape "32"
  | .warning => escape "33"
  | .error => escape "31"
  | .critical => escape "35"

def successColor : String := escape "92"
def progressColor : String := escape "94"
def highlightColor : String := escape "96"

private def isSevere : Level → Bool
  | .debug => false
  | .info => false
  | _ => true

/-- What goes before a line to colour it. Plain lines of information have no colour. -/
def Line.color (line : Line) : String :=
  let text := String.ofList (line.text.toList.dropWhile Text.isBlank)
  if isSevere line.level then line.level.color
  else if Text.hasPrefix successMark text then successColor ++ bold
  else if Text.hasPrefix progressMark text then progressColor
  else if Text.hasPrefix highlightMark text then highlightColor
  else if Text.hasPrefix "===" text then bold ++ highlightColor
  else if line.level == .debug then line.level.color
  else ""

/-- The line as a terminal gets it. -/
def Line.colored (line : Line) : String :=
  if line.color == "" then line.plain else line.color ++ line.plain ++ reset

end TableModels.Log
