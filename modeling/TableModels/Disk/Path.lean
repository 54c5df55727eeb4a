import TableModels.Text.Scan

/-! Paths of files and directories, as the names on the way from the directory of the run. A path from
the root begins with an empty name. -/

namespace TableModels

abbrev Path := List String

namespace Path

/-- Empty names and single dots on the way do not count. -/
def ofText (text : String) : Path :=
  let names := ((Text.splitChars (· == '/') text.toList).map String.ofList).filter fun name => name != "" && name != "."
  if Text.hasPrefix "/" text then "" :: names else names

def text (path : Path) : String :=
  if path = [] then "." else if path = [""] then "/" else "/".intercalate path

def join (path : Path) (name : String) : Path := path ++ [name]

def parent (path : Path) : Path := path.dropLast

/-- The last name of a path. -/
def lastName (path : Path) : String := (path.getLast?).getD ""

/-- The directory of the run, or the root. -/
def isTop (path : Path) : Bool := path = [] || path = [""]

/-- The directories on the way to a path, the outermost first. -/
def ancestors (path : Path) : List Path := (List.range path.length).map path.take

end Path

end TableModels
