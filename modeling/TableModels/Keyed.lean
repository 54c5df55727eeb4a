/-! Lists of named values, in the order in which the names first came. Reading finds the first entry
of a name, and setting a name that is there keeps its place. -/

namespace TableModels

abbrev Keyed (α : Type) := List (String × α)

namespace Keyed

variable {α : Type}

def get? (entries : Keyed α) (name : String) : Option α := entries.lookup name

def contains (entries : Keyed α) (name : String) : Bool := (get? entries name).isSome

def names (entries : Keyed α) : List String := entries.map Prod.fst

def set : Keyed α → String → α → Keyed α
  | [], name, value => [(name, value)]
  | (key, old) :: rest, name, value =>
    if key == name then (key, value) :: rest else (key, old) :: set rest name value

def erase (entries : Keyed α) (name : String) : Keyed α := entries.filter fun entry => entry.1 != name

/-- Sets every entry in turn, so the last value given for a name is the one that stays. -/
def ofList (entries : List (String × α)) : Keyed α :=
  entries.foldl (fun known entry => set known entry.1 entry.2) []

end Keyed

/-- Names in ascending order by code point. -/
def sortedNames (names : List String) : List String := names.mergeSort fun first second => !(second < first)

end TableModels
