import TableModels.Run.Failure

/-! What a run sees and changes: the disk, the answer of the server, and the log. Every change of the
disk goes through `change`, which keeps count; a change may be kept from being made, which stops the
run there. -/

namespace TableModels

structure World where
  disk : Disk := {}
  /-- What the server answers. -/
  response : Document.Response := .unreachable "no response given"
  requests : List Document.Request := []
  log : List Log.Line := []
  /-- The changes that were made, in order. -/
  journal : List Disk.Change := []
  /-- How many changes were tried. -/
  tried : Nat := 0
  /-- Which changes are kept from being made, by number. -/
  trouble : Nat → Bool := fun _ => false

/-- An action in a world. What it did before a failure stays done. -/
abbrev Act := ExceptT Failure (StateM World)

namespace Act

def note (line : Log.Line) : Act Unit := modify fun world => { world with log := world.log ++ [line] }

def notes (lines : List Log.Line) : Act Unit := modify fun world => { world with log := world.log ++ lines }

def disk : Act Disk := return (← get).disk

def ofDisk {α : Type} (result : Except DiskFault α) : Act α :=
  match result with
  | .ok value => pure value
  | .error fault => throw (.disk fault)

/-- The entry at a path, if there is one. -/
def find (path : Path) : Act (Option Entry) := do ofDisk ((← disk).find path)

/-- Makes a change, whatever the trouble. -/
def perform (change : Disk.Change) : Act Unit := do
  let world ← get
  let disk ← ofDisk (world.disk.apply change)
  set { world with disk, journal := world.journal ++ [change] }

/-- Tries a change. -/
def change (change : Disk.Change) : Act Unit := do
  let world ← get
  set { world with tried := world.tried + 1 }
  if world.trouble world.tried then throw .interrupted
  perform change

/-- Sends a request and gets the answer. -/
def send (request : Document.Request) : Act Document.Response := do
  let world ← get
  set { world with requests := world.requests ++ [request] }
  return world.response

/-- Runs an action in a world. -/
def runIn {α : Type} (action : Act α) (world : World) : Except Failure α × World := (ExceptT.run action).run world

end Act

end TableModels
