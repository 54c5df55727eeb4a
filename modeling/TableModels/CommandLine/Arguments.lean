import TableModels.Text.Scan

/-! The arguments of the command line: a command and its options.

Options may be shortened as long as they stay unambiguous, several of one letter may be joined, and a
value may follow its option at once, after an equals sign, or as the next argument. Help ends the run
as soon as it is met, before arguments that nothing took are refused. -/

namespace TableModels.CommandLine

open Text

inductive Command where
  | sync
  | clean
  deriving DecidableEq, Repr

def Command.name : Command → String
  | .sync => "sync"
  | .clean => "clean"

structure Arguments where
  command : Command
  config : String := "supadantic.yaml"
  envFile : String := ".env"
  verbose : Bool := false
  noColor : Bool := false
  force : Bool := false
  deriving DecidableEq, Repr

/-- Why there is nothing to run. -/
inductive Stop where
  | help
  | usage
  deriving DecidableEq, Repr

def Stop.exitCode : Stop → Nat
  | .help => 0
  | .usage => 2

inductive Switch where
  | help
  | config
  | envFile
  | verbose
  | noColor
  | force
  deriving DecidableEq, Repr

def Switch.takesValue : Switch → Bool
  | .config => true
  | .envFile => true
  | _ => false

abbrev Spellings := List (String × Switch)

def helpSpellings : Spellings := [("-h", .help), ("--help", .help)]

def commonSpellings : Spellings :=
  helpSpellings ++ [("-c", .config), ("--config", .config), ("--env-file", .envFile), ("-v", .verbose),
    ("--verbose", .verbose), ("--no-color", .noColor)]

def Command.spellings : Command → Spellings
  | .sync => commonSpellings ++ [("-f", .force), ("--force", .force)]
  | .clean => commonSpellings

/-- What stands in one argument with an option, after an equals sign or at once. -/
structure Attached where
  afterEquals : Bool
  content : String
  deriving DecidableEq, Repr

/-- What an argument looks like before its neighbours are considered. -/
inductive Shape where
  | operand
  | option (option : Switch) (isLong : Bool) (attached : Option Attached)
  | unknown
  | ambiguous
  deriving DecidableEq, Repr

private def startsLong (arg : String) : Bool := hasPrefix "--" arg

/-- The text before an equals sign and the text after it. -/
private def splitAtEquals? (arg : String) : Option (String × String) :=
  let before := arg.toList.takeWhile (· != '=')
  match arg.toList.drop before.length with
  | _ :: after => some (String.ofList before, String.ofList after)
  | [] => none

/-- Numbers below zero are no options. -/
private def isNegativeNumber (arg : String) : Bool :=
  match arg.toList with
  | '-' :: rest =>
    let whole := rest.takeWhile isDigit
    match rest.drop whole.length with
    | [] => !whole.isEmpty
    | '.' :: fraction => !fraction.isEmpty && fraction.all isDigit
    | _ => false
  | _ => false

private def longMatches (spellings : Spellings) (arg : String) : List Shape :=
  let (start, value) : String × Option Attached := match splitAtEquals? arg with
    | some (start, value) => (start, some ⟨true, value⟩)
    | none => (arg, none)
  (spellings.filter fun spelling => hasPrefix start spelling.1).map fun spelling => .option spelling.2 true value

private def shortMatches (spellings : Spellings) (arg : String) : List Shape :=
  let short := takeText 2 arg
  let joined := String.ofList (arg.toList.drop 2)
  spellings.filterMap fun (spelling, option) =>
    if spelling == short then some (.option option false (some ⟨false, joined⟩))
    else if hasPrefix arg spelling then some (.option option (startsLong spelling) none)
    else none

/-- The shape of an argument that is no exact option. -/
private def shapeOfOther (spellings : Spellings) (arg : String) : Shape :=
  match if startsLong arg then longMatches spellings arg else shortMatches spellings arg with
  | [shape] => shape
  | _ :: _ :: _ => .ambiguous
  | [] => if isNegativeNumber arg || arg.toList.contains ' ' then .operand else .unknown

def shapeOf (spellings : Spellings) (arg : String) : Shape :=
  if !hasPrefix "-" arg then .operand
  else match spellings.lookup arg with
    | some option => .option option (startsLong arg) none
    | none =>
      if arg.length == 1 then .operand
      else
        let exact := (splitAtEquals? arg).bind fun (before, value) =>
          (spellings.lookup before).map fun option => Shape.option option (startsLong before) (some ⟨true, value⟩)
        exact.getD (shapeOfOther spellings arg)

def Arguments.set (arguments : Arguments) (option : Switch) (value : String) : Arguments :=
  match option with
  | .help => arguments
  | .config => { arguments with config := value }
  | .envFile => { arguments with envFile := value }
  | .verbose => { arguments with verbose := true }
  | .noColor => { arguments with noColor := true }
  | .force => { arguments with force := true }

/-- The options joined in one argument, with the value of the last if it stands there too. `refused` says
that the argument goes on with letters that are no options. -/
structure Joined where
  options : List (Switch × Option String)
  refused : Bool := false
  deriving Repr

private def Joined.after (option : Switch) (joined : Joined) : Joined :=
  { joined with options := (option, none) :: joined.options }

private def attachedIn : List Char → Option Attached
  | [] => none
  | '=' :: rest => some ⟨true, String.ofList rest⟩
  | rest => some ⟨false, String.ofList rest⟩

private def unjoin (spellings : Spellings) : Nat → Switch → Bool → Option Attached → Except Stop Joined
  | 0, _, _, _ => .error .usage
  | _ + 1, option, _, none => .ok ⟨[(option, none)], false⟩
  | fuel + 1, option, isLong, some attached =>
    if option.takesValue then .ok ⟨[(option, some attached.content)], false⟩
    else if isLong || attached.afterEquals then .error .usage
    else match attached.content.toList with
      | [] => .error .usage
      | '-' :: _ => .error .usage
      | c :: rest =>
        match spellings.lookup (String.ofList ['-', c]) with
        | none => .ok ⟨[(option, none)], true⟩
        | some next => (unjoin spellings fuel next false (attachedIn rest)).map (Joined.after option)

private def apply (arguments : Arguments) : List (Switch × Option String) → Except Stop Arguments
  | [] => .ok arguments
  | (option, value) :: rest =>
    if option == .help then .error .help else apply (arguments.set option (value.getD "")) rest

private def needsNext (joined : Joined) : Bool :=
  (joined.options.getLast?.map fun (option, value) => option.takesValue && value.isNone).getD false

private def giveValue (value : String) (options : List (Switch × Option String)) :
    List (Switch × Option String) :=
  options.dropLast ++ (options.getLast?.map fun (option, _) => (option, some value)).toList

/-- Reads the arguments after a command. `refused` says that one of them was not taken. -/
private def readOptions (spellings : Spellings) (refused : Bool) (arguments : Arguments) :
    List String → Except Stop Arguments
  | [] => if refused then .error .usage else .ok arguments
  | arg :: rest =>
    if arg == "--" then .error .usage
    else match shapeOf spellings arg with
      | .operand => readOptions spellings true arguments rest
      | .unknown => readOptions spellings true arguments rest
      | .ambiguous => .error .usage
      | .option option isLong attached => do
        let joined ← unjoin spellings (arg.length + 1) option isLong attached
        if needsNext joined then
          match rest with
          | [] => .error .usage
          | next :: rest =>
            if next != "--" && shapeOf spellings next == .operand then
              readOptions spellings refused (← apply arguments (giveValue next joined.options)) rest
            else .error .usage
        else readOptions spellings (refused || joined.refused) (← apply arguments joined.options) rest

/-- Whether an argument before any `--` could be more than one option. -/
private def hasAmbiguous (spellings : Spellings) (args : List String) : Bool :=
  (args.takeWhile (· != "--")).any fun arg => shapeOf spellings arg == .ambiguous

private def command? (name : String) : Option Command :=
  if name == "sync" then some .sync else if name == "clean" then some .clean else none

/-- Reads a command line. `refused` says that something before the command was not taken. -/
private def readCommand (refused : Bool) : List String → Except Stop Arguments
  | [] => .error .usage
  | arg :: rest =>
    if arg == "--" then .error .usage
    else match shapeOf helpSpellings arg with
      | .operand =>
        match command? arg with
        | none => .error .usage
        | some command =>
          if hasAmbiguous command.spellings rest then .error .usage
          else readOptions command.spellings refused { command } rest
      | .option option isLong attached => do
        let joined ← unjoin helpSpellings (arg.length + 1) option isLong attached
        discard (apply { command := .sync } joined.options)
        readCommand (refused || joined.refused) rest
      | .ambiguous => .error .usage
      | .unknown => readCommand true rest

def parse (args : List String) : Except Stop Arguments := readCommand false args

end TableModels.CommandLine
