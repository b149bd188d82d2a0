import ShellUnits.Document.Text

/-!
The arguments of the command line.

Arguments are read from left to right, and the first that settles the run ends the reading: a usage error,
or a request for help or for the version. An option takes its value from the rest of its argument (behind
an equals sign, or directly behind a short letter) or else from the next argument, unless that looks like a
flag. Short flags can share one dash. No option but the work directory can be given twice, no value can be
empty, and there are no positional arguments.

Main definitions: `Settings`, `Request`, `Request.ofArguments`.
-/

namespace ShellUnits.CommandLine

/-- What a run is to do. An option that was not given is missing. -/
structure Settings where
  /-- The work directories to change to, one after the other. -/
  directories : List String := []
  file : Option String := none
  dryRun : Bool := false
  format : Option DumpFormat := none
deriving DecidableEq, Repr, Inhabited

/-- What the arguments ask for. -/
inductive Request where
  | run (settings : Settings)
  | shortHelp
  | longHelp
  | version
  | usageError
deriving DecidableEq, Repr

/-- The options that take a value. -/
inductive ValueOption where
  | directory
  | file
  | format
deriving DecidableEq, Repr

/-- The flags that take no value. -/
inductive Flag where
  | dryRun
  | shortHelp
  | longHelp
  | version
deriving DecidableEq, Repr

/-- What the name of an option or a flag stands for. -/
inductive Name where
  | option (option : ValueOption)
  | flag (flag : Flag)
deriving DecidableEq, Repr

def Name.ofLong? (name : String) : Option Name :=
  if name = "directory" then some (.option .directory)
  else if name = "file" then some (.option .file)
  else if name = "output-format" then some (.option .format)
  else if name = "dry-run" then some (.flag .dryRun)
  else if name = "help" then some (.flag .longHelp)
  else if name = "version" then some (.flag .version)
  else none

def Name.ofShort? (c : Char) : Option Name :=
  if c = 'C' then some (.option .directory)
  else if c = 'f' then some (.option .file)
  else if c = 'F' then some (.option .format)
  else if c = 'd' then some (.flag .dryRun)
  else if c = 'h' then some (.flag .shortHelp)
  else if c = 'V' then some (.flag .version)
  else none

/-- The formats by their names on the command line. -/
def formatOfName? (name : String) : Option DumpFormat :=
  if name = "json" then some .json else if name = "yaml" then some .yaml else none

/-- Settings with the value of an option; the request ends here if the value is refused. -/
def Settings.withValue (settings : Settings) (option : ValueOption) (value : String) :
    Except Request Settings :=
  if value = "" then .error .usageError
  else match option with
    | .directory => .ok { settings with directories := settings.directories ++ [value] }
    | .file =>
      if settings.file.isSome then .error .usageError else .ok { settings with file := some value }
    | .format =>
      match formatOfName? value with
      | some format =>
        if settings.format.isSome then .error .usageError
        else .ok { settings with format := some format }
      | none => .error .usageError

/-- Settings with a flag; the request ends here if the flag asks for something else than a run. -/
def Settings.withFlag (settings : Settings) : Flag → Except Request Settings
  | .dryRun => if settings.dryRun then .error .usageError else .ok { settings with dryRun := true }
  | .shortHelp => .error .shortHelp
  | .longHelp => .error .longHelp
  | .version => .error .version

/-- What one argument leads to: settings, or an option that waits for its value. -/
inductive Progress where
  | settings (settings : Settings)
  | waiting (settings : Settings) (option : ValueOption)

/-- Reads an argument with two dashes, without them. -/
def readLong (settings : Settings) (text : List Char) : Except Request Progress :=
  let name := text.takeWhile (· != '=')
  let value? := (text.drop name.length).tail?
  match Name.ofLong? (String.ofList name), value? with
  | some (.option option), some value =>
    (settings.withValue option (String.ofList value)).map .settings
  | some (.option option), none => .ok (.waiting settings option)
  | some (.flag flag), none => (settings.withFlag flag).map .settings
  | _, _ => .error .usageError

/-- Reads the letters behind a single dash. -/
def readShort (settings : Settings) : List Char → Except Request Progress
  | [] => .ok (.settings settings)
  | c :: rest =>
    match Name.ofShort? c with
    | some (.flag flag) =>
      match settings.withFlag flag with
      | .ok settings => readShort settings rest
      | .error request => .error request
    | some (.option option) =>
      match rest with
      | [] => .ok (.waiting settings option)
      | '=' :: value => (settings.withValue option (String.ofList value)).map .settings
      | value => (settings.withValue option (String.ofList value)).map .settings
    | none => .error .usageError

/-- Whether an argument cannot be the value of the option before it. -/
def looksLikeFlag (text : List Char) : Bool :=
  text.head? == some '-' && text != ['-']

/-- Reads one argument that is not the value of an option. -/
def readArgument (settings : Settings) (argument : String) : Except Request Progress :=
  match argument.toList with
  | '-' :: '-' :: text => readLong settings text
  | '-' :: c :: text => readShort settings (c :: text)
  | _ => .error .usageError

/-- Reads arguments; `waiting` is the option whose value comes next. -/
def readArguments (settings : Settings) (waiting : Option ValueOption) :
    List String → Except Request Settings
  | [] => if waiting.isSome then .error .usageError else .ok settings
  | argument :: rest =>
    match waiting with
    | some option =>
      if looksLikeFlag argument.toList then .error .usageError
      else match settings.withValue option argument with
        | .ok settings => readArguments settings none rest
        | .error request => .error request
    | none =>
      if argument = "--" then (if rest = [] then .ok settings else .error .usageError)
      else match readArgument settings argument with
        | .ok (.settings settings) => readArguments settings none rest
        | .ok (.waiting settings option) => readArguments settings (some option) rest
        | .error request => .error request

/-- What the arguments ask for. -/
def Request.ofArguments (arguments : List String) : Request :=
  match readArguments {} none arguments with
  | .ok settings => .run settings
  | .error request => request

end ShellUnits.CommandLine
