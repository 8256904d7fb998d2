/-!
# Command line arguments

`readArguments` makes an `Invocation` of the arguments, or says in a `Stop` why there is none: help, the version, or
a mistake, of which only the exit code is modelled.  An `OptionType` has a long and a short name; its value stands
in the next argument, behind `=`, or right behind the short name, and no option can be given twice (`give`).  The
options that change settings are collected in `Overrides`; what they do to settings is left to `resolveSettings`.
-/

namespace SmithyKotlin.CommandLine

/-- An option of a command: its long name, its short name, and whether it has a value. -/
structure OptionType where
  long : String
  short : Option Char := none
  takesValue : Bool := true
  /-- The value is a path, which cannot be empty. -/
  isPath : Bool := false

def modelOption : OptionType := { long := "model", short := some 'm', isPath := true }
def settingsOption : OptionType := { long := "settings", isPath := true }
def packageOption : OptionType := { long := "package", short := some 'p' }
def runtimeOption : OptionType := { long := "runtime-version" }
def serviceOption : OptionType := { long := "service" }
def continueOption : OptionType := { long := "continue-on-error", takesValue := false }
def outputOption : OptionType := { long := "output", short := some 'o', isPath := true }
def verboseOption : OptionType := { long := "verbose", short := some 'v', takesValue := false }
def helpOption : OptionType := { long := "help", short := some 'h', takesValue := false }
def versionOption : OptionType := { long := "version", short := some 'V', takesValue := false }

def topOptions : List OptionType := [verboseOption, helpOption, versionOption]

def parseOptions : List OptionType := [modelOption, verboseOption, helpOption]

def generateOptions : List OptionType :=
  [modelOption, settingsOption, packageOption, runtimeOption, serviceOption, continueOption,
   outputOption, verboseOption, helpOption]

/-- What stops the reading of arguments. -/
inductive Stop where
  | usageError
  | help
  | version
  deriving DecidableEq, Repr

/-- Options that were given, under their long names; an option without value has an empty one. -/
abbrev Given := List (String × String)

/-- Notes an option. -/
def give (given : Given) (option : OptionType) (value : String) : Except Stop Given :=
  if option.long = "help" then .error .help
  else if option.long = "version" then .error .version
  else if given.any (·.1 = option.long) || (option.isPath && value.isEmpty) then .error .usageError
  else .ok (given ++ [(option.long, value)])

/-- What one argument of options leaves open. -/
inductive Pending where
  | none
  /-- The value of the option stands in the next argument. -/
  | value (option : OptionType)

/-- The options in an argument of short names, behind its hyphen. -/
def giveShort (options : List OptionType) (given : Given) :
    List Char → Except Stop (Given × Pending)
  | [] => .ok (given, .none)
  | c :: rest =>
    match options.find? (·.short = some c) with
    | none => .error .usageError
    | some option =>
      if option.takesValue then
        match rest with
        | [] => .ok (given, .value option)
        | '=' :: value => do return (← give given option (String.ofList value), .none)
        | value => do return (← give given option (String.ofList value), .none)
      else if rest.head? = some '=' then .error .usageError
      else do giveShort options (← give given option "") rest

/-- The option in an argument with a long name, behind its hyphens. -/
def giveLong (options : List OptionType) (given : Given) (text : List Char) :
    Except Stop (Given × Pending) :=
  let name := String.ofList (text.takeWhile (· ≠ '='))
  let value := text.dropWhile (· ≠ '=')
  match options.find? (·.long = name) with
  | none => .error .usageError
  | some option =>
    match option.takesValue, value with
    | true, [] => .ok (given, .value option)
    | true, _ :: value => do return (← give given option (String.ofList value), .none)
    | false, [] => do return (← give given option "", .none)
    | false, _ :: _ => .error .usageError

/-- Whether an argument holds options: it starts with a hyphen that does not stand alone. -/
def isOption (argument : String) : Bool :=
  argument.toList.head? = some '-' && argument ≠ "-"

/-- Reads options up to the first argument that is none, which is left with those behind it. -/
def readOptions (options : List OptionType) :
    Given → Pending → List String → Except Stop (Given × List String)
  | given, .none, [] => .ok (given, [])
  | _, .value _, [] => .error .usageError
  | given, .value option, argument :: rest =>
    if isOption argument then .error .usageError
    else do readOptions options (← give given option argument) .none rest
  | given, .none, argument :: rest =>
    match argument.toList with
    | ['-', '-'] => .ok (given, "--" :: rest)
    | '-' :: '-' :: text => do
      let (given, pending) ← giveLong options given text
      readOptions options given pending rest
    | '-' :: c :: text => do
      let (given, pending) ← giveShort options given (c :: text)
      readOptions options given pending rest
    | _ => .ok (given, argument :: rest)

/-- The options of a command, behind which no other argument may stand. -/
def readAllOptions (options : List OptionType) (arguments : List String) : Except Stop Given := do
  match ← readOptions options [] .none arguments with
  | (given, []) => return given
  | (given, ["--"]) => return given
  | _ => .error .usageError

/-- Values that take the place of those in the settings file. -/
structure Overrides where
  package : Option String := none
  runtimeVersion : Option String := none
  service : Option String := none
  continueOnError : Bool := false
  deriving DecidableEq, Repr

inductive Command where
  | parse (model : String)
  | generate (model : String) (settings : Option String) (overrides : Overrides) (output : String)
  deriving DecidableEq, Repr

structure Invocation where
  command : Command
  verbose : Bool
  deriving DecidableEq, Repr

def Given.value? (given : Given) (option : OptionType) : Option String := given.lookup option.long

def Given.has (given : Given) (option : OptionType) : Bool := (given.value? option).isSome

/-- The value of an option that has to be given. -/
def Given.required (given : Given) (option : OptionType) : Except Stop String :=
  (given.value? option).elim (.error .usageError) .ok

/-- The directory that is written to unless another one is named. -/
def defaultOutput : String := "./output"

def readParse (arguments : List String) : Except Stop (Command × Given) := do
  let given ← readAllOptions parseOptions arguments
  return (.parse (← given.required modelOption), given)

def readGenerate (arguments : List String) : Except Stop (Command × Given) := do
  let given ← readAllOptions generateOptions arguments
  let overrides : Overrides :=
    { package := given.value? packageOption
      runtimeVersion := given.value? runtimeOption
      service := given.value? serviceOption
      continueOnError := given.has continueOption }
  let model ← given.required modelOption
  let output := (given.value? outputOption).getD defaultOutput
  return (.generate model (given.value? settingsOption) overrides output, given)

/-- Reads the arguments behind the name of the program. -/
def readArguments (arguments : List String) : Except Stop Invocation := do
  let (top, rest) ← readOptions topOptions [] .none arguments
  match rest with
  | "parse" :: rest =>
    let (command, given) ← readParse rest
    return ⟨command, top.has verboseOption || given.has verboseOption⟩
  | "generate" :: rest =>
    let (command, given) ← readGenerate rest
    return ⟨command, top.has verboseOption || given.has verboseOption⟩
  | ["help"] | ["help", "parse"] | ["help", "generate"] | ["help", "help"] => .error .help
  | _ => .error .usageError

end SmithyKotlin.CommandLine
