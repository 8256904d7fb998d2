import SmithyKotlin.CommandLine.Arguments
import SmithyKotlin.Document.File
import SmithyKotlin.Model.Summary
import SmithyKotlin.Rendering.Generation
import SmithyKotlin.Settings.File

/-!
# The command line

A command is a function from a file tree to what it prints and the tree it leaves (`Output`, `Result`).

* `runParse` reads a model and tells what is in it.
* `resolveSettings` puts the options over the settings of a file or over the defaults, and checks the outcome.
* `runGenerate` writes the sources of a model below a directory.
* `run` reads the arguments and runs one of these.

The tree is a value here; the files of the system are reached in `Main` only.
-/

namespace SmithyKotlin.CommandLine

/-- Why a command failed: a cause, and what was being done when it arose. -/
inductive Failure where
  | plain (message : String)
  | within (context : String) (error : CodegenError)

/-- The messages below an error that are its own causes. -/
def causes (error : CodegenError) : List String :=
  match error with
  | .malformedGraph fault | .malformedSettings fault => [error.message, fault.message]
  | _ => [error.message]

/-- Text whose further lines are indented. -/
def continued (indent text : String) : String := ("\n" ++ indent).intercalate (Text.split '\n' text)

/-- The causes of a failure, numbered when there are several. -/
def causeLines : List String → String
  | [message] => "    " ++ continued "    " message ++ "\n"
  | messages => String.join (messages.zipIdx.map fun (message, i) =>
      "    " ++ Nat.repr i ++ ": " ++ continued "       " message ++ "\n")

/-- What is reported of a failure. -/
def Failure.report : Failure → String
  | plain message => "Error: " ++ message ++ "\n"
  | within context error =>
    "Error: " ++ context ++ "\n\nCaused by:\n" ++ causeLines (causes error)

/-- What a run leaves behind. -/
structure Result where
  exit : Nat
  stdout : String
  report : Option String
  tree : FileTree

/-! ## Settings -/

/-- The settings that a file or, without one, the options give. -/
def baseSettings (tree : FileTree) (file : Option String) (overrides : Overrides) :
    Except Failure Settings :=
  match file with
  | some path =>
    (Settings.load tree path).mapError (.within ("Failed to load settings from " ++ path))
  | none =>
    match overrides.package, overrides.runtimeVersion with
    | some packageName, some runtimeVersion => .ok { packageName, runtimeVersion }
    | _, _ => .error (.plain "--package and --runtime-version are required without --settings")

/-- The service that an option names. -/
def overrideService (settings : Settings) (service : Option String) : Except Failure Settings :=
  match service with
  | none => .ok settings
  | some service =>
    if service.toList.contains '#' then .ok { settings with service := some ⟨service⟩ }
    else
      .error (.plain "--service must be an absolute shape id like com.example#Weather")

/-- The settings of a run: those of the file with the values of the options, checked at the end. -/
def resolveSettings (tree : FileTree) (file : Option String) (overrides : Overrides) :
    Except Failure Settings := do
  let settings ← baseSettings tree file overrides
  let settings ← overrideService
    { settings with
      packageName := overrides.package.getD settings.packageName
      runtimeVersion := overrides.runtimeVersion.getD settings.runtimeVersion }
    overrides.service
  let settings :=
    { settings with continueOnError := settings.continueOnError || overrides.continueOnError }
  settings.check.mapError (.within "Invalid codegen settings")
  return settings

/-! ## Commands -/

/-- Text that has been printed, and a failure that may have ended the run. -/
structure Output where
  printed : String
  outcome : Except Failure Unit
  tree : FileTree

def line (text : String) : String := text ++ "\n"

def summaryText (summary : Summary) (verbose : Bool) : String :=
  let services := summary.services.map fun id => line ("  Service: " ++ id.text)
  let streams :=
    if summary.eventStreams.isEmpty then ""
    else line "\nEvent streams:"
      ++ String.join (summary.eventStreams.map fun id => line ("  • " ++ id.text))
  let types :=
    if verbose then
      line "\nShapes by type:" ++ String.join (summary.counts.map fun (type, count) =>
        line ("  " ++ type.name ++ ": " ++ Nat.repr count))
    else ""
  line "\n✓ Parse successful!" ++ line "\nModel:" ++ String.join services
    ++ line ("  Shapes: " ++ Nat.repr summary.total)
    ++ line ("  Structures: " ++ Nat.repr (summary.count .struct))
    ++ line ("  Unions: " ++ Nat.repr (summary.count .union))
    ++ line ("  Operations: " ++ Nat.repr (summary.count .operation))
    ++ streams ++ types

def readModel (tree : FileTree) (path : String) : Except Failure Model :=
  (Document.modelOfFile tree path).mapError (.within "Failed to parse Smithy model")

def runParse (tree : FileTree) (path : String) (verbose : Bool) : Output :=
  let started := line ("→ Parsing model: " ++ path)
  match readModel tree path with
  | .error failure => ⟨started, .error failure, tree⟩
  | .ok model => ⟨started ++ summaryText model.summary verbose, .ok (), tree⟩

def settingsText (settings : Settings) (output : String) : String :=
  line ("  Package: " ++ settings.packageName)
    ++ line ("  Runtime version: " ++ settings.runtimeVersion)
    ++ settings.service.elim "" (fun id => line ("  Service: " ++ id.text))
    ++ line ("  Output: " ++ output)

def failureLines (failures : SortedMap CodegenError) : String :=
  String.join (failures.entries.map fun (shape, error) =>
    line ("  ✗ " ++ shape ++ ": " ++ error.message))

def reportText (report : Report) (output : String) : String :=
  let failures := report.failures
  let heading :=
    if failures.isEmpty then line "\n✓ Generation complete!"
    else line ("\n⚠ Generation finished with " ++ Nat.repr failures.size ++ " skipped shape(s)")
      ++ failureLines failures
  let dependencies := report.manifest.dependencies
  heading ++ line "\nGenerated files:"
    ++ String.join (report.written.map fun path => line ("  📄 " ++ path))
    ++ line ("  📄 " ++ Path.join output Manifest.fileName)
    ++ if dependencies.isEmpty then ""
      else line "\nRuntime dependencies:"
        ++ String.join (dependencies.map fun dependency => line ("  • " ++ dependency))

/-- Generates with settings that have been resolved; `printed` is what has been printed before. -/
def runWith (tree : FileTree) (path output printed : String) (settings : Settings) : Output :=
  let printed := printed ++ line "→ Parsing model..."
  match readModel tree path with
  | .error failure => ⟨printed, .error failure, tree⟩
  | .ok model =>
    let printed := printed ++ line ("✓ Parsed " ++ Nat.repr model.shapes.size ++ " shapes")
      ++ line "→ Generating Kotlin sources..."
    match settings.check with
    | .error error => ⟨printed, .error (.within "Failed to create generator" error), tree⟩
    | .ok () =>
      match Generation.toDirectory model settings output tree with
      | (.error error, tree) => ⟨printed, .error (.within "Failed to generate SDK" error), tree⟩
      | (.ok report, tree) => ⟨printed ++ reportText report output, .ok (), tree⟩

def runGenerate (tree : FileTree) (path : String) (file : Option String) (overrides : Overrides)
    (output : String) (verbose : Bool) : Output :=
  let started := line ("→ Generating SDK from: " ++ path)
  match resolveSettings tree file overrides with
  | .error failure => ⟨started, .error failure, tree⟩
  | .ok settings =>
    runWith tree path output (started ++ if verbose then settingsText settings output else "")
      settings

def Output.result (output : Output) : Result :=
  match output.outcome with
  | .ok () => ⟨0, output.printed, none, output.tree⟩
  | .error failure => ⟨1, output.printed, some failure.report, output.tree⟩

/-! ## Runs -/

/-- The name of the program. -/
def programName : String := "smithy-sdk-generator"

def usage : String :=
  line "Generate Kotlin SDK models from Smithy models" ++ line ""
    ++ line ("Usage: " ++ programName ++ " [OPTIONS] <COMMAND>")

/-- Runs the program on its arguments. -/
def run (arguments : List String) (tree : FileTree) : Result :=
  match readArguments arguments with
  | .error .version => ⟨0, line (programName ++ " " ++ generatorVersion), none, tree⟩
  | .error .help => ⟨0, usage, none, tree⟩
  | .error .usageError => ⟨2, "", none, tree⟩
  | .ok invocation =>
    match invocation.command with
    | .parse model => (runParse tree model invocation.verbose).result
    | .generate model settings overrides output =>
      (runGenerate tree model settings overrides output invocation.verbose).result

end SmithyKotlin.CommandLine
