import WidgetDsl.CommandLine.Argument
import WidgetDsl.CommandLine.Report
import WidgetDsl.Config.Load

/-!
The commands: generating source, showing an analysis, and showing the version.
-/

namespace WidgetDsl.CommandLine

inductive Command where
  | generate
  | inspect
  | version
  deriving DecidableEq, Repr

namespace Command

def name : Command → String
  | .generate => "generate"
  | .inspect => "inspect"
  | .version => "version"

def ofName? (name : String) : Option Command :=
  [generate, inspect, version].find? (·.name = name)

def helpRule : OptionRule := .flag "help"

def sharedRules : List OptionRule :=
  [.valued "config" (some 'c'), .valued "archive" (some 'a'), .valued "dependency" (some 'd'),
    .valued "root" none, .valued "quirks-module" none]

def rules : Command → List OptionRule
  | .generate =>
    sharedRules ++ [.valued "package" none, .valued "class-name" none, .valued "output" (some 'o'),
      .flag "stdout", helpRule]
  | .inspect => sharedRules ++ [.flag "json", helpRule]
  | .version => [helpRule]

end Command

/-- How a command ends: with an exit code, or by a failure that it does not report. -/
inductive Ending where
  | exit (code : Nat)
  | failed (failure : Failure)

structure Outcome where
  items : List Item
  ending : Ending
  store : Store

def usageError (store : Store) : Outcome := ⟨[], .exit 2, store⟩

def help (store : Store) : Outcome := ⟨[], .exit 0, store⟩

def failed (store : Store) (failure : Failure) : Outcome :=
  if failure.kind.isReported then ⟨errorItems failure.message, .exit 1, store⟩
  else ⟨[], .failed failure, store⟩

/-- The paths in arguments that have to lead to files. Of several files with settings only the last
counts. -/
def requiredFiles (arguments : Arguments) : List String :=
  (arguments.value? "config").toList ++ arguments.all "archive" ++ arguments.all "dependency"

def pathsUsable (store : Store) (arguments : Arguments) : Bool :=
  (requiredFiles arguments).all (fun path => store.find (.ofString path) matches .ok (.file _)) &&
    !(arguments.value? "output").any (·.toList.contains '\x00')

/-- The settings that arguments give. To show an analysis the names of the generated class do not
matter, and are filled in. -/
def givenSettings (command : Command) (arguments : Arguments) : Entries GivenSetting :=
  let (package, className) :=
    match command with
    | .inspect => (some (toolName ++ ".inspect"), some "Inspect")
    | _ => (arguments.value? "package", arguments.value? "class-name")
  let text (value : Option String) : GivenSetting := .plain (.ofOption value)
  [("archives", .paths ((arguments.all "archive").map .ofString)),
    ("dependencies", .paths ((arguments.all "dependency").map .ofString)),
    ("root", text (arguments.value? "root")),
    ("package", text package),
    ("class_name", text className),
    ("output_dir", (arguments.value? "output").elim (text none) fun path => .path (.ofString path)),
    ("quirks_module", text (arguments.value? "quirks-module"))]

def workingDirectory : Path := .ofString "."

def loadConfig (store : Store) (command : Command) (arguments : Arguments) :
    Except ConfigFault Config := do
  let file ←
    match arguments.value? "config" with
    | some path => pure (some (Path.ofString path))
    | none => Config.findFile store workingDirectory
  Config.load store file (givenSettings command arguments)

def loadGenerator (modules : Modules) (store : Store) (command : Command) (arguments : Arguments) :
    Except Failure Generator := do
  let config ← (loadConfig store command arguments).mapError .config
  (Generator.ofConfig modules config).mapError .overrides

def generate (generator : Generator) (arguments : Arguments) (store : Store) : Outcome :=
  let shown := arguments.has "stdout"
  match generator.run (!shown) store with
  | (.error failure, store) => failed store failure
  | (.ok draft, store) =>
    let items := if shown then [.printed draft.source] else draftItems draft generator.outputPath
    ⟨items, .exit 0, store⟩

def inspect (generator : Generator) (arguments : Arguments) (store : Store) : Outcome :=
  match generator.analyze store with
  | .error failure => failed store failure
  | .ok analysis =>
    if arguments.has "json" then ⟨[.printed (analysisText analysis)], .exit 0, store⟩
    else ⟨analysisItems analysis, .exit 0, store⟩

def runCommand (modules : Modules) (store : Store) (command : Command) (arguments : Arguments) :
    Outcome :=
  match command with
  | .version => ⟨versionItems, .exit 0, store⟩
  | .generate | .inspect =>
    match loadGenerator modules store command arguments with
    | .error failure => failed store failure
    | .ok generator =>
      if command = .generate then generate generator arguments store
      else inspect generator arguments store

/-- A command with its arguments. Help is shown if it is asked for, whatever else is given;
otherwise all paths have to be usable, and nothing else may be left. -/
def runNamed (modules : Modules) (store : Store) (command : Command) (args : List String) :
    Outcome :=
  match Arguments.read? command.rules args with
  | none => usageError store
  | some arguments =>
    if arguments.has "help" then help store
    else if pathsUsable store arguments && arguments.plain.isEmpty then
      runCommand modules store command arguments
    else usageError store

def splitCommand : (helped : Bool) → List String → Option (Bool × List String)
  | helped, [] => some (helped, [])
  | helped, "--" :: rest => some (helped, rest)
  | _, "--help" :: rest => splitCommand true rest
  | helped, arg :: rest =>
    match readArgument [Command.helpRule] arg with
    | .plain => some (helped, arg :: rest)
    | _ => none

def runUnnamed (store : Store) (args : List String) : Outcome :=
  match splitCommand false args with
  | some (true, _) => help store
  | _ => usageError store

def run (modules : Modules) (args : List String) (store : Store) : Outcome :=
  match splitCommand false args with
  | none => usageError store
  | some (true, _) => help store
  | some (false, []) => usageError store
  | some (false, name :: args) =>
    match Command.ofName? name with
    | some command => runNamed modules store command args
    | none => runUnnamed store (name :: args)

/-- The files that a run may read, as far as arguments and settings in the store tell. -/
def inputs (args : List String) (store : Store) : List Path :=
  match splitCommand false args with
  | some (_, name :: args) =>
    match Command.ofName? name with
    | none => []
    | some command =>
      match Arguments.read? command.rules args with
      | none => []
      | some arguments =>
        let named := arguments.all "config" ++ arguments.all "archive" ++ arguments.all "dependency"
        let configured :=
          match loadConfig store command arguments with
          | .ok config => config.archives ++ config.dependencies
          | .error _ => []
        (Config.settingsFile :: Config.projectFile :: named).map .ofString ++ configured
  | _ => []

end WidgetDsl.CommandLine
