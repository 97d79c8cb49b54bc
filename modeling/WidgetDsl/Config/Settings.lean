import WidgetDsl.Config.Basic
import WidgetDsl.Config.Fault

/-!
Settings: what a file or a user says about a configuration, any part of which may be left out. A
configuration is made of them once all names in it have been checked.
-/

namespace WidgetDsl

inductive PathsSetting where
  | unsaid
  | paths (paths : List Path)
  | vacuous (value : Value)

structure Settings where
  root : Value
  package : Value
  className : Value
  archives : PathsSetting
  dependencies : PathsSetting
  outputDir : Option Path
  superclass : Value
  description : Value
  runtimePackage : Value
  runtimeClass : Value
  dslClass : Value
  nullableAnnotation : Value
  nonNullAnnotation : Value
  overridesModule : Value
  overrides : Option GivenTable

inductive Setting where
  | plain (set : Settings → Value → Settings)
  | path (set : Settings → Path → Settings)
  | paths (set : Settings → PathsSetting → Settings)
  | table (set : Settings → GivenTable → Settings)

inductive GivenSetting where
  | plain (value : Value)
  | path (path : Path)
  | paths (paths : List Path)

namespace Settings

def empty : Settings :=
  ⟨.null, .null, .null, .unsaid, .unsaid, none, .null, .null, .null, .null, .null, .null, .null,
    .null, none⟩

def all : List (String × Setting) :=
  [("archives", .paths fun s v => { s with archives := v }),
    ("dependencies", .paths fun s v => { s with dependencies := v }),
    ("root", .plain fun s v => { s with root := v }),
    ("package", .plain fun s v => { s with package := v }),
    ("class-name", .plain fun s v => { s with className := v }),
    ("output-dir", .path fun s v => { s with outputDir := some v }),
    ("superclass", .plain fun s v => { s with superclass := v }),
    ("description", .plain fun s v => { s with description := v }),
    ("runtime-package", .plain fun s v => { s with runtimePackage := v }),
    ("runtime-class", .plain fun s v => { s with runtimeClass := v }),
    ("dsl-class", .plain fun s v => { s with dslClass := v }),
    ("nullable-annotation", .plain fun s v => { s with nullableAnnotation := v }),
    ("nonnull-annotation", .plain fun s v => { s with nonNullAnnotation := v }),
    ("quirks-module", .plain fun s v => { s with overridesModule := v }),
    ("quirks", .table fun s v => { s with overrides := some v })]

def keys : List String :=
  all.map (·.1)

def nameOf (key : String) : String :=
  Text.replaceChar '-' '_' key

def ofName? (name : String) : Option Setting :=
  (all.find? fun entry => nameOf entry.1 = name).map (·.2)

def readOne (file : String) (base : Path) (settings : Settings) (key : String) (value : Value) :
    Except ConfigFault Settings :=
  match all.lookup key with
  | none => .error (.unknownKeys file [key])
  | some (.plain set) =>
    match value with
    | .text _ => .ok (set settings value)
    | _ => .error (.notText file key)
  | some (.path set) =>
    match value with
    | .text s => .ok (set settings (base.join (.ofString s)))
    | _ => .error (.notPath file key)
  | some (.paths set) =>
    match value.texts? with
    | some names =>
      .ok (set settings (.paths (names.map fun name => base.join (.ofString name))))
    | none => .error (.notPaths file key)
  | some (.table set) =>
    match value with
    | .table _ => .ok (set settings (.ofValue value))
    | _ => .error (.notTable file key)

def ofEntries (file : String) (base : Path) (entries : Entries Value) :
    Except ConfigFault Settings :=
  match Descriptor.unknownKeys keys entries with
  | [] => entries.foldlM (fun settings entry => readOne file base settings entry.1 entry.2) empty
  | unknown => .error (.unknownKeys file unknown)

end Settings

/-- The paths in a value, where they are written as texts: a text is taken character by character
and a table by its keys. -/
def Value.paths? (value : Value) : Option (List Path) :=
  match value with
  | .text s => some (s.toList.map fun c => .ofString (String.singleton c))
  | .table entries => some ((Entries.keys entries).map .ofString)
  | value => value.texts?.map fun names => names.map .ofString

/-- A value that is given for a setting by name, with all paths written as texts. Where paths are
listed, a value that counts as nothing is kept. -/
def GivenSetting.ofValue (name : String) (value : Value) : Except ConfigFault GivenSetting :=
  match Settings.ofName? name, value with
  | _, .null => .ok (.plain .null)
  | some (.path _), .text s => .ok (.path (.ofString s))
  | some (.path _), _ => .error (.wrongType name)
  | some (.paths _), value =>
    if value.isVacuous then .ok (.plain value)
    else
      match value.paths? with
      | some found => .ok (.paths found)
      | none => .error (.wrongType name)
  | _, value => .ok (.plain value)

namespace Settings

/-- One setting given by name. Nothing and an empty list leave it as it is. -/
def giveOne (settings : Settings) (name : String) (given : GivenSetting) :
    Except ConfigFault Settings :=
  match ofName? name with
  | none => .error (.unknownSetting name)
  | some setting =>
    match given, setting with
    | .plain .null, _ => .ok settings
    | .plain (.list []), _ => .ok settings
    | .paths [], _ => .ok settings
    | .plain value, .plain set => .ok (set settings value)
    | .plain value, .table set => .ok (set settings (.ofValue value))
    | .plain value, .paths set =>
      if value.isVacuous then .ok (set settings (.vacuous value)) else .error (.wrongType name)
    | .path path, .path set => .ok (set settings path)
    | .paths paths, .paths set => .ok (set settings (.paths paths))
    | _, _ => .error (.wrongType name)

def give (settings : Settings) (given : Entries GivenSetting) : Except ConfigFault Settings :=
  given.foldlM (fun settings entry => giveOne settings entry.1 entry.2) settings

def missing (settings : Settings) : List String :=
  ([("root", settings.root), ("package", settings.package),
    ("class_name", settings.className)].filter (·.2.isVacuous)).map (·.1)

def name (shape : String → Bool) (label : String) : Value → Except ConfigFault String
  | .text s => if shape s then .ok s else .error (.invalid label (.text s))
  | value => .error (if value.isVacuous then .invalid label value else .wrongType label)

def nameOr (shape : String → Bool) (label default : String) : Value → Except ConfigFault String
  | .null => name shape label (.text default)
  | value => name shape label value

def name? (shape : String → Bool) (label : String) : Value → Except ConfigFault (Option String)
  | .null => .ok none
  | .text s => (name shape label (.text s)).map some
  | _ => .error (.wrongType label)

def table : Option GivenTable → Except ConfigFault GivenTable
  | none => .ok .empty
  | some (.table classes) => .ok (.table classes)
  | some (.other _) => .error .overridesNotTable

def archivesOf : PathsSetting → Except ConfigFault (List Path)
  | .paths (path :: rest) => .ok (path :: rest)
  | _ => .error .noArchives

def dependenciesOf : PathsSetting → Except ConfigFault (List Path)
  | .unsaid => .ok []
  | .paths paths => .ok paths
  | .vacuous value => if value.paths?.isSome then .ok [] else .error (.wrongType "dependencies")

/-- The configuration that settings make. All that is required has to be there, there has to be
something to scan, and all names have to be such that they can stand in code. -/
def toConfig (settings : Settings) : Except ConfigFault Config := do
  unless settings.missing.isEmpty do throw (.missing settings.missing)
  let archives ← archivesOf settings.archives
  let root ← name Java.isQualifiedName "root" settings.root
  let package ← name Java.isQualifiedName "package" settings.package
  let least := Config.ofNames root package ""
  let runtimePackage ←
    nameOr Java.isQualifiedName "runtime-package" least.runtimePackage settings.runtimePackage
  let nullableAnnotation ← nameOr Java.isQualifiedName "nullable-annotation"
    least.nullableAnnotation settings.nullableAnnotation
  let nonNullAnnotation ← nameOr Java.isQualifiedName "nonnull-annotation"
    least.nonNullAnnotation settings.nonNullAnnotation
  let className ← name Java.isIdentifier "class-name" settings.className
  let runtimeClass ←
    nameOr Java.isIdentifier "runtime-class" least.runtimeClass settings.runtimeClass
  let dslClass ← nameOr Java.isIdentifier "dsl-class" least.dslClass settings.dslClass
  let superclass ← name? Java.isQualifiedName "superclass" settings.superclass
  let overrides ← table settings.overrides
  let dependencies ← dependenciesOf settings.dependencies
  return {
    root, package, className, archives, dependencies, superclass, runtimePackage, runtimeClass,
    dslClass, nullableAnnotation, nonNullAnnotation, overrides
    outputDir := settings.outputDir.getD least.outputDir
    description := if settings.description matches .null then least.description
      else settings.description
    overridesModule := settings.overridesModule }

end Settings

end WidgetDsl
