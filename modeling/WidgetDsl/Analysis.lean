import WidgetDsl.Attribute.Group
import WidgetDsl.Catalog
import WidgetDsl.Override.Table

/-!
What is known about a library before code is made: its widget classes and their attributes.
-/

namespace WidgetDsl

structure Analysis where
  root : ResolvedType
  classes : List ResolvedType
  candidates : List Candidate
  groups : List Group
  excludedClasses : List String
  warnings : List Warning

namespace Analysis

def collect (lib : Library) (root : ResolvedType) (overrides : OverrideTable)
    (oracle : NullabilityOracle) :
    List ResolvedType → Except ResolveError (List Candidate × List String)
  | [] => .ok ([], [])
  | type :: rest =>
    if overrides.excludesClass type.canonicalName then
      (collect lib root overrides oracle rest).map fun (candidates, excluded) =>
        (candidates, type.canonicalName :: excluded)
    else do
      let own ← Candidate.ofClass lib root oracle type
      let (candidates, excluded) ← collect lib root overrides oracle rest
      return ((own.filter fun candidate => !overrides.excludesMethod candidate) ++ candidates,
        excluded)

def ofCatalog (lib : Library) (catalog : Catalog) (overrides : OverrideTable)
    (oracle : NullabilityOracle) : Except ResolveError Analysis := do
  let (candidates, excludedClasses) ← collect lib catalog.root overrides oracle catalog.classes
  return {
    root := catalog.root
    classes := catalog.classes
    candidates
    groups := Group.ofAll candidates
    excludedClasses
    warnings := catalog.warnings }

def candidatesOf (analysis : Analysis) (type : ResolvedType) : List Candidate :=
  analysis.candidates.filter (·.declaring.name = type.name)

end Analysis

/-! Analyses as values of a data format. -/

def Candidate.toValue (candidate : Candidate) : Value :=
  .table [("name", .text candidate.name),
    ("value_type", .text candidate.valueType.canonicalName),
    ("method", .text candidate.method.name),
    ("declaring_class", .text candidate.declaring.canonicalName),
    ("listener", .bool candidate.isListener),
    ("nullable", .bool candidate.isNullable)]

def Warning.toValue (warning : Warning) : Value :=
  .table [("code", .text warning.code), ("message", .text warning.message),
    ("class_name", .ofOption warning.className)]

def Group.toValue (group : Group) : Value :=
  .table [("name", .text group.name),
    ("branches", .list (group.candidates.map Candidate.toValue)),
    ("eliminated", .list (group.eliminated.map Candidate.toValue))]

namespace Analysis

def classValue (analysis : Analysis) (type : ResolvedType) : Value :=
  .table [("name", .text type.canonicalName),
    ("supertype", .ofOption (type.superclass.map (·.canonicalName))),
    ("origin", .ofOption type.origin),
    ("attributes", .list ((analysis.candidatesOf type).map Candidate.toValue))]

def toValue (analysis : Analysis) : Value :=
  .table [("root", .text analysis.root.canonicalName),
    ("classes", .list (analysis.classes.map analysis.classValue)),
    ("groups", .list (analysis.groups.map Group.toValue)),
    ("excluded_classes", .list (analysis.excludedClasses.map .text)),
    ("warnings", .list (analysis.warnings.map Warning.toValue))]

end Analysis

end WidgetDsl
