import WidgetDsl.Library.Loader
import WidgetDsl.Library.Scan
import WidgetDsl.Warning

/-!
The catalog: the widget classes among the entries of a scan.
-/

namespace WidgetDsl

structure Catalog where
  root : ResolvedType
  classes : List ResolvedType
  warnings : List Warning

inductive CatalogFault where
  | cyclic (name : String)
  | rootUnresolved (root : String) (fault : ResolveError)
  | rootNotClass (root : String)
  deriving DecidableEq, Repr

def CatalogFault.message : CatalogFault → String
  | .cyclic name => (ResolveError.cyclic name).message
  | .rootUnresolved root fault => "Root type " ++ root ++ " cannot be resolved: " ++ fault.message
  | .rootNotClass root => "Root type " ++ root ++ " is not a class"

namespace Catalog

/-- A public class that is not nested, and is the root or below it. -/
def isEligible (type root : ResolvedType) : Bool :=
  type.kind = .classType && type.isPublic && !type.isNested &&
    (type.name = root.name || type.isSubtypeOf root)

def examine (lib : Library) (root : ResolvedType) (name : String) :
    Except ResolveError (Option ResolvedType) := do
  let type ← lib.resolve name
  if isEligible type root then
    lib.link type
    return some type
  else return none

/-- The eligible types of names in order. A name that lacks something is skipped with a warning. -/
def ofNames (lib : Library) (root : ResolvedType) :
    List String → Except CatalogFault (List ResolvedType × List Warning)
  | [] => .ok ([], [])
  | name :: rest =>
    match examine lib root name with
    | .error (.cyclic other) => .error (.cyclic other)
    | .error (.unresolved _ missing) =>
      (ofNames lib root rest).map fun (types, warnings) =>
        (types, .unresolvableClass name missing :: warnings)
    | .ok none => ofNames lib root rest
    | .ok (some type) =>
      (ofNames lib root rest).map fun (types, warnings) => (type :: types, warnings)

def resolveRoot (lib : Library) (root : String) : Except CatalogFault ResolvedType :=
  match lib.resolve root with
  | .error (.cyclic name) => .error (.cyclic name)
  | .error fault => .error (.rootUnresolved root fault)
  | .ok type => if type.kind = .classType then .ok type else .error (.rootNotClass root)

def candidateNames (entries : List String) : List String :=
  (entries.filterMap binaryName?).filter fun name => '$' ∉ name.toList

def inOrder (types : List ResolvedType) : List ResolvedType :=
  types.mergeSort fun a b => decide (a.canonicalName ≤ b.canonicalName)

def ofScan (scan : Scan) (root : String) : Except CatalogFault Catalog := do
  let root ← resolveRoot scan.library root
  let (types, warnings) ← ofNames scan.library root (candidateNames scan.entries)
  return { root, classes := inOrder types, warnings }

end Catalog

end WidgetDsl
