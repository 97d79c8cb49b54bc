import WidgetDsl.Dispatch.Case
import WidgetDsl.Warning

/-!
The dispatch table: a case to each attribute, and a typed wrapper to each value type of an
attribute.
-/

namespace WidgetDsl.Dispatch

structure Wrapper where
  name : String
  valueType : Java.TypeName
  nullability : Nullability
  deriving DecidableEq, Repr

structure Table where
  cases : List Case
  wrappers : List Wrapper
  warnings : List Warning

inductive TableFault where
  | branch (fault : Fault)
  | resolve (fault : ResolveError)

structure Builder where
  library : Library
  root : ResolvedType
  names : RuntimeNames
  overrides : OverrideTable
  oracle : NullabilityOracle

namespace Builder

def wrapper (builder : Builder) (group : Group) (valueType : String) :
    Except ResolveError Wrapper := do
  let type := Java.TypeName.ofBinary valueType
  let nullability ←
    match type.isPrimitive, group.candidates.find? (·.valueType.name = valueType) with
    | false, some candidate =>
      builder.oracle.ofMethod builder.library candidate.declaring.name candidate.method.name
        valueType
    | _, _ => pure .unknown
  return ⟨group.name, type, nullability⟩

/-- A wrapper to each value type of a group, unless the attribute's name cannot be a method's. -/
def wrappers (builder : Builder) (group : Group) :
    Except ResolveError (List Wrapper × List Warning) :=
  if Java.isFreeIdentifier group.name then
    (group.valueTypes.mapM (builder.wrapper group)).map (·, [])
  else
    .ok ([], [Warning.reservedAttribute group.name
      ((group.candidates.head?).map (·.declaring.canonicalName))])

def ofSorted (builder : Builder) : List Group → Except TableFault Table
  | [] => .ok ⟨[], [], []⟩
  | group :: rest =>
    if group.candidates.isEmpty then ofSorted builder rest
    else do
      let case ← (caseOf builder.root builder.names builder.overrides group).mapError .branch
      let (wrappers, warnings) ← (builder.wrappers group).mapError .resolve
      let table ← ofSorted builder rest
      return ⟨case :: table.cases, wrappers ++ table.wrappers, warnings ++ table.warnings⟩

def build (builder : Builder) (groups : List Group) : Except TableFault Table :=
  builder.ofSorted (groups.mergeSort fun a b => decide (a.name ≤ b.name))

end Builder

end WidgetDsl.Dispatch
