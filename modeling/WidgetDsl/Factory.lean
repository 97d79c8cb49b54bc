import WidgetDsl.Override.Table
import WidgetDsl.Warning

/-!
Factories: two entry points that make a widget, named after its class.
-/

namespace WidgetDsl

structure Factory where
  name : String
  widget : Java.TypeName
  deriving DecidableEq, Repr

namespace Factory

def lowerFirst (s : String) : String :=
  match s.toList with
  | [] => ""
  | first :: rest => String.ofList (Text.lower first ++ rest)

def nameFor? (type : ResolvedType) (overrides : OverrideTable) : Option String :=
  match overrides.classAlias type.canonicalName with
  | .excluded => none
  | .name s => some (lowerFirst s)
  | .none => some (lowerFirst type.simpleName)

/-- Factories for classes in order, given the names already taken and the classes that have them. A
name that is a keyword or taken makes a warning in place of a factory. -/
def ofClassesTaken (overrides : OverrideTable) (taken : Entries String) :
    List ResolvedType → List Factory × List Warning
  | [] => ([], [])
  | type :: rest =>
    match nameFor? type overrides with
    | none => ofClassesTaken overrides taken rest
    | some name =>
      if !Java.isFreeIdentifier name then
        let (factories, warnings) := ofClassesTaken overrides taken rest
        (factories, .reservedFactory name type.canonicalName :: warnings)
      else
        match taken.get? name with
        | some holder =>
          let (factories, warnings) := ofClassesTaken overrides taken rest
          (factories, .factoryCollision name type.canonicalName holder :: warnings)
        | none =>
          let (factories, warnings) :=
            ofClassesTaken overrides (taken.insert name type.canonicalName) rest
          (⟨name, .ofBinary type.name⟩ :: factories, warnings)

def ofClasses (classes : List ResolvedType) (overrides : OverrideTable) :
    List Factory × List Warning :=
  ofClassesTaken overrides [] classes

end Factory

end WidgetDsl
