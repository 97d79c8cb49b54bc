import WidgetDsl.Library.Loader

/-!
Whether a parameter takes null, as far as annotations tell.
-/

namespace WidgetDsl

inductive Nullability where
  | nullable
  | nonNullable
  | unknown
  deriving DecidableEq, Repr

inductive NullabilityOracle where
  | silent
  | annotations (nullable nonNull : List String)
  deriving DecidableEq, Repr

namespace NullabilityOracle

def nullableAnnotations : List String :=
  ["androidx.annotation.Nullable", "android.annotation.Nullable",
    "android.support.annotation.Nullable", "javax.annotation.Nullable",
    "org.jetbrains.annotations.Nullable", "org.jspecify.annotations.Nullable"]

def nonNullAnnotations : List String :=
  ["androidx.annotation.NonNull", "android.annotation.NonNull",
    "android.support.annotation.NonNull", "javax.annotation.Nonnull",
    "org.jetbrains.annotations.NotNull", "org.jspecify.annotations.NonNull"]

def ofParameter (oracle : NullabilityOracle) (m : Method) (index : Nat) : Nullability :=
  match oracle, m.parameterAnnotations[index]? with
  | .silent, _ => .unknown
  | .annotations _ _, none => .unknown
  | .annotations nullable nonNull, some found =>
    if found.any nullable.contains then .nullable
    else if found.any nonNull.contains then .nonNullable
    else .unknown

/-- Whether the method that a class declares with a name and one parameter type takes null; the
first such method counts. -/
def ofMethod (oracle : NullabilityOracle) (lib : Library) (className method type : String) :
    Except ResolveError Nullability :=
  match oracle with
  | .silent => .ok .unknown
  | .annotations _ _ =>
    match lib.resolve className with
    | .error (.cyclic name) => .error (.cyclic name)
    | .error (.unresolved _ _) => .ok .unknown
    | .ok declaring =>
      .ok ((declaring.methods.find? fun m => m.name = method && m.parameters = [type]).elim .unknown
        (oracle.ofParameter · 0))

end NullabilityOracle

end WidgetDsl
