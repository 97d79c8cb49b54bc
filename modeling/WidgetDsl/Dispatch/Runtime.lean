import WidgetDsl.Config.Basic
import WidgetDsl.Java.TypeName

/-!
The types of the runtime that generated code calls into.
-/

namespace WidgetDsl

structure RuntimeNames where
  root : Java.TypeName
  runtime : Java.TypeName
  dsl : Java.TypeName
  nullable : Java.TypeName
  nonNull : Java.TypeName
  deriving DecidableEq, Repr

namespace RuntimeNames

def ofConfig (config : Config) : RuntimeNames :=
  { root := .ofBinary config.root
    runtime := ⟨config.runtimePackage, [config.runtimeClass], 0⟩
    dsl := ⟨config.runtimePackage, [config.dslClass], 0⟩
    nullable := .ofBinary config.nullableAnnotation
    nonNull := .ofBinary config.nonNullAnnotation }

def attributeSetter (names : RuntimeNames) : Java.TypeName :=
  names.runtime.nested "AttributeSetter"

def renderable (names : RuntimeNames) : Java.TypeName :=
  names.runtime.nested "Renderable"

def viewClassResult (names : RuntimeNames) : Java.TypeName :=
  names.dsl.nested "ViewClassResult"

end RuntimeNames

end WidgetDsl
