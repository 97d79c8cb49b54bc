import WidgetDsl.Files.Path
import WidgetDsl.Java.Identifier
import WidgetDsl.Override.Given

/-!
What one run of the generator is told: the library, the names to generate and the names to refer to.
-/

namespace WidgetDsl

def defaultDescription : String :=
  "It contains views and their setters from the scanned libraries"

structure Config where
  root : String
  package : String
  className : String
  archives : List Path
  dependencies : List Path
  outputDir : Path
  superclass : Option String
  description : Value
  runtimePackage : String
  runtimeClass : String
  dslClass : String
  nullableAnnotation : String
  nonNullAnnotation : String
  overridesModule : Value
  overrides : GivenTable

namespace Config

def ofNames (root package className : String) : Config :=
  { root, package, className
    archives := []
    dependencies := []
    outputDir := .ofString "generated"
    superclass := none
    description := .text defaultDescription
    runtimePackage := "org.widgetdsl"
    runtimeClass := "Runtime"
    dslClass := "BaseDSL"
    nullableAnnotation := "androidx.annotation.Nullable"
    nonNullAnnotation := "androidx.annotation.NonNull"
    overridesModule := .null
    overrides := .empty }

/-- Where the generated source goes: a directory to each segment of the package. -/
def outputPath (config : Config) : Path :=
  config.outputDir.joinAll
    (Text.segments '.' config.package ++ [config.className ++ ".java"])

end Config

end WidgetDsl
