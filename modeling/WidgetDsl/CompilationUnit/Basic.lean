import WidgetDsl.Dispatch.Table
import WidgetDsl.Factory

/-!
The generated compilation unit, as everything that its text is made from.
-/

namespace WidgetDsl

structure CompilationUnit where
  package : String
  className : String
  names : RuntimeNames
  comment : List String
  superclass : Option Java.TypeName
  cases : List Dispatch.Case
  factories : List Factory
  wrappers : List Dispatch.Wrapper

def toolName : String := "dslgen"

namespace CompilationUnit

def typeName (unit : CompilationUnit) : Java.TypeName :=
  ⟨unit.package, [unit.className], 0⟩

def headComment (description : String) : List String :=
  ["DSL for creating views and setting their attributes.",
    "This file has been generated by \x7b@code " ++ toolName ++ "\x7d.",
    description ++ ".",
    "Please, don't edit it manually unless for debugging."]

def ofTable (config : Config) (table : Dispatch.Table) (factories : List Factory) :
    CompilationUnit :=
  { package := config.package
    className := config.className
    names := .ofConfig config
    comment := headComment config.description.plainText
    superclass := (config.superclass.filter (· ≠ "")).map .ofBinary
    cases := table.cases
    factories
    wrappers := table.wrappers }

end CompilationUnit

end WidgetDsl
