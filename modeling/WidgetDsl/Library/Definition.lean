import WidgetDsl.Library.Archive

/-!
What each binary name stands for in a library: builtin types and arrays first, then the archives in
order, then the platform's own classes.
-/

namespace WidgetDsl

structure Library where
  archives : List Archive
  deriving DecidableEq, Repr

inductive Definition where
  | void
  | primitive
  | array (component : String)
  | declared (decl : ClassDecl) (origin : String)
  deriving DecidableEq, Repr

def platformOrigin : String := "<platform>"

def platformClass (name : String) (superclass : Option String) (interfaces : List String) :
    ClassDecl :=
  ⟨name, false, ["public"], superclass, interfaces, []⟩

def platformInterface (name : String) : ClassDecl :=
  ⟨name, true, ["public"], none, [], []⟩

def platformNumber (name : String) : ClassDecl :=
  platformClass name (some "java.lang.Number") ["java.lang.Comparable"]

def platformClasses : List ClassDecl :=
  [platformClass Java.objectName none [],
    platformInterface "java.lang.CharSequence",
    platformInterface "java.lang.Comparable",
    platformInterface "java.lang.Runnable",
    platformClass "java.lang.String" (some Java.objectName)
      ["java.lang.CharSequence", "java.lang.Comparable"],
    platformClass "java.lang.Number" (some Java.objectName) [],
    platformClass "java.lang.Boolean" (some Java.objectName) ["java.lang.Comparable"],
    platformClass "java.lang.Character" (some Java.objectName) ["java.lang.Comparable"],
    platformNumber "java.lang.Byte", platformNumber "java.lang.Short",
    platformNumber "java.lang.Integer", platformNumber "java.lang.Long",
    platformNumber "java.lang.Float", platformNumber "java.lang.Double",
    platformClass "java.lang.Void" (some Java.objectName) []]

namespace Library

/-- All declarations with their origins, those that are found first in front. -/
def declarations (lib : Library) : List (ClassDecl × String) :=
  (lib.archives.flatMap fun archive => archive.entries.map fun entry => (entry.2, archive.path)) ++
    platformClasses.map fun decl => (decl, platformOrigin)

def declares (lib : Library) (name : String) : Bool :=
  lib.archives.any fun archive => archive.entries.any fun entry => entry.2.name = name

def define? (lib : Library) (name : String) : Option Definition :=
  if name = "void" then some .void
  else if Java.isPrimitive name then some .primitive
  else
    match Java.componentName? name with
    | some component => some (.array component)
    | none =>
      (lib.declarations.find? (·.1.name = name)).map fun found => .declared found.1 found.2

end Library

def Definition.dependencies : Definition → List String
  | .void => []
  | .primitive => []
  | .array component => [component, Java.objectName]
  | .declared decl _ => decl.superclassName?.toList ++ decl.interfaces

end WidgetDsl
