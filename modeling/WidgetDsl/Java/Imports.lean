import WidgetDsl.Java.TypeName

/-!
Which types a compilation unit imports, and how it spells each of them.
-/

namespace WidgetDsl.Java

structure ImportTable where
  package : String
  short : List TypeName
  deriving DecidableEq, Repr

namespace ImportTable

def topLevels (types : List TypeName) : List TypeName :=
  ((types.filter fun type => !type.isBuiltin).map TypeName.topLevel).eraseDups

/-- A top-level type is named without its package if it is the only one with its name, that is not
the name of the unit's class, and a type without package is only used from such a unit. -/
def ofTypes (package className : String) (types : List TypeName) : ImportTable :=
  let tops := topLevels types
  { package
    short := tops.filter fun top =>
      top.outermost ≠ className && (tops.filter (·.outermost = top.outermost)).length = 1 &&
        (top.package ≠ "" || package = "") }

def imports (table : ImportTable) : List String :=
  ((table.short.filter fun top => top.package ≠ "java.lang" && top.package ≠ table.package).map
    TypeName.canonical).mergeSort fun a b => decide (a ≤ b)

def spell (table : ImportTable) (type : TypeName) : String :=
  let text :=
    if type.isBuiltin || table.short.contains type.topLevel then String.intercalate "." type.names
    else { type with arrayDepth := 0 }.canonical
  text ++ TypeName.brackets type.arrayDepth

end ImportTable

end WidgetDsl.Java
