import WidgetDsl.Text.Segments

/-!
References to types in Java code, and the binary names they are read from.
-/

namespace WidgetDsl.Java

def primitives : List (String × String) :=
  [("boolean", "java.lang.Boolean"), ("byte", "java.lang.Byte"), ("char", "java.lang.Character"),
    ("short", "java.lang.Short"), ("int", "java.lang.Integer"), ("long", "java.lang.Long"),
    ("float", "java.lang.Float"), ("double", "java.lang.Double")]

def isPrimitive (name : String) : Bool :=
  (primitives.lookup name).isSome

def objectName : String := "java.lang.Object"

def stripArrays : List Char → List Char × Nat
  | ']' :: '[' :: rest =>
    let (element, depth) := stripArrays rest
    (element, depth + 1)
  | name => (name, 0)

def elementOf (name : String) : String × Nat :=
  let (element, depth) := stripArrays name.toList.reverse
  (String.ofList element.reverse, depth)

def componentName? (name : String) : Option String :=
  match name.toList.reverse with
  | ']' :: '[' :: rest => some (String.ofList rest.reverse)
  | _ => none

/-- A package, the names of a class and the classes around it from the outermost in, and the number
of array levels. -/
structure TypeName where
  package : String
  names : List String
  arrayDepth : Nat
  deriving DecidableEq, Repr

namespace TypeName

/-- Reads a binary name, in which `$` stands between nested names. -/
def ofBinary (name : String) : TypeName :=
  let (element, depth) := elementOf name
  if isPrimitive element || element = "void" then ⟨"", [element], depth⟩
  else ⟨Text.beforeLast '.' element, Text.segments '$' (Text.afterLast '.' element), depth⟩

def outermost (type : TypeName) : String :=
  type.names.headD ""

def isPrimitive (type : TypeName) : Bool :=
  type.package = "" && Java.isPrimitive type.outermost && type.arrayDepth = 0

def isBuiltin (type : TypeName) : Bool :=
  type.package = "" && (Java.isPrimitive type.outermost || type.outermost = "void")

def topLevel (type : TypeName) : TypeName :=
  ⟨type.package, type.names.take 1, 0⟩

def brackets (depth : Nat) : String :=
  String.join (List.replicate depth "[]")

def canonical (type : TypeName) : String :=
  let base := String.intercalate "." type.names
  (if type.package = "" then base else type.package ++ "." ++ base) ++ brackets type.arrayDepth

def nested (type : TypeName) (name : String) : TypeName :=
  { type with names := type.names ++ [name] }

def boxed (type : TypeName) : TypeName :=
  if type.isPrimitive then
    match primitives.lookup type.outermost with
    | some box => ofBinary box
    | none => type
  else type

end TypeName

end WidgetDsl.Java
