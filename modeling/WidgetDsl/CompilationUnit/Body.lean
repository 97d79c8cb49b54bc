import WidgetDsl.CompilationUnit.Basic

/-!
The class of a compilation unit: its registration with the runtime, the factories, the wrappers and
the method that sets an attribute by its name.
-/

namespace WidgetDsl.CompilationUnit

open Java (Call Part CodeBlock TypeName)

def objectType : TypeName := .ofBinary Java.objectName

def stringType : TypeName := .ofBinary "java.lang.String"

def voidType : TypeName := .ofBinary "java.lang.Void"

def factoryMethods (names : RuntimeNames) (factory : Factory) : List Call :=
  [.opening ["public static ", names.viewClassResult, " " ++ factory.name ++ "()"],
    .statement ["return ", names.dsl, ".v(", factory.widget, ".class)"],
    .closing "",
    .line [""],
    .opening ["public static ", voidType, " " ++ factory.name ++ "(", names.renderable, " r)"],
    .statement ["return ", names.dsl, ".v(", factory.widget, ".class, r)"],
    .closing ""]

def contract (names : RuntimeNames) : Nullability → List Part
  | .nullable => ["@", names.nullable, " "]
  | .nonNullable => ["@", names.nonNull, " "]
  | .unknown => []

def wrapperMethod (names : RuntimeNames) (wrapper : Dispatch.Wrapper) : List Call :=
  [.opening
      ([Part.text "public static ", voidType, " " ++ wrapper.name ++ "("] ++
        contract names wrapper.nullability ++ [Part.type wrapper.valueType, " arg)"]),
    .statement ["return ", names.dsl, ".attr(\"" ++ wrapper.name ++ "\", arg)"],
    .closing ""]

/-- A case of the switch. Unless its last branch always returns, a break ends it. -/
def caseCalls (case : Dispatch.Case) : List Call :=
  [.line ["case \"" ++ case.name ++ "\":"], .indent] ++
    case.branches.map (fun branch => .block branch.code) ++
    (if case.exhaustive then [] else [.statement ["break"]]) ++
    [.unindent]

def setMethod (names : RuntimeNames) (cases : List Dispatch.Case) : List Call :=
  [.opening ["public boolean set(", names.root, " v, ", stringType, " name, final ", objectType,
      " arg, final ", objectType, " old)"],
    .opening ["switch (name)"]] ++
    cases.flatMap caseCalls ++
    [.closing "", .statement ["return false"], .closing ""]

def header (unit : CompilationUnit) : List Part :=
  [Part.text ("public final class " ++ unit.className)] ++
    (match unit.superclass with
      | some superclass => [Part.text " extends ", superclass]
      | none => []) ++
    [Part.text " implements ", unit.names.attributeSetter]

def spaced (members : List (List Call)) : List Call :=
  members.flatMap (.line [""] :: ·)

def bodyCalls (unit : CompilationUnit) : List Call :=
  [.opening unit.header,
    .opening ["static"],
    .statement [unit.names.runtime, ".registerAttributeSetter(new " ++ unit.className ++ "())"],
    .closing ""] ++
    spaced (unit.factories.map (factoryMethods unit.names)) ++
    spaced (unit.wrappers.map (wrapperMethod unit.names)) ++
    spaced [setMethod unit.names unit.cases] ++
    [.closing ""]

def body (unit : CompilationUnit) : Except Java.Unbalanced CodeBlock :=
  CodeBlock.ofCalls unit.bodyCalls

end WidgetDsl.CompilationUnit
