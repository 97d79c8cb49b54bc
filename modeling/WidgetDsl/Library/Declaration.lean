/-!
Declarations of classes and methods as a library holds them: types are given by their binary names.
-/

namespace WidgetDsl

def namesLe : List String → List String → Bool
  | [], _ => true
  | _ :: _, [] => false
  | a :: as, b :: bs => if a = b then namesLe as bs else decide (a ≤ b)

structure Signature where
  name : String
  parameters : List String
  deriving DecidableEq, Repr

def Signature.le (a b : Signature) : Bool :=
  if a.name = b.name then namesLe a.parameters b.parameters else decide (a.name ≤ b.name)

structure Method where
  name : String
  parameters : List String
  parameterAnnotations : List (List String)
  returns : String
  modifiers : List String
  annotations : List String
  synthetic : Bool
  bridge : Bool
  deprecated : Bool
  deriving DecidableEq, Repr

namespace Method

def isPublic (m : Method) : Bool := m.modifiers.contains "public"

def isStatic (m : Method) : Bool := m.modifiers.contains "static"

def isAbstract (m : Method) : Bool := m.modifiers.contains "abstract"

def isDeprecated (m : Method) : Bool :=
  m.deprecated || m.annotations.contains "java.lang.Deprecated"

def signature (m : Method) : Signature :=
  ⟨m.name, m.parameters⟩

def key (m : Method) : String :=
  m.name ++ "(" ++ String.intercalate ", " m.parameters ++ ")"

end Method

structure ClassDecl where
  name : String
  isInterface : Bool
  modifiers : List String
  superclass : Option String
  interfaces : List String
  methods : List Method
  deriving DecidableEq, Repr

def ClassDecl.superclassName? (decl : ClassDecl) : Option String :=
  decl.superclass.filter (· ≠ "")

end WidgetDsl
