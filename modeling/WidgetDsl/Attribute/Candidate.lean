import WidgetDsl.Attribute.Name
import WidgetDsl.Attribute.Nullability

/-!
Candidates: the methods of a class by which attributes are set.
-/

namespace WidgetDsl

structure Candidate where
  name : String
  valueType : ResolvedType
  declaring : ResolvedType
  method : Method
  isListener : Bool
  isNullable : Bool

namespace Candidate

def upTo (name : String) : List ResolvedType → List ResolvedType
  | [] => []
  | type :: rest => if type.name = name then [type] else type :: upTo name rest

/-- Whether a superclass up to the root declares the same signature, so that the method adds
nothing. The root's own methods always add something. -/
def isRedundant (root declaring : ResolvedType) (m : Method) : Bool :=
  declaring.name ≠ root.name &&
    (upTo root.name declaring.superclasses).any (·.declares m.signature)

def isCallback (type : ResolvedType) : Bool :=
  type.isInterface && !type.abstractMethods.isEmpty

/-- The candidate that a method with a resolved first parameter makes, if it does. A type that is
not public keeps the method out, as code elsewhere could not name it. -/
def ofResolved? (root : ResolvedType) (oracle : NullabilityOracle) (declaring : ResolvedType)
    (m : Method) (valueType : ResolvedType) : Option Candidate :=
  if !valueType.isPublic || m.isDeprecated then none
  else
    match AttributeName.ofMethod? m.name m.parameters.length with
    | none => none
    | some ⟨name, isListener⟩ =>
      if isListener && !isCallback valueType then none
      else if isRedundant root declaring m then none
      else
        some {
          name, valueType, declaring, isListener
          method := m
          isNullable := isListener ||
            (!valueType.isPrimitive && oracle.ofParameter m 0 = .nullable) }

def ofMethod? (lib : Library) (root : ResolvedType) (oracle : NullabilityOracle)
    (declaring : ResolvedType) (m : Method) : Except ResolveError (Option Candidate) :=
  if !m.isPublic || m.synthetic || m.bridge then .ok none
  else
    match m.parameters with
    | [] => .ok none
    | parameter :: _ =>
      match lib.resolve parameter with
      | .error (.cyclic name) => .error (.cyclic name)
      | .error (.unresolved _ _) => .ok none
      | .ok valueType => .ok (ofResolved? root oracle declaring m valueType)

def ofClass (lib : Library) (root : ResolvedType) (oracle : NullabilityOracle)
    (declaring : ResolvedType) : Except ResolveError (List Candidate) :=
  let methods := declaring.methods.mergeSort fun a b => a.signature.le b.signature
  (methods.mapM (ofMethod? lib root oracle declaring)).map List.reduceOption

end Candidate

end WidgetDsl
