import WidgetDsl.Library.Declaration
import WidgetDsl.Java.TypeName

/-!
Types with all their supertypes, and the relations between them.
-/

namespace WidgetDsl

inductive Kind where
  | classType
  | interfaceType
  | primitiveType
  | arrayType
  | voidType
  deriving DecidableEq, Repr

/-- A type together with everything above it. -/
structure ResolvedType where
  name : String
  kind : Kind
  modifiers : List String
  superclass : Option ResolvedType
  interfaces : List ResolvedType
  methods : List Method
  origin : Option String

namespace ResolvedType

def isPublic (type : ResolvedType) : Bool := type.modifiers.contains "public"

def isAbstract (type : ResolvedType) : Bool := type.modifiers.contains "abstract"

def isInterface (type : ResolvedType) : Bool := type.kind = .interfaceType

def isPrimitive (type : ResolvedType) : Bool := type.kind = .primitiveType

def isNested (type : ResolvedType) : Bool := '$' ∈ type.name.toList

def canonicalName (type : ResolvedType) : String :=
  Text.replaceChar '$' '.' type.name

def package (type : ResolvedType) : String :=
  match type.kind with
  | .classType | .interfaceType => Text.beforeLast '.' type.name
  | _ => ""

def simpleName (type : ResolvedType) : String :=
  Text.afterLast '$' (Text.afterLast '.' type.name)

def component? (type : ResolvedType) : Option String :=
  if type.kind = .arrayType then Java.componentName? type.name else none

def supertypes (type : ResolvedType) : List ResolvedType :=
  type.superclass.toList ++ type.interfaces

mutual

def depth : ResolvedType → Nat
  | ⟨_, _, _, superclass, interfaces, _, _⟩ => max (depthAbove superclass) (depthAmong interfaces)

def depthAbove : Option ResolvedType → Nat
  | none => 0
  | some type => depth type + 1

def depthAmong : List ResolvedType → Nat
  | [] => 0
  | type :: rest => max (depth type + 1) (depthAmong rest)

end

mutual

/-- The names found so far, with those of a type and of all above it. A name that is there already
has brought what is above it with it. -/
def gatherNames : ResolvedType → List String → List String
  | ⟨name, _, _, superclass, interfaces, _, _⟩, found =>
    if name ∈ found then found else name :: gatherAmong interfaces (gatherAbove superclass found)

def gatherAbove : Option ResolvedType → List String → List String
  | none, found => found
  | some type, found => gatherNames type found

def gatherAmong : List ResolvedType → List String → List String
  | [], found => found
  | type :: rest, found => gatherAmong rest (gatherNames type found)

end

def ancestorNames (type : ResolvedType) : List String :=
  gatherAmong type.interfaces (gatherAbove type.superclass [])

/-- Strictly below another type, by classes and interfaces. -/
def isSubtypeOf (a b : ResolvedType) : Bool :=
  b.name ∈ a.ancestorNames

mutual

def superclasses : ResolvedType → List ResolvedType
  | ⟨_, _, _, superclass, _, _, _⟩ => superclassChain superclass

def superclassChain : Option ResolvedType → List ResolvedType
  | none => []
  | some type => type :: superclasses type

end

def declares (type : ResolvedType) (signature : Signature) : Bool :=
  type.methods.any fun m => m.isPublic && m.signature = signature

mutual

/-- How many interfaces a walk up the interface lists would meet, repeated ones each time. -/
def interfaceWeight : ResolvedType → Nat
  | ⟨_, _, _, _, interfaces, _, _⟩ => interfacesWeight interfaces + 1

def interfacesWeight : List ResolvedType → Nat
  | [] => 0
  | type :: rest => interfaceWeight type + interfacesWeight rest

end

theorem interfacesWeight_append (a b : List ResolvedType) :
    interfacesWeight (a ++ b) = interfacesWeight a + interfacesWeight b := by
  induction a with
  | nil => simp [interfacesWeight]
  | cons type rest ih => simp [interfacesWeight, ih, Nat.add_assoc]

theorem interfaceWeight_eq (type : ResolvedType) :
    interfaceWeight type = interfacesWeight type.interfaces + 1 := by
  cases type
  rfl

/-- The types waiting and all that is reached from them through interface lists, nearest first and
each name once. -/
def reachInterfaces (pending : List ResolvedType) (seen : List String) : List ResolvedType :=
  match pending with
  | [] => []
  | type :: rest =>
    if type.name ∈ seen then reachInterfaces rest seen
    else type :: reachInterfaces (rest ++ type.interfaces) (type.name :: seen)
termination_by interfacesWeight pending
decreasing_by
  · simp [interfacesWeight, interfaceWeight_eq]
  · simp [interfacesWeight, interfacesWeight_append, interfaceWeight_eq]
    omega

def interfaceClosure (type : ResolvedType) : List ResolvedType :=
  reachInterfaces [type] []

structure Member where
  declaring : ResolvedType
  method : Method

def ownAbstractMethods (type : ResolvedType) : List Member :=
  (type.methods.filter fun m => m.isAbstract && !m.isStatic).map (⟨type, ·⟩)

def firstOfEach : (taken : List Signature) → List Member → List Member
  | _, [] => []
  | taken, member :: rest =>
    if member.method.signature ∈ taken then firstOfEach taken rest
    else member :: firstOfEach (member.method.signature :: taken) rest

/-- What an implementation of an interface has to implement, by signature. -/
def abstractMethods (type : ResolvedType) : List Member :=
  (firstOfEach [] (type.interfaceClosure.flatMap ownAbstractMethods)).mergeSort
    fun a b => a.method.signature.le b.method.signature

end ResolvedType

end WidgetDsl
