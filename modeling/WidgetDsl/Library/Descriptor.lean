import WidgetDsl.Java.TypeName
import WidgetDsl.Library.Declaration
import WidgetDsl.Value

/-!
Descriptors: class declarations as values of a data format. Reading one checks its shape, in a fixed
order, and fills in what it leaves out.
-/

namespace WidgetDsl

def classSuffix : String := ".class"

def binaryName? (entry : String) : Option String :=
  (Text.withoutSuffix? classSuffix entry).map (Text.replaceChar '/' '.')

def entryName (name : String) : String :=
  Text.replaceChar '.' '/' name ++ classSuffix

inductive MethodFault where
  | unknownKeys (keys : List String)
  | parametersNotList
  | invalidParameter (given : Value)
  | returnsNotString
  | flagNotBoolean (flag : String)
  | notStrings
  deriving Repr

inductive DescriptorFault where
  | notObject
  | unknownKeys (keys : List String)
  | nameMismatch (given : Value)
  | noName
  | invalidKind (given : Value)
  | superclassNotString
  | methodsNotList
  | notStrings (field : String)
  | methodWithoutName
  | method (name : String) (fault : MethodFault)
  deriving Repr

def quotedList (names : List String) : String :=
  (Value.list (names.map .text)).display

def MethodFault.message : MethodFault → String
  | .unknownKeys keys => "unknown keys " ++ quotedList keys
  | .parametersNotList => "parameters must be a list"
  | .invalidParameter given => "invalid parameter " ++ given.display
  | .returnsNotString => "returns must be a string"
  | .flagNotBoolean flag => flag ++ " must be a boolean"
  | .notStrings => "expected a list of strings"

def DescriptorFault.message : DescriptorFault → String
  | .notObject => "descriptor must be an object"
  | .unknownKeys keys => "unknown keys " ++ quotedList keys
  | .nameMismatch given => "name " ++ given.display ++ " does not match entry"
  | .noName => "missing class name"
  | .invalidKind given => "invalid kind " ++ given.display
  | .superclassNotString => "superclass must be a string"
  | .methodsNotList => "methods must be a list"
  | .notStrings field => field ++ ": expected a list of strings"
  | .methodWithoutName => "each method needs a name"
  | .method name fault => name ++ ": " ++ fault.message

namespace Descriptor

def sorted (names : List String) : List String :=
  names.mergeSort fun a b => decide (a ≤ b)

def unknownKeys (known : List String) (entries : Entries Value) : List String :=
  sorted (entries.keys.filter fun key => !known.contains key)

def classKeys : List String :=
  ["name", "kind", "modifiers", "superclass", "interfaces", "methods"]

def methodKeys : List String :=
  ["name", "parameters", "returns", "modifiers", "annotations", "synthetic", "bridge",
    "deprecated"]

def strings {ε : Type} (fault : ε) (entries : Entries Value) (key : String)
    (default : List String) : Except ε (List String) :=
  match entries.get? key with
  | none => .ok default
  | some given =>
    match given.texts? with
    | some names => .ok names
    | none => .error fault

def parameter (given : Value) : Except MethodFault (String × List String) :=
  match given with
  | .text type => .ok (type, [])
  | .table entries =>
    match entries.lookup "type" with
    | some (.text type) => do
      let annotations ← strings .notStrings entries "annotations" []
      .ok (type, annotations)
    | _ => .error (.invalidParameter given)
  | _ => .error (.invalidParameter given)

def flag (entries : Entries Value) (key : String) : Except MethodFault Bool :=
  match entries.get? key with
  | none => .ok false
  | some (.bool b) => .ok b
  | some _ => .error (.flagNotBoolean key)

def methodBody (name : String) (entries : Entries Value) : Except MethodFault Method := do
  match unknownKeys methodKeys entries with
  | [] => pure ()
  | unknown => throw (.unknownKeys unknown)
  let given ←
    match entries.get? "parameters" with
    | none => pure []
    | some (.list items) => pure items
    | some _ => throw .parametersNotList
  let parameters ← given.mapM parameter
  let returns ←
    match entries.get? "returns" with
    | none => pure "void"
    | some (.text type) => pure type
    | some _ => throw .returnsNotString
  let synthetic ← flag entries "synthetic"
  let bridge ← flag entries "bridge"
  let deprecated ← flag entries "deprecated"
  let modifiers ← strings .notStrings entries "modifiers" ["public"]
  let annotations ← strings .notStrings entries "annotations" []
  return {
    name, returns, modifiers, annotations, synthetic, bridge, deprecated
    parameters := parameters.map (·.1)
    parameterAnnotations := parameters.map (·.2) }

def method (given : Value) : Except DescriptorFault Method :=
  match given with
  | .table entries =>
    match entries.lookup "name" with
    | some (.text name) => (methodBody name entries).mapError (.method name)
    | _ => .error .methodWithoutName
  | _ => .error .methodWithoutName

/-- The name in a descriptor. A class entry's name says it already, and has to agree. -/
def className (entry : String) (entries : Entries Value) : Except DescriptorFault String := do
  let given :=
    match entries.get? "name" with
    | some given => given
    | none => (binaryName? entry).elim .null .text
  match binaryName? entry, given with
  | some expected, .text name => if name ≠ expected then throw (.nameMismatch given)
  | some _, _ => throw (.nameMismatch given)
  | none, _ => pure ()
  match given with
  | .text name => if name = "" then throw .noName else return name
  | _ => throw .noName

def isInterface (entries : Entries Value) : Except DescriptorFault Bool :=
  match entries.get? "kind" with
  | none => .ok false
  | some (.text "class") => .ok false
  | some (.text "interface") => .ok true
  | some given => .error (.invalidKind given)

/-- The superclass; a class other than the root of all classes has that as superclass if it does not
say otherwise. -/
def superclass (name : String) (isInterface : Bool) (entries : Entries Value) :
    Except DescriptorFault (Option String) :=
  match entries.get? "superclass" with
  | none => .ok (if isInterface || name = Java.objectName then none else some Java.objectName)
  | some .null => .ok none
  | some (.text type) => .ok (some type)
  | some _ => .error .superclassNotString

def read (entry : String) (given : Value) : Except DescriptorFault ClassDecl := do
  let entries ←
    match given with
    | .table entries => pure entries
    | _ => throw .notObject
  match unknownKeys classKeys entries with
  | [] => pure ()
  | unknown => throw (.unknownKeys unknown)
  let name ← className entry entries
  let isInterface ← isInterface entries
  let superclass ← superclass name isInterface entries
  let given ←
    match Entries.get? entries "methods" with
    | none => pure []
    | some (.list items) => pure items
    | some _ => throw .methodsNotList
  let modifiers ← strings (.notStrings "modifiers") entries "modifiers" ["public"]
  let interfaces ← strings (.notStrings "interfaces") entries "interfaces" []
  let methods ← given.mapM method
  return { name, isInterface, modifiers, superclass, interfaces, methods }

end Descriptor

end WidgetDsl
