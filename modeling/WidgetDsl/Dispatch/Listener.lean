import WidgetDsl.Attribute.Candidate
import WidgetDsl.Dispatch.Runtime
import WidgetDsl.Java.Code

/-!
Branches that install listeners. A listener is an anonymous class that forwards each call to the
given callback, asks the runtime to render once and hands back the callback's result.
-/

namespace WidgetDsl.Dispatch

open Java (Call Part CodeBlock TypeName)

def parameterParts : (index : Nat) → List String → List Part
  | _, [] => []
  | index, type :: rest =>
    (if index = 0 then [] else [Part.text ", "]) ++
      [.type (.ofBinary type), .text (" a" ++ toString index)] ++ parameterParts (index + 1) rest

def argumentList (count : Nat) : String :=
  String.intercalate ", " ((List.range count).map fun index => "a" ++ toString index)

def forwardingMethod (listener : TypeName) (names : RuntimeNames) (m : Method) : List Call :=
  let returns := TypeName.ofBinary m.returns
  let forwarded : List Part :=
    ["((", listener, ") arg)." ++ m.name ++ "(" ++ argumentList m.parameters.length ++ ")"]
  let render : Call := .statement [names.runtime, ".render()"]
  let header :=
    ([Part.text "public ", returns, " " ++ m.name ++ "("] ++ parameterParts 0 m.parameters ++
      [Part.text ")"])
  [.opening header] ++
    (if m.returns = "void" then [.statement forwarded, render]
      else [.statement (returns :: " r = " :: forwarded), render, .statement ["return r"]]) ++
    [.closing ""]

def separated : List (List Call) → List Call
  | [] => []
  | [calls] => calls
  | calls :: rest => calls ++ .line [""] :: separated rest

/-- The body of the anonymous class, a method to each abstract method of the interface. -/
def implementation (interface : ResolvedType) (names : RuntimeNames) :
    Except Java.Unbalanced CodeBlock :=
  let listener := TypeName.ofBinary interface.name
  CodeBlock.ofCalls <| separated <|
    interface.abstractMethods.map fun member => forwardingMethod listener names member.method

/-- What a branch sets the attribute on: the target, cast unless it is known to be of the root. -/
def receiver (candidate : Candidate) (onRoot : Bool) : List Part :=
  if onRoot then ["v"] else ["((", TypeName.ofBinary candidate.declaring.name, ") v)"]

def listenerGuard (candidate : Candidate) (listener : TypeName) (onRoot exhaustive : Bool) :
    List Call :=
  if onRoot then
    if exhaustive then [] else [.opening ["if (arg == null || arg instanceof ", listener, ")"]]
  else
    [.opening ["if (v instanceof ", TypeName.ofBinary candidate.declaring.name,
      " && (arg == null || arg instanceof ", listener, "))"]]

/-- The branch that installs a listener, or for null clears it with a null of the listener's
type. -/
def listenerBranch (candidate : Candidate) (root : ResolvedType) (names : RuntimeNames)
    (exhaustive : Bool) : Except Java.Unbalanced CodeBlock := do
  let listener := TypeName.ofBinary candidate.valueType.name
  let onRoot := candidate.declaring.name = root.name
  let target := receiver candidate onRoot
  let setter := "." ++ candidate.method.name
  let guard := listenerGuard candidate listener onRoot exhaustive
  let body ← implementation candidate.valueType names
  CodeBlock.ofCalls <|
    guard ++
      [.opening ["if (arg != null)"],
        .opening (target ++ [Part.text (setter ++ "(new "), listener, "()"]),
        .block body,
        .closing ");",
        .next ["else"],
        .statement (target ++ [Part.text (setter ++ "(("), listener, ") null)"]),
        .closing "",
        .statement ["return true"]] ++
      (if guard.isEmpty then [] else [.closing ""])

end WidgetDsl.Dispatch
