import WidgetDsl.Dispatch.Listener

/-!
Branches that call plain setters.
-/

namespace WidgetDsl.Dispatch

open Java (Part CodeBlock TypeName)

def valueTest (candidate : Candidate) (value : TypeName) : List Part :=
  (if candidate.isNullable then [Part.text "arg == null || "] else []) ++
    [Part.text "arg instanceof ", value.boxed]

def setterBranch (candidate : Candidate) (root : ResolvedType) : Except Java.Unbalanced CodeBlock :=
  let value := TypeName.ofBinary candidate.valueType.name
  let test := valueTest candidate value
  let setter := "." ++ candidate.method.name ++ "(("
  if candidate.declaring.name = root.name then
    CodeBlock.ofCalls
      [.opening (Part.text "if (" :: test ++ [Part.text ")"]),
        .statement ["v" ++ setter, value, ") arg)"],
        .statement ["return true"],
        .closing ""]
  else
    let target := TypeName.ofBinary candidate.declaring.name
    let test := if candidate.isNullable then Part.text "(" :: test ++ [Part.text ")"] else test
    CodeBlock.ofCalls
      [.opening ([Part.text "if (v instanceof ", target, " && "] ++ test ++ [Part.text ")"]),
        .statement ["((", target, ") v)" ++ setter, value, ") arg)"],
        .statement ["return true"],
        .closing ""]

end WidgetDsl.Dispatch
