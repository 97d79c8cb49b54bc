import WidgetDsl.Text.Case

/-!
Attribute names, derived from the names of the methods that set them.
-/

namespace WidgetDsl

structure AttributeName where
  name : String
  isListener : Bool
  deriving DecidableEq, Repr

namespace AttributeName

def afterStart? (start cs : List Char) : Option (List Char) :=
  if start.isPrefixOf cs then some (cs.drop start.length) else none

def beforeEnd? (ending cs : List Char) : Option (List Char) :=
  if ending.isSuffixOf cs then some (cs.take (cs.length - ending.length)) else none

def withoutFinalNewline (cs : List Char) : List Char :=
  (beforeEnd? ['\n'] cs).getD cs

/-- The event in a name of the form `setOn…Listener`. It takes up one line, and one line end may
follow the name. -/
def event? (cs : List Char) : Option (List Char) := do
  let tail ← afterStart? "setOn".toList (withoutFinalNewline cs)
  let event ← beforeEnd? "Listener".toList tail
  if event.isEmpty || event.contains '\n' then none else some event

def property? (cs : List Char) : Option (List Char) :=
  match afterStart? "set".toList cs with
  | some (first :: rest) => if Text.isUpper first then some (Text.lower first ++ rest) else none
  | _ => none

def ofMethod? (method : String) (parameters : Nat) : Option AttributeName :=
  if parameters ≠ 1 then none
  else
    match event? method.toList with
    | some event => some ⟨"on" ++ String.ofList event, true⟩
    | none => (property? method.toList).map fun name => ⟨String.ofList name, false⟩

end AttributeName

end WidgetDsl
