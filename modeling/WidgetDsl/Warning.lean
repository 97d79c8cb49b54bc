import WidgetDsl.Text.Quoted

/-!
Problems that do not stop a run.
-/

namespace WidgetDsl

structure Warning where
  code : String
  message : String
  className : Option String
  deriving DecidableEq, Repr

namespace Warning

def unresolvableClass (className missing : String) : Warning :=
  ⟨"UNRESOLVABLE_CLASS", "Skipped: missing dependency " ++ missing, some className⟩

def reservedAttribute (attributeName : String) (className : Option String) : Warning :=
  ⟨"RESERVED_IDENTIFIER", "No wrapper for attribute " ++ Text.quoted attributeName ++
    ": not a valid Java identifier", className⟩

def reservedFactory (factory className : String) : Warning :=
  ⟨"RESERVED_IDENTIFIER", "No factory: " ++ Text.quoted factory ++
    " is not a valid Java identifier", some className⟩

def factoryCollision (factory className holder : String) : Warning :=
  ⟨"FACTORY_NAME_COLLISION", "No factory: " ++ Text.quoted factory ++ " is already used by " ++
    holder, some className⟩

end Warning

end WidgetDsl
