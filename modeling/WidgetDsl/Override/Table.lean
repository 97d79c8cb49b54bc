import WidgetDsl.Java.Identifier
import WidgetDsl.Override.Given

/-!
Overrides written by hand: for a class, another name for its factories or none at all, and for a
method, code to put in place of its branch or no branch at all.
-/

namespace WidgetDsl

inductive Override where
  | default
  | excluded
  | text (s : String)
  | code (block : Java.CodeBlock)
  | computed (result : Candidate → Given)

inductive OverrideFault where
  | entryNotTable (className : String)
  | badAlias (className : String) (given : String)
  | badOverride (className key : String) (given : String)
  /-- A value that would be told of, but cannot be shown. -/
  | notShown
  | badResult (className method : String) (kind : String)

def aliasKey : String := "__classAlias"

def OverrideFault.message : OverrideFault → String
  | .entryNotTable className => "Quirks for " ++ className ++ " must be a table"
  | .badAlias className given =>
    className ++ "." ++ aliasKey ++ " must be an identifier or false, got " ++ given
  | .badOverride className key given =>
    "Invalid quirk " ++ className ++ "." ++ key ++ ": " ++ given
  | .notShown => Value.longIntegerMessage none
  | .badResult className method kind =>
    "Quirk for " ++ className ++ "." ++ method ++ " returned " ++ kind ++
      ", expected str, CodeBlock or None"

def OverrideFault.ofGiven (given : Given) (fault : String → OverrideFault) : OverrideFault :=
  if given.hasLongInteger then .notShown else fault given.display

/-- Overrides by canonical class name, then by key. -/
structure OverrideTable where
  classes : Entries (Entries Override)

inductive Alias where
  | none
  | excluded
  | name (s : String)
  deriving DecidableEq, Repr

namespace Override

def ofGiven? : Given → Option Override
  | .plain .null => some .default
  | .plain (.bool false) => some .excluded
  | .plain (.text s) => some (.text s)
  | .code block => some (.code block)
  | .computed result => some (.computed result)
  | _ => none

/-- Checks one override. An alias has to be an identifier, or false to leave the class out. -/
def ofGiven (className key : String) (given : Given) : Except OverrideFault Override :=
  if key = aliasKey then
    match given with
    | .plain (.bool false) => .ok .excluded
    | .plain (.text s) =>
      if Java.isIdentifier s then .ok (.text s) else .error (.ofGiven given (.badAlias className))
    | _ => .error (.ofGiven given (.badAlias className))
  else
    match ofGiven? given with
    | some result => .ok result
    | none => .error (.ofGiven given (.badOverride className key))

end Override

namespace OverrideTable

def empty : OverrideTable := ⟨[]⟩

def checkEntry (className : String) :
    GivenEntry → Except OverrideFault (Entries Override)
  | .other _ => .error (.entryNotTable className)
  | .table overrides =>
    overrides.mapM fun (key, given) => (Override.ofGiven className key given).map (key, ·)

def ofGiven (classes : Entries GivenEntry) : Except OverrideFault OverrideTable :=
  (classes.mapM fun (name, entry) => (checkEntry name entry).map (name, ·)).map (⟨·⟩)

def size (table : OverrideTable) : Nat :=
  table.classes.length

def ofClass (table : OverrideTable) (className : String) : Entries Override :=
  (table.classes.get? className).getD []

def merge (a b : OverrideTable) : OverrideTable :=
  ⟨b.classes.foldl (fun classes entry =>
    classes.insert entry.1 (Entries.update ((classes.get? entry.1).getD []) entry.2)) a.classes⟩

def classAlias (table : OverrideTable) (className : String) : Alias :=
  match (table.ofClass className).get? aliasKey with
  | some (.text s) => .name s
  | some .excluded => .excluded
  | _ => .none

def excludesClass (table : OverrideTable) (className : String) : Bool :=
  table.classAlias className = .excluded

def candidateKeys (candidate : Candidate) : List String :=
  let method := candidate.method.name
  [method ++ ":" ++ candidate.valueType.canonicalName,
    method ++ ":" ++ candidate.valueType.simpleName, method]

def lookup (table : OverrideTable) (candidate : Candidate) : Option Override :=
  (candidateKeys candidate).findSome? (table.ofClass candidate.declaring.canonicalName).get?

def excludesMethod (table : OverrideTable) (candidate : Candidate) : Bool :=
  match table.lookup candidate with
  | some .excluded => true
  | _ => false

def resultCode (candidate : Candidate) : Given → Except OverrideFault (Option Java.CodeBlock)
  | .plain .null => .ok none
  | .plain (.text s) => .ok (some (.verbatim s))
  | .code block => .ok (some block)
  | given =>
    .error (.badResult candidate.declaring.canonicalName candidate.method.name given.kindName)

def replacement (table : OverrideTable) (candidate : Candidate) :
    Except OverrideFault (Option Java.CodeBlock) :=
  match table.lookup candidate with
  | none => .ok none
  | some .default => .ok none
  | some .excluded => .ok none
  | some (.text s) => .ok (some (.verbatim s))
  | some (.code block) => .ok (some block)
  | some (.computed result) => resultCode candidate (result candidate)

end OverrideTable

end WidgetDsl
