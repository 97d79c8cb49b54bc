import WidgetDsl.Override.Table

/-!
Tables of overrides that code modules hold under a name.
-/

namespace WidgetDsl

inductive ModuleValue where
  | checked (table : OverrideTable)
  | given (table : GivenTable)

def ModuleValue.overrides? : ModuleValue → Option (Entries Given)
  | .given (.table classes) => some (classes.map fun entry => (entry.1, entry.2.given))
  | _ => none

abbrev Modules := Entries (Entries ModuleValue)

inductive ModuleFault where
  | badTarget (target : String)
  | relative (module : String)
  | notFound (module : String)
  | noEntry (module entry : String)
  | notMapping (target : String)
  | noEntries
  | notText
  | notFunction
  | fixedEntry (entry : String)
  | table (fault : OverrideFault)

def ModuleFault.message : ModuleFault → String
  | .badTarget target =>
    "Quirks module must look like 'package.module:NAME', got " ++ Text.quoted target
  | .relative module => "relative module " ++ module
  | .notFound module => "Cannot import quirks module " ++ module
  | .noEntry module entry =>
    "Quirks module " ++ module ++ " has no attribute " ++ entry
  | .notMapping target => target ++ " must be a mapping of class names to overrides"
  | .noEntries => "not a table"
  | .notText => "not a text"
  | .notFunction => "not a function"
  | .fixedEntry entry => entry ++ " cannot be set"
  | .table fault => fault.message

def GivenTable.check : GivenTable → Except ModuleFault OverrideTable
  | .table classes => (OverrideTable.ofGiven classes).mapError .table
  | .other value => if value.isVacuous then .ok .empty else .error .noEntries

namespace Modules

/-- The module and the name in it that a target means: what stands before and after the first
colon. -/
def splitTarget (target : String) : String × String :=
  let module := target.toList.takeWhile (· ≠ ':')
  (String.ofList module, String.ofList (target.toList.drop (module.length + 1)))

/-- What each module holds besides its own entries, unless they replace it: first what it is and
where it is from, which stands in front in the table of all its entries, then what all objects have.
Nothing of this is a table. -/
def particulars : List String :=
  ["__name__", "__doc__", "__package__", "__loader__", "__spec__"]

def objectEntries : List String :=
  ["__class__", "__delattr__", "__dir__", "__eq__", "__format__", "__ge__", "__getattribute__",
    "__getstate__", "__gt__", "__hash__", "__init__", "__init_subclass__", "__le__", "__lt__",
    "__ne__", "__new__", "__reduce__", "__reduce_ex__", "__repr__", "__setattr__", "__sizeof__",
    "__str__", "__subclasshook__"]

def wholeTable (entries : Entries ModuleValue) : Entries GivenEntry :=
  let first := particulars.map fun name => (name, (entries.get? name).bind ModuleValue.overrides?)
  let rest := entries.filter fun entry => !particulars.contains entry.1
  (first ++ rest.map fun entry => (entry.1, entry.2.overrides?)).map fun entry =>
    (entry.1, entry.2.elim (.other (.plain .null)) .table)

def tableEntry : String := "__dict__"

def fixedEntries : List String := [tableEntry, "__class__"]

def ofEntries (entries : Entries ModuleValue) : Except ModuleFault (Entries ModuleValue) :=
  match entries.keys.find? fixedEntries.contains with
  | some entry => .error (.fixedEntry entry)
  | none => .ok entries

def fallbackEntry : String := "__getattr__"

def standardTable (entries : Entries ModuleValue) (module entry : String) :
    Except ModuleFault OverrideTable :=
  if entry = "__annotations__" then .ok .empty
  else if entry = tableEntry then (OverrideTable.ofGiven (wholeTable entries)).mapError .table
  else if particulars.contains entry || objectEntries.contains entry then
    .error (.notMapping (module ++ ":" ++ entry))
  else if entries.contains fallbackEntry then .error .notFunction
  else .error (.noEntry module entry)

def load (modules : Modules) (target : String) : Except ModuleFault OverrideTable :=
  let (module, entry) := splitTarget target
  if module = "" ∨ entry = "" then .error (.badTarget target)
  else if module.toList.head? = some '.' then .error (.relative module)
  else
    match modules.get? module with
    | none => .error (.notFound module)
    | some entries =>
      match entries.get? entry with
      | none => standardTable entries module entry
      | some (.checked table) => .ok table
      | some (.given (.table classes)) => (OverrideTable.ofGiven classes).mapError .table
      | some (.given (.other _)) => .error (.notMapping target)

end Modules

end WidgetDsl
