/-!
Arguments of a command, read by the rules for its options.
-/

namespace WidgetDsl.CommandLine

inductive OptionRule where
  | flag (name : String)
  | valued (name : String) (letter : Option Char)
  deriving DecidableEq, Repr

def OptionRule.name : OptionRule → String
  | .flag name => name
  | .valued name _ => name

def OptionRule.letter? : OptionRule → Option Char
  | .flag _ => none
  | .valued _ letter => letter

inductive Reading where
  | plain
  | flag (name : String)
  | valued (name value : String)
  | wanting (name : String)
  | invalid
  deriving DecidableEq, Repr

def readLong? (rules : List OptionRule) (arg : List Char) : Option Reading :=
  let name := String.ofList (arg.takeWhile (· ≠ '='))
  let value := arg.dropWhile (· ≠ '=')
  match rules.find? fun rule => "--" ++ rule.name = name, value with
  | none, _ => none
  | some (.flag name), [] => some (.flag name)
  | some (.flag _), _ :: _ => some .invalid
  | some (.valued name _), [] => some (.wanting name)
  | some (.valued name _), _ :: value => some (.valued name (String.ofList value))

def readLetter (rules : List OptionRule) (letter : Char) (value : List Char) : Reading :=
  match rules.find? (·.letter? = some letter), value with
  | none, _ => .invalid
  | some rule, [] => .wanting rule.name
  | some rule, _ :: _ => .valued rule.name (String.ofList value)

def readArgument (rules : List OptionRule) (arg : String) : Reading :=
  match arg.toList with
  | '-' :: second :: rest =>
    match readLong? rules ('-' :: second :: rest) with
    | some reading => reading
    | none => if second = '-' then .invalid else readLetter rules second rest
  | _ => .plain

structure Arguments where
  values : List (String × String)
  flags : List String
  plain : List String
  deriving DecidableEq, Repr

namespace Arguments

def empty : Arguments := ⟨[], [], []⟩

/-- Reads all arguments, if each of them is valid. After two dashes everything is plain. -/
def read? (rules : List OptionRule) : List String → Option Arguments
  | [] => some empty
  | "--" :: rest => some { empty with plain := rest }
  | arg :: rest =>
    match readArgument rules arg, rest with
    | .invalid, _ => none
    | .wanting _, [] => none
    | .wanting name, value :: rest =>
      (read? rules rest).map fun found => { found with values := (name, value) :: found.values }
    | .plain, rest =>
      (read? rules rest).map fun found => { found with plain := arg :: found.plain }
    | .flag name, rest =>
      (read? rules rest).map fun found => { found with flags := name :: found.flags }
    | .valued name value, rest =>
      (read? rules rest).map fun found => { found with values := (name, value) :: found.values }

def all (arguments : Arguments) (name : String) : List String :=
  (arguments.values.filter (·.1 = name)).map (·.2)

def value? (arguments : Arguments) (name : String) : Option String :=
  (arguments.all name).getLast?

def has (arguments : Arguments) (flag : String) : Bool :=
  arguments.flags.contains flag

end Arguments

end WidgetDsl.CommandLine
