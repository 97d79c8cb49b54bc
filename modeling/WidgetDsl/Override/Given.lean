import WidgetDsl.Attribute.Candidate
import WidgetDsl.Java.Code
import WidgetDsl.Value

/-!
Overrides as they are given, before they are checked: plain values, code, functions of the candidate
that they apply to, and tables of these.
-/

namespace WidgetDsl

inductive Given where
  | plain (value : Value)
  | code (block : Java.CodeBlock)
  | computed (result : Candidate → Given)
  | table (entries : List (String × Given))

inductive GivenEntry where
  | table (overrides : Entries Given)
  | other (value : Given)

inductive GivenTable where
  | table (classes : Entries GivenEntry)
  | other (value : Value)

def displayTuple : List String → String
  | [] => "()"
  | [item] => "(" ++ item ++ ",)"
  | items => "(" ++ String.intercalate ", " items ++ ")"

def displayPart : Java.Part → String
  | .text s => Text.quoted s
  | .type name =>
    "TypeName(package=" ++ Text.quoted name.package ++ ", names=" ++
      displayTuple (name.names.map Text.quoted) ++ ", array_depth=" ++ toString name.arrayDepth ++
      ")"

def displayLine (line : Java.Line) : String :=
  "Line(depth=" ++ toString line.depth ++ ", parts=" ++ displayTuple (line.parts.map displayPart) ++
    ")"

namespace Given

mutual

def display : Given → String
  | .plain value => value.display
  | .code block => "CodeBlock(lines=" ++ displayTuple (block.lines.map displayLine) ++ ")"
  | .computed _ => "<function>"
  | .table entries => "\x7b" ++ String.intercalate ", " (displayEntries entries) ++ "\x7d"

def displayEntries : List (String × Given) → List String
  | [] => []
  | (key, given) :: rest => (Text.quoted key ++ ": " ++ display given) :: displayEntries rest

end

mutual

def hasLongInteger : Given → Bool
  | .plain value => value.hasLongInteger
  | .table entries => hasLongEntry entries
  | _ => false

def hasLongEntry : List (String × Given) → Bool
  | [] => false
  | (_, given) :: rest => hasLongInteger given || hasLongEntry rest

end

def kindName : Given → String
  | .plain .null => "NoneType"
  | .plain (.bool _) => "bool"
  | .plain (.int _) => "int"
  | .plain (.float _) => "float"
  | .plain (.text _) => "str"
  | .plain (.list _) => "list"
  | .plain (.table _) => "dict"
  | .plain (.moment _) => "datetime"
  | .code _ => "CodeBlock"
  | .computed _ => "function"
  | .table _ => "dict"

end Given

def GivenEntry.given : GivenEntry → Given
  | .table overrides => .table overrides
  | .other value => value

def GivenEntry.ofValue : Value → GivenEntry
  | .table entries => .table (entries.map fun entry => (entry.1, .plain entry.2))
  | value => .other (.plain value)

def GivenTable.ofValue : Value → GivenTable
  | .table entries => .table (entries.map fun entry => (entry.1, .ofValue entry.2))
  | value => .other value

def GivenTable.empty : GivenTable := .table []

end WidgetDsl
