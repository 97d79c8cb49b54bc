import WidgetDsl.Decimal.Shortest
import WidgetDsl.Entries
import WidgetDsl.Text.Quoted

/-!
The values of the data formats that libraries and settings are written in, and how messages show
them.
-/

namespace WidgetDsl

inductive Value where
  | null
  | bool (b : Bool)
  | int (i : Int)
  | float (x : Decimal.Binary64)
  | text (s : String)
  | list (items : List Value)
  | table (entries : List (String × Value))
  | moment (source : String)
  deriving Repr

inductive FormatFault where
  | malformed
  | longInteger (digits : Nat)
  deriving DecidableEq, Repr

namespace Value

/-- How many decimal digits an integer may have where it is read or shown. -/
def integerDigits : Nat := 4300

def longIntegerMessage (digits : Option Nat) : String :=
  "Exceeds the limit (" ++ toString integerDigits ++ " digits) for integer string conversion" ++
    (digits.elim "" fun n => ": value has " ++ toString n ++ " digits") ++
    "; use sys.set_int_max_str_digits() to increase the limit"

def numberStyle : Decimal.Style := ⟨-4, 16, 2, "nan", "inf"⟩

mutual

def display : Value → String
  | .null => "None"
  | .bool b => if b then "True" else "False"
  | .int i => toString i
  | .float x => x.write numberStyle
  | .text s => Text.quoted s
  | .list items => "[" ++ String.intercalate ", " (displayItems items) ++ "]"
  | .table entries => "\x7b" ++ String.intercalate ", " (displayEntries entries) ++ "\x7d"
  | .moment source => source

def displayItems : List Value → List String
  | [] => []
  | item :: rest => display item :: displayItems rest

def displayEntries : List (String × Value) → List String
  | [] => []
  | (key, value) :: rest => (Text.quoted key ++ ": " ++ display value) :: displayEntries rest

end

mutual

def hasLongInteger : Value → Bool
  | .int i => decide (Nat.pow 10 integerDigits ≤ i.natAbs)
  | .list items => hasLongItem items
  | .table entries => hasLongEntry entries
  | _ => false

def hasLongItem : List Value → Bool
  | [] => false
  | item :: rest => hasLongInteger item || hasLongItem rest

def hasLongEntry : List (String × Value) → Bool
  | [] => false
  | (_, value) :: rest => hasLongInteger value || hasLongEntry rest

end

def plainText : Value → String
  | .text s => s
  | value => value.display

def ofOption : Option String → Value
  | none => .null
  | some s => .text s

def text? : Value → Option String
  | .text s => some s
  | _ => none

def isVacuous : Value → Bool
  | .null => true
  | .bool b => !b
  | .int i => i = 0
  | .float (.finite _ significand _) => significand = 0
  | .float _ => false
  | .text s => s = ""
  | .list items => items.isEmpty
  | .table entries => entries.isEmpty
  | .moment _ => false

def texts? : Value → Option (List String)
  | .list items => items.mapM text?
  | _ => none

end Value

end WidgetDsl
