import WidgetDsl.Value

/-!
Writing JSON text in ASCII, on one line or indented.
-/

namespace WidgetDsl.Json

def unicodeEscapes (n : Nat) : List Char :=
  if n < 0x10000 then '\\' :: 'u' :: Text.hex 4 n
  else
    let offset := n - 0x10000
    '\\' :: 'u' :: Text.hex 4 (0xD800 + offset / 0x400) ++
      '\\' :: 'u' :: Text.hex 4 (0xDC00 + offset % 0x400)

def escape (c : Char) : List Char :=
  match c with
  | '"' => ['\\', '"']
  | '\\' => ['\\', '\\']
  | '\n' => ['\\', 'n']
  | '\r' => ['\\', 'r']
  | '\t' => ['\\', 't']
  | '\x08' => ['\\', 'b']
  | '\x0c' => ['\\', 'f']
  | _ => if 0x20 ≤ c.toNat ∧ c.toNat < 0x7f then [c] else unicodeEscapes c.toNat

def string (s : String) : String :=
  String.ofList ('"' :: s.toList.flatMap escape ++ ['"'])

def numberStyle : Decimal.Style := ⟨-4, 16, 2, "NaN", "Infinity"⟩

structure Layout where
  step : Option Nat

def Layout.line : Layout := ⟨none⟩

def Layout.indented : Layout := ⟨some 2⟩

def Layout.lead (layout : Layout) (depth : Nat) : String :=
  match layout.step with
  | none => ""
  | some step => "\n" ++ String.ofList (List.replicate (step * depth) ' ')

def Layout.enclose (layout : Layout) (depth : Nat) (opening closing : String)
    (items : List String) : String :=
  if items.isEmpty then opening ++ closing
  else
    opening ++ String.intercalate "," (items.map (layout.lead (depth + 1) ++ ·)) ++
      layout.lead depth ++ closing

mutual

def writeAt (layout : Layout) (depth : Nat) : Value → String
  | .null => "null"
  | .bool b => if b then "true" else "false"
  | .int i => toString i
  | .float x => x.write numberStyle
  | .text s => string s
  | .moment source => string source
  | .list items => layout.enclose depth "[" "]" (writeItems layout (depth + 1) items)
  | .table entries =>
    layout.enclose depth "\x7b" "\x7d" (writeEntries layout (depth + 1) entries)

def writeItems (layout : Layout) (depth : Nat) : List Value → List String
  | [] => []
  | item :: rest => writeAt layout depth item :: writeItems layout depth rest

def writeEntries (layout : Layout) (depth : Nat) : List (String × Value) → List String
  | [] => []
  | (key, value) :: rest =>
    (string key ++ ": " ++ writeAt layout depth value) :: writeEntries layout depth rest

end

def write (layout : Layout) (value : Value) : String :=
  writeAt layout 0 value

end WidgetDsl.Json
