/-!
What commands show: text with styles, trees and tables, not yet laid out.
-/

namespace WidgetDsl.CommandLine

structure Span where
  style : Option String
  text : String
  deriving DecidableEq, Repr

instance : Coe String Span := ⟨fun text => ⟨none, text⟩⟩

abbrev StyledText := List Span

def styled (style text : String) : Span := ⟨some style, text⟩

def Span.markup (span : Span) : String :=
  match span.style with
  | none => span.text
  | some style => "[" ++ style ++ "]" ++ span.text ++ "[/" ++ style ++ "]"

namespace StyledText

def markup (text : StyledText) : String :=
  String.join (text.map Span.markup)

def plain (text : StyledText) : String :=
  String.join (text.map Span.text)

end StyledText

inductive Tree where
  | node (label : StyledText) (children : List Tree)

structure Grid where
  title : String
  columns : List String
  rows : List (List String)

inductive Item where
  | text (content : StyledText)
  | printed (text : String)
  | panel (title : String) (content : StyledText)
  | tree (root : Tree)
  | grid (grid : Grid)

end WidgetDsl.CommandLine
