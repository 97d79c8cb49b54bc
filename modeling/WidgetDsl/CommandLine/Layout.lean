import WidgetDsl.CommandLine.Output
import WidgetDsl.Text.Segments

/-!
Laying out what commands show as plain lines.
-/

namespace WidgetDsl.CommandLine

def indented (depth : Nat) (text : StyledText) : List String :=
  (Text.segments '\n' text.plain).map (String.join (List.replicate depth "  ") ++ ·)

mutual

def Tree.lines (depth : Nat) : Tree → List String
  | .node label children => indented depth label ++ linesOfAll (depth + 1) children

def linesOfAll (depth : Nat) : List Tree → List String
  | [] => []
  | tree :: rest => Tree.lines depth tree ++ linesOfAll depth rest

end

def Grid.row (cells : List String) : String :=
  String.intercalate "  " cells

def Grid.lines (grid : Grid) : List String :=
  grid.title :: (grid.columns :: grid.rows).map Grid.row

def Item.layout : Item → String
  | .printed source => source
  | .text content => content.plain ++ "\n"
  | .panel title content => title ++ "\n" ++ ended (indented 1 content)
  | .tree root => ended (root.lines 0)
  | .grid table => ended table.lines
where
  ended (lines : List String) : String :=
    String.join (lines.map (· ++ "\n"))

end WidgetDsl.CommandLine
