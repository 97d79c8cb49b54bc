import WidgetDsl.CompilationUnit.Body
import WidgetDsl.Java.Imports
import WidgetDsl.Text.Blank

/-!
The text of a compilation unit. The imports are decided on once the whole class is known.
-/

namespace WidgetDsl

namespace Java

def indentStep : String := "  "

def Part.spell (imports : ImportTable) : Part → String
  | .text s => s
  | .type name => imports.spell name

def Line.render (imports : ImportTable) (line : Line) : String :=
  let text := String.join (line.parts.map (Part.spell imports))
  if Text.isBlankText text then ""
  else String.join (List.replicate line.depth.toNat indentStep) ++ text

def CodeBlock.render (imports : ImportTable) (block : CodeBlock) : List String :=
  block.lines.map (Line.render imports)

end Java

namespace CompilationUnit

def packageLines (package : String) : List String :=
  if package = "" then [] else ["package " ++ package ++ ";", ""]

def importLines (imports : List String) : List String :=
  if imports.isEmpty then [] else (imports.map fun name => "import " ++ name ++ ";") ++ [""]

def commentLines (comment : List String) : List String :=
  if comment.isEmpty then []
  else ["/**"] ++ (comment.map fun line => Text.withoutTrailingBlanks (" * " ++ line)) ++ [" */"]

def importTable (unit : CompilationUnit) (body : Java.CodeBlock) : Java.ImportTable :=
  .ofTypes unit.package unit.className body.typeNames

def lines (unit : CompilationUnit) (body : Java.CodeBlock) : List String :=
  let imports := unit.importTable body
  packageLines unit.package ++ importLines imports.imports ++ commentLines unit.comment ++
    body.render imports

def render (unit : CompilationUnit) : Except Java.Unbalanced String :=
  unit.body.map fun body => String.intercalate "\n" (unit.lines body) ++ "\n"

end CompilationUnit

end WidgetDsl
