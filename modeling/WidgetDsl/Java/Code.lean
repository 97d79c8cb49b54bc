import WidgetDsl.Java.TypeName

/-!
Java code as lines of text and type references, and writing it block by block.
-/

namespace WidgetDsl.Java

/-- Type references stay apart from text until all imports are known. -/
inductive Part where
  | text (s : String)
  | type (name : TypeName)
  deriving DecidableEq, Repr

instance : Coe String Part := ⟨.text⟩

instance : Coe TypeName Part := ⟨.type⟩

structure Line where
  depth : Int
  parts : List Part
  deriving DecidableEq, Repr

structure CodeBlock where
  lines : List Line
  deriving DecidableEq, Repr

namespace CodeBlock

/-- Code written by hand, its lines as they are. Line ends after the last line are dropped. -/
def verbatim (text : String) : CodeBlock :=
  let kept := (text.toList.reverse.dropWhile (· == '\n')).reverse
  ⟨(Text.segments '\n' (String.ofList kept)).map fun line => ⟨0, [.text line]⟩⟩

def typeNames (block : CodeBlock) : List TypeName :=
  block.lines.flatMap fun line => line.parts.filterMap fun
    | .type name => some name
    | .text _ => none

def append (a b : CodeBlock) : CodeBlock :=
  ⟨a.lines ++ b.lines⟩

instance : Append CodeBlock := ⟨append⟩

def isEmpty (block : CodeBlock) : Bool :=
  block.lines.isEmpty

def shift (depth : Int) (block : CodeBlock) : CodeBlock :=
  ⟨block.lines.map fun line => { line with depth := depth + line.depth }⟩

end CodeBlock

inductive Call where
  | line (parts : List Part)
  | statement (parts : List Part)
  | opening (parts : List Part)
  | next (parts : List Part)
  | closing (ending : String)
  | indent
  | unindent
  | block (code : CodeBlock)
  deriving Repr

structure Writer where
  lines : List Line
  depth : Int
  deriving DecidableEq, Repr

namespace Writer

def empty : Writer := ⟨[], 0⟩

def addLine (w : Writer) (parts : List Part) : Writer :=
  { w with lines := w.lines ++ [⟨w.depth, parts⟩] }

def deepen (w : Writer) (levels : Int) : Writer :=
  { w with depth := w.depth + levels }

def perform (w : Writer) : Call → Writer
  | .line parts => w.addLine parts
  | .statement parts => w.addLine (parts ++ [.text ";"])
  | .opening parts => (w.addLine (parts ++ [.text " \x7b"])).deepen 1
  | .next parts => ((w.deepen (-1)).addLine (.text "\x7d " :: parts ++ [.text " \x7b"])).deepen 1
  | .closing ending => (w.deepen (-1)).addLine [.text ("\x7d" ++ ending)]
  | .indent => w.deepen 1
  | .unindent => w.deepen (-1)
  | .block code => { w with lines := w.lines ++ (code.shift w.depth).lines }

def run (w : Writer) (calls : List Call) : Writer :=
  calls.foldl perform w

end Writer

/-- A writer left inside a block, or outside the one it began in. -/
structure Unbalanced where
  depth : Int
  deriving DecidableEq, Repr

def Unbalanced.message (fault : Unbalanced) : String :=
  "unbalanced block (depth " ++ toString fault.depth ++ ")"

def Writer.build (w : Writer) : Except Unbalanced CodeBlock :=
  if w.depth = 0 then .ok ⟨w.lines⟩ else .error ⟨w.depth⟩

def CodeBlock.ofCalls (calls : List Call) : Except Unbalanced CodeBlock :=
  (Writer.empty.run calls).build

end WidgetDsl.Java
