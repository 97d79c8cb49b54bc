import WidgetDsl.Text.Case
import WidgetDsl.Text.Segments

/-!
File paths: a root, which may be nothing, and parts. Empty parts and single dots are dropped, double
dots stay.
-/

namespace WidgetDsl

structure Path where
  root : String
  parts : List String
  deriving DecidableEq, Repr

namespace Path

def ofString (s : String) : Path :=
  let slashes := (s.toList.takeWhile (· == '/')).length
  { root := if slashes = 0 then "" else if slashes = 2 then "//" else "/"
    parts := (Text.segments '/' s).filter fun part => part ≠ "" ∧ part ≠ "." }

def toString (path : Path) : String :=
  if path.root = "" ∧ path.parts = [] then "."
  else path.root ++ String.intercalate "/" path.parts

instance : ToString Path := ⟨toString⟩

/-- The second path as seen from the first; an absolute one stays what it is. -/
def join (base path : Path) : Path :=
  if path.root = "" then { base with parts := base.parts ++ path.parts } else path

def joinAll (base : Path) (names : List String) : Path :=
  names.foldl (fun path name => path.join (ofString name)) base

def name (path : Path) : String :=
  path.parts.getLast?.getD ""

def parent (path : Path) : Path :=
  { path with parts := path.parts.dropLast }

/-- The name from its last dot on, unless that dot is its first or last character. -/
def suffix (path : Path) : String :=
  let stem := Text.beforeLast '.' path.name
  let extension := Text.afterLast '.' path.name
  if stem = "" ∨ extension = "" then "" else "." ++ extension

def lowerSuffix (path : Path) : String :=
  String.ofList (path.suffix.toList.flatMap Text.lower)

end Path

end WidgetDsl
