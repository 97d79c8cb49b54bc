/-!
Sets of characters given by tables of code points, either as alternating stretches or as runs with
a stride.
-/

namespace WidgetDsl.Text

/-- Membership in a set listed by its boundaries: the first is in it, the second no longer, and so
on by turns. -/
def inStretches : List Nat → Nat → Bool
  | [], _ => false
  | [first], c => first ≤ c
  | first :: past :: rest, c =>
    if c < first then false else if c < past then true else inStretches rest c

structure Run where
  first : Nat
  last : Nat
  stride : Nat
  deriving DecidableEq, Repr

def Run.contains (run : Run) (c : Nat) : Bool :=
  run.first ≤ c && c ≤ run.last && (c - run.first) % run.stride == 0

end WidgetDsl.Text
