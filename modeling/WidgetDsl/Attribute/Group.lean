import WidgetDsl.Attribute.Candidate
import WidgetDsl.Library.Descriptor

/-!
The candidates of one attribute: which of them are overridden by others, and the order in which the
rest are tried.
-/

namespace WidgetDsl

structure Group where
  name : String
  candidates : List Candidate
  eliminated : List Candidate

namespace Candidate

/-- Whether the first takes the place of the second: it has the same value type and is declared on a
strict subtype. -/
def shadows (specific general : Candidate) : Bool :=
  specific.valueType.name = general.valueType.name &&
    specific.declaring.isSubtypeOf general.declaring

def sameTest (a b : Candidate) : Bool :=
  a.valueType.name = b.valueType.name && a.declaring.name = b.declaring.name

/-- Splits candidates into those that stay and those that go, given all of them and those that
stayed before. Of several with the same test the first stays. -/
def splitOverridden (all kept : List Candidate) : List Candidate → List Candidate × List Candidate
  | [] => ([], [])
  | candidate :: rest =>
    if all.any (·.shadows candidate) || kept.any (·.sameTest candidate) then
      let (stay, go) := splitOverridden all kept rest
      (stay, candidate :: go)
    else
      let (stay, go) := splitOverridden all (kept ++ [candidate]) rest
      (candidate :: stay, go)

def eliminateOverrides (candidates : List Candidate) : List Candidate × List Candidate :=
  splitOverridden candidates [] candidates

structure Specificity where
  valueDepth : Nat
  declaringDepth : Nat
  valueName : String
  declaringName : String
  deriving DecidableEq, Repr

def specificity (candidate : Candidate) : Specificity :=
  ⟨candidate.valueType.depth, candidate.declaring.depth, candidate.valueType.name,
    candidate.declaring.name⟩

/-- The deeper value type comes first, then the deeper declaring class, then the lesser names: a
target that inherits a method for a narrow type has to come to it before one for a wider type that
is declared further down. -/
def Specificity.le (a b : Specificity) : Bool :=
  if a.valueDepth ≠ b.valueDepth then b.valueDepth < a.valueDepth
  else if a.declaringDepth ≠ b.declaringDepth then b.declaringDepth < a.declaringDepth
  else if a.valueName ≠ b.valueName then decide (a.valueName ≤ b.valueName)
  else decide (a.declaringName ≤ b.declaringName)

def inOrder (candidates : List Candidate) : List Candidate :=
  candidates.mergeSort fun a b => a.specificity.le b.specificity

end Candidate

namespace Group

def ofCandidates (name : String) (candidates : List Candidate) : Group :=
  let (stay, go) := Candidate.eliminateOverrides candidates
  ⟨name, Candidate.inOrder stay, go⟩

def ofAll (candidates : List Candidate) : List Group :=
  (Descriptor.sorted (candidates.map (·.name)).eraseDups).map fun name =>
    ofCandidates name (candidates.filter (·.name = name))

def valueTypes (group : Group) : List String :=
  Descriptor.sorted (group.candidates.map (·.valueType.name)).eraseDups

end Group

end WidgetDsl
