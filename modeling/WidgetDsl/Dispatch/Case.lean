import WidgetDsl.Attribute.Group
import WidgetDsl.Dispatch.Setter
import WidgetDsl.Override.Table

/-!
Dispatch cases: for each attribute, its branches in the order in which they are tried.
-/

namespace WidgetDsl.Dispatch

structure Branch where
  candidate : Candidate
  code : Java.CodeBlock
  exhaustive : Bool
  replaced : Bool

/-- A branch that always returns and is not the last of its case. -/
structure MisplacedExhaustive where
  name : String
  deriving DecidableEq, Repr

def MisplacedExhaustive.message (fault : MisplacedExhaustive) : String :=
  "case " ++ Text.quoted fault.name ++ ": only the last branch may be exhaustive"

structure Case where
  name : String
  branches : List Branch

inductive Fault where
  | unbalanced (fault : Java.Unbalanced)
  | misplaced (fault : MisplacedExhaustive)
  | override (fault : OverrideFault)

def Fault.message : Fault → String
  | .unbalanced fault => fault.message
  | .misplaced fault => fault.message
  | .override fault => fault.message

namespace Case

def ofBranches (name : String) (branches : List Branch) : Except MisplacedExhaustive Case :=
  if branches.dropLast.any (·.exhaustive) then .error ⟨name⟩ else .ok ⟨name, branches⟩

def exhaustive (case : Case) : Bool :=
  case.branches.getLast?.elim false (·.exhaustive)

end Case

def branch (root : ResolvedType) (names : RuntimeNames) (overrides : OverrideTable)
    (candidate : Candidate) (last : Bool) : Except Fault Branch := do
  match ← (overrides.replacement candidate).mapError .override with
  | some code => return ⟨candidate, code, false, true⟩
  | none =>
    if candidate.isListener then
      let exhaustive := last && candidate.declaring.name = root.name
      let code ← (listenerBranch candidate root names exhaustive).mapError .unbalanced
      return ⟨candidate, code, exhaustive, false⟩
    else
      let code ← (setterBranch candidate root).mapError .unbalanced
      return ⟨candidate, code, false, false⟩

/-- Candidates of subtypes come first, then the root's setters and last the root's listeners. -/
def branchOrder (root : ResolvedType) (candidates : List Candidate) : List Candidate :=
  let onRoot := candidates.filter (·.declaring.name = root.name)
  candidates.filter (·.declaring.name ≠ root.name) ++ onRoot.filter (!·.isListener) ++
    onRoot.filter (·.isListener)

def branches (root : ResolvedType) (names : RuntimeNames) (overrides : OverrideTable) :
    List Candidate → Except Fault (List Branch)
  | [] => .ok []
  | candidate :: rest => do
    let first ← branch root names overrides candidate rest.isEmpty
    return first :: (← branches root names overrides rest)

def caseOf (root : ResolvedType) (names : RuntimeNames) (overrides : OverrideTable)
    (group : Group) : Except Fault Case := do
  let branches ← branches root names overrides (branchOrder root group.candidates)
  (Case.ofBranches group.name branches).mapError .misplaced

end WidgetDsl.Dispatch
