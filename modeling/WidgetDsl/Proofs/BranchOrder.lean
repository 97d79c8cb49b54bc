import Mathlib.Data.List.Pairwise
import WidgetDsl.Proofs.Dispatching

/-!
The order of a case's branches: part by part, and within a part by specificity, so that no branch hides
a later one of its part that is for a narrower type.
-/

namespace WidgetDsl

open Relation

namespace ResolvedType

theorem depth_lt_depthAmong {type : ResolvedType} {types : List ResolvedType}
    (member : type ∈ types) : type.depth < depthAmong types := by
  induction types with
  | nil => cases member
  | cons first rest ih =>
    rw [depthAmong]
    rcases List.mem_cons.mp member with rfl | later
    · omega
    · have := ih later
      omega

theorem depth_lt_of_under {a b : ResolvedType} (under : a.Under b) : b.depth < a.depth := by
  obtain ⟨name, kind, modifiers, superclass, interfaces, methods, origin⟩ := a
  simp only [Under, supertypes, List.mem_append, Option.mem_toList] at under
  rw [depth]
  rcases under with above | member
  · obtain rfl := Option.mem_def.mp above
    rw [depthAbove]
    omega
  · have := depth_lt_depthAmong member
    omega

theorem depth_lt_of_above {a b : ResolvedType} (above : TransGen Under a b) : b.depth < a.depth := by
  induction above with
  | single under => exact depth_lt_of_under under
  | tail _ under ih => exact Nat.lt_trans (depth_lt_of_under under) ih

end ResolvedType

namespace Candidate

namespace Specificity

variable {a b c : Specificity}

theorem le_iff : a.le b = true ↔ b.valueDepth < a.valueDepth ∨ a.valueDepth = b.valueDepth ∧
    (b.declaringDepth < a.declaringDepth ∨ a.declaringDepth = b.declaringDepth ∧
      (a.valueName < b.valueName ∨ a.valueName = b.valueName ∧
        a.declaringName ≤ b.declaringName)) := by
  have strict : a.valueName < b.valueName ↔ a.valueName ≤ b.valueName ∧ a.valueName ≠ b.valueName :=
    ⟨fun lt => ⟨Std.le_of_lt lt, String.ne_of_lt lt⟩, fun ⟨le, ne⟩ => Std.lt_of_le_of_ne le ne⟩
  unfold le
  grind

theorem le_trans (lower : a.le b = true) (upper : b.le c = true) : a.le c = true := by
  rw [le_iff] at lower upper ⊢
  grind

theorem le_antisymm (lower : a.le b = true) (upper : b.le a = true) : a = b := by
  rw [le_iff] at lower upper
  cases a
  cases b
  grind

theorem le_total (a b : Specificity) : (a.le b || b.le a) = true := by
  rw [Bool.or_eq_true, le_iff, le_iff]
  grind

end Specificity

theorem inOrder_pairwise (candidates : List Candidate) :
    (inOrder candidates).Pairwise fun a b => a.specificity.le b.specificity = true := by
  have trans (a b c : Candidate) (lower : a.specificity.le b.specificity = true)
      (upper : b.specificity.le c.specificity = true) : a.specificity.le c.specificity = true :=
    Specificity.le_trans lower upper
  have total (a b : Candidate) :
      (a.specificity.le b.specificity || b.specificity.le a.specificity) = true :=
    Specificity.le_total _ _
  exact List.pairwise_mergeSort trans total candidates

end Candidate

namespace Dispatch

inductive CasePart where
  | belowRoot
  | rootSetters
  | rootListeners
  deriving DecidableEq, Repr

def partOf (rootName : String) (candidate : Candidate) : CasePart :=
  if candidate.declaring.name ≠ rootName then .belowRoot
  else if candidate.isListener then .rootListeners
  else .rootSetters

namespace CasePart

def rank : CasePart → Nat
  | belowRoot => 0
  | rootSetters => 1
  | rootListeners => 2

end CasePart

variable {root : ResolvedType} {candidates : List Candidate} {a b : Candidate}

/-- The first of two candidates is in an earlier part, or in the same part and so related. -/
def PartsThen (rootName : String) (R : Candidate → Candidate → Prop) (a b : Candidate) : Prop :=
  (partOf rootName a).rank < (partOf rootName b).rank ∨
    partOf rootName a = partOf rootName b ∧ R a b

section

variable {rootName : String} {candidate : Candidate}

theorem partOf_eq_belowRoot_iff :
    partOf rootName candidate = .belowRoot ↔ candidate.declaring.name ≠ rootName := by
  by_cases onRoot : candidate.declaring.name = rootName <;>
    cases listener : candidate.isListener <;> simp [partOf, onRoot, listener]

theorem partOf_eq_rootSetters_iff : partOf rootName candidate = .rootSetters ↔
    candidate.declaring.name = rootName ∧ candidate.isListener = false := by
  by_cases onRoot : candidate.declaring.name = rootName <;>
    cases listener : candidate.isListener <;> simp [partOf, onRoot, listener]

theorem partOf_eq_rootListeners_iff : partOf rootName candidate = .rootListeners ↔
    candidate.declaring.name = rootName ∧ candidate.isListener = true := by
  by_cases onRoot : candidate.declaring.name = rootName <;>
    cases listener : candidate.isListener <;> simp [partOf, onRoot, listener]

end

theorem branchOrder_eq (root : ResolvedType) (candidates : List Candidate) :
    branchOrder root candidates =
      candidates.filter (partOf root.name · = .belowRoot) ++
        candidates.filter (partOf root.name · = .rootSetters) ++
        candidates.filter (partOf root.name · = .rootListeners) := by
  simp [branchOrder, List.filter_filter, partOf_eq_belowRoot_iff, partOf_eq_rootSetters_iff,
    partOf_eq_rootListeners_iff, Bool.and_comm]

theorem branchOrder_perm (root : ResolvedType) (candidates : List Candidate) :
    (branchOrder root candidates).Perm candidates := by
  let onRoot := candidates.filter (·.declaring.name = root.name)
  have listenersLast : (onRoot.filter (!·.isListener) ++ onRoot.filter (·.isListener)).Perm onRoot :=
    List.perm_append_comm.trans (List.filter_append_perm _ onRoot)
  have rootLast : (candidates.filter (·.declaring.name ≠ root.name) ++ onRoot).Perm candidates := by
    have split := List.filter_append_perm
      (fun candidate : Candidate => decide (candidate.declaring.name = root.name)) candidates
    simp only [ne_eq, decide_not]
    exact List.perm_append_comm.trans split
  rw [branchOrder, List.append_assoc]
  exact (listenersLast.append_left _).trans rootLast

theorem branchOrder_pairwise {R : Candidate → Candidate → Prop} (ordered : candidates.Pairwise R) :
    (branchOrder root candidates).Pairwise (PartsThen root.name R) := by
  have within (part : CasePart) :
      (candidates.filter (partOf root.name · = part)).Pairwise (PartsThen root.name R) := by
    refine (ordered.filter _).imp_of_mem fun {a b} inA inB related => .inr ⟨?_, related⟩
    simp only [List.mem_filter, decide_eq_true_eq] at inA inB
    rw [inA.2, inB.2]
  have across (first second : CasePart) (earlier : first.rank < second.rank) :
      ∀ a ∈ candidates.filter (partOf root.name · = first),
        ∀ b ∈ candidates.filter (partOf root.name · = second), PartsThen root.name R a b := by
    intro a inA b inB
    simp only [List.mem_filter, decide_eq_true_eq] at inA inB
    exact .inl (by rwa [inA.2, inB.2])
  rw [branchOrder_eq, List.pairwise_append, List.pairwise_append]
  refine ⟨⟨within _, within _, across _ _ (by decide)⟩, within _, fun a inA b inB => ?_⟩
  rcases List.mem_append.mp inA with inA | inA
  · exact across .belowRoot .rootListeners (by decide) a inA b inB
  · exact across .rootSetters .rootListeners (by decide) a inA b inB

def Case.Precedes (case : Case) (i j : Branch) : Prop :=
  [i, j].Sublist case.branches

namespace Case.Precedes

variable {case : Case} {i j : Branch}

theorem left_mem (precedes : case.Precedes i j) : i ∈ case.branches :=
  precedes.subset (by simp)

theorem right_mem (precedes : case.Precedes i j) : j ∈ case.branches :=
  precedes.subset (by simp)

theorem of_pairwise {R : Branch → Branch → Prop} (related : case.branches.Pairwise R)
    (precedes : case.Precedes i j) : R i j :=
  List.pairwise_iff_forall_sublist.mp related precedes

theorem or_symm (first : i ∈ case.branches) (second : j ∈ case.branches) (different : i ≠ j) :
    case.Precedes i j ∨ case.Precedes j i := by
  have symm : Std.Symm fun a b => case.Precedes a b ∨ case.Precedes b a := ⟨fun _ _ => Or.symm⟩
  have either : case.branches.Pairwise fun a b => case.Precedes a b ∨ case.Precedes b a :=
    List.pairwise_iff_forall_sublist.mpr .inl
  exact either.forall first second different

end Case.Precedes

end Dispatch

namespace Generator

open Dispatch Candidate

variable {generator : Generator} {scan : Scan} {analysis : Analysis} {case : Case} {i j : Branch}

theorem Finds.root_name (finds : generator.Finds scan analysis) :
    analysis.root.name = generator.config.root :=
  (Library.builds_iff_resolve.mpr finds.root).name_eq

namespace Forms

theorem of_pairwise (forms : generator.Forms scan analysis case) (precedes : case.Precedes i j)
    {R : Candidate → Candidate → Prop}
    (related : (branchOrder analysis.root (Group.ofCandidates case.name
      (analysis.candidates.filter (·.name = case.name))).candidates).Pairwise R) :
    R i.candidate j.candidate := by
  rw [← forms.covers.candidates, List.pairwise_map] at related
  exact precedes.of_pairwise related

theorem ordered (forms : generator.Forms scan analysis case) (precedes : case.Precedes i j) :
    PartsThen generator.config.root (fun a b => a.specificity.le b.specificity = true) i.candidate
      j.candidate := by
  rw [← forms.finds.root_name]
  exact forms.of_pairwise precedes (branchOrder_pairwise (inOrder_pairwise _))

theorem distinct (forms : generator.Forms scan analysis case) (precedes : case.Precedes i j) :
    i.candidate.sameTest j.candidate = false := by
  let named := analysis.candidates.filter (·.name = case.name)
  have survivors := (branchOrder_perm analysis.root (inOrder (eliminateOverrides named).1)).trans
    (List.mergeSort_perm _ _)
  exact forms.of_pairwise precedes (distinct_of_perm survivors)

theorem precedes_of_not_before (forms : generator.Forms scan analysis case)
    (first : i ∈ case.branches) (second : j ∈ case.branches)
    (notBefore : ¬ PartsThen generator.config.root (fun a b => a.specificity.le b.specificity = true)
      j.candidate i.candidate) : case.Precedes i j := by
  have different : i ≠ j := by
    rintro rfl
    have same := Specificity.le_total i.candidate.specificity i.candidate.specificity
    exact notBefore (.inr ⟨rfl, by simpa using same⟩)
  rcases Case.Precedes.or_symm first second different with precedes | back
  · exact precedes
  · exact absurd (forms.ordered back) notBefore

theorem precedes_of_rank_lt (forms : generator.Forms scan analysis case)
    (first : i ∈ case.branches) (second : j ∈ case.branches)
    (earlier : (partOf generator.config.root i.candidate).rank <
      (partOf generator.config.root j.candidate).rank) : case.Precedes i j := by
  refine forms.precedes_of_not_before first second ?_
  rintro (later | ⟨same, -⟩)
  · omega
  · rw [same] at earlier
    exact Nat.lt_irrefl _ earlier

theorem precedes_of_not_le (forms : generator.Forms scan analysis case)
    (first : i ∈ case.branches) (second : j ∈ case.branches)
    (same : partOf generator.config.root i.candidate = partOf generator.config.root j.candidate)
    (notLe : j.candidate.specificity.le i.candidate.specificity = false) : case.Precedes i j := by
  refine forms.precedes_of_not_before first second ?_
  rintro (later | ⟨-, le⟩)
  · rw [same] at later
    exact Nat.lt_irrefl _ later
  · simp [notLe] at le

end Forms

end Generator

namespace Gallery

open Dispatch

variable {b : Branch} {purpose : Purpose}

namespace Purpose

def part (purpose : Purpose) : CasePart :=
  if (scan.library.typeOf purpose.declaring).name ≠ generator.config.root then .belowRoot
  else if purpose.listener then .rootListeners
  else .rootSetters

def specificity (purpose : Purpose) : Candidate.Specificity :=
  let value := scan.library.typeOf purpose.value
  let declaring := scan.library.typeOf purpose.declaring
  ⟨value.depth, declaring.depth, value.name, declaring.name⟩

def isBefore (first second : Purpose) : Bool :=
  first.part.rank < second.part.rank ||
    first.part = second.part && !second.specificity.le first.specificity

end Purpose

theorem IsFor.part (isFor : IsFor b purpose) :
    partOf generator.config.root b.candidate = purpose.part := by
  rw [partOf, Purpose.part, isFor.declaring, isFor.isListener]

theorem IsFor.specificity (isFor : IsFor b purpose) :
    b.candidate.specificity = purpose.specificity := by
  rw [Candidate.specificity, Purpose.specificity, isFor.declaring, isFor.valueType]

structure Tries (case : Case) (i j : Branch) : Prop where
  makes : generator.Makes scan case
  notReplaced : ∀ b ∈ case.branches, b.replaced = false
  precedes : case.Precedes i j

theorem exists_tries (first second : Purpose) (listed : first ∈ purposes ∧ second ∈ purposes)
    (named : second.name = first.name) (before : first.isBefore second = true) :
    ∃ case i j, Tries case i j ∧ IsFor i first ∧ IsFor j second := by
  obtain ⟨analysis, case, analyzed, makes, forms, same⟩ := exists_case listed.1
  obtain ⟨i, inside, isFirst⟩ := exists_branch analyzed forms listed.1 same.symm
  obtain ⟨j, insideToo, isSecond⟩ := exists_branch analyzed forms listed.2 (named.trans same.symm)
  refine ⟨case, i, j, ⟨makes, fun _ => not_replaced forms, ?_⟩, isFirst, isSecond⟩
  simp only [Purpose.isBefore, ← isFirst.part, ← isSecond.part, ← isFirst.specificity,
    ← isSecond.specificity, Bool.or_eq_true, Bool.and_eq_true, decide_eq_true_eq,
    Bool.not_eq_true'] at before
  rcases before with earlier | ⟨same, notLe⟩
  · exact forms.precedes_of_rank_lt inside insideToo earlier
  · exact forms.precedes_of_not_le inside insideToo same notLe

end Gallery

namespace Generator

open Dispatch Candidate

/-- The parts of a case come in order, and within a part no branch precedes one for a narrower type,
whatever the classes that declare the two. -/
theorem narrower_first (generator : Generator) (scan : Scan) (case : Case)
    (makes : generator.Makes scan case) (i j : Branch) (precedes : case.Precedes i j) :
    (partOf generator.config.root i.candidate).rank ≤
        (partOf generator.config.root j.candidate).rank ∧
      (partOf generator.config.root i.candidate = partOf generator.config.root j.candidate →
        j.candidate.valueType.isSubtypeOf i.candidate.valueType = false) := by
  obtain ⟨analysis, forms⟩ := makes.forms
  rcases forms.ordered precedes with earlier | ⟨same, specific⟩
  · refine ⟨Nat.le_of_lt earlier, fun same => ?_⟩
    rw [same] at earlier
    exact absurd earlier (Nat.lt_irrefl _)
  · refine ⟨by rw [same], fun _ => Bool.eq_false_iff.mpr fun narrower => ?_⟩
    have above := (Library.isSubtypeOf_iff (forms.loaded precedes.right_mem).1
      (forms.loaded precedes.left_mem).1).mp narrower
    have deeper := ResolvedType.depth_lt_of_above above
    have shallower := Specificity.le_iff.mp specific
    simp only [specificity] at shallower
    omega

end Generator

namespace Gallery

open Dispatch

theorem string_hint_first : ∃ case i j, generator.Makes scan case ∧ case.Precedes i j ∧
    partOf generator.config.root i.candidate = partOf generator.config.root j.candidate ∧
    i.candidate.valueType.isSubtypeOf j.candidate.valueType = true ∧
    j.candidate.valueType.isSubtypeOf i.candidate.valueType = false := by
  obtain ⟨case, i, j, tries, isFirst, isSecond⟩ := exists_tries
    ⟨"hint", "java.lang.String", widgetDecl.name, false⟩
    ⟨"hint", "java.lang.CharSequence", widgetDecl.name, false⟩ (by decide +kernel) rfl
    (by decide +kernel)
  have parts : partOf generator.config.root i.candidate = partOf generator.config.root j.candidate := by
    rw [isFirst.part, isSecond.part]
    decide +kernel
  have narrower : i.candidate.valueType.isSubtypeOf j.candidate.valueType = true := by
    rw [isFirst.valueType, isSecond.valueType]
    decide +kernel
  exact ⟨case, i, j, tries.makes, tries.precedes, parts, narrower,
    (Generator.narrower_first generator scan case tries.makes i j tries.precedes).2 parts⟩

/-- A branch that hides a later one for a narrower type from all targets of its own. -/
structure Hides (case : Case) (i j : Branch) : Prop where
  tries : Tries case i j
  within : i.candidate.declaring.Within j.candidate.declaring
  narrower : j.candidate.valueType.isSubtypeOf i.candidate.valueType = true

theorem exists_hides (first second : Purpose) (listed : first ∈ purposes ∧ second ∈ purposes)
    (named : second.name = first.name) (earlier : first.part.rank < second.part.rank)
    (within : (scan.library.typeOf first.declaring).Within (scan.library.typeOf second.declaring))
    (narrower : (scan.library.typeOf second.value).isSubtypeOf
      (scan.library.typeOf first.value) = true) :
    ∃ case i j, Hides case i j ∧ partOf generator.config.root i.candidate = first.part ∧
      partOf generator.config.root j.candidate = second.part := by
  obtain ⟨case, i, j, tries, isFirst, isSecond⟩ :=
    exists_tries first second listed named (by simp [Purpose.isBefore, earlier])
  refine ⟨case, i, j, ⟨tries, ?_, ?_⟩, isFirst.part, isSecond.part⟩
  · rwa [isFirst.declaring, isSecond.declaring]
  · rwa [isFirst.valueType, isSecond.valueType]

/-- Across parts a branch can hide one for a narrower type: a setter below the root hides a setter and
a listener of the root, and a setter of the root a listener of the root. -/
theorem wider_first_across_parts :
    (∃ case i j, Hides case i j ∧ partOf generator.config.root i.candidate = .belowRoot ∧
      partOf generator.config.root j.candidate = .rootSetters) ∧
    (∃ case i j, Hides case i j ∧ partOf generator.config.root i.candidate = .belowRoot ∧
      partOf generator.config.root j.candidate = .rootListeners) ∧
    ∃ case i j, Hides case i j ∧ partOf generator.config.root i.candidate = .rootSetters ∧
      partOf generator.config.root j.candidate = .rootListeners := by
  have below : button.Within widget := .inr (by decide +kernel)
  refine ⟨?_, ?_, ?_⟩
  · exact exists_hides ⟨"label", "java.lang.CharSequence", buttonDecl.name, false⟩
      ⟨"label", "java.lang.String", widgetDecl.name, false⟩ (by decide +kernel) rfl
      (by decide +kernel) below (by decide +kernel)
  · exact exists_hides ⟨"onTouch", "java.lang.Comparable", buttonDecl.name, false⟩
      ⟨"onTouch", touchListenerDecl.name, widgetDecl.name, true⟩ (by decide +kernel) rfl
      (by decide +kernel) below (by decide +kernel)
  · exact exists_hides ⟨"onTouch", "java.lang.Runnable", widgetDecl.name, false⟩
      ⟨"onTouch", touchListenerDecl.name, widgetDecl.name, true⟩ (by decide +kernel) rfl
      (by decide +kernel) (.inl rfl) (by decide +kernel)

end Gallery

namespace Generator

open Dispatch Candidate

/-- A branch for all objects precedes another one of its class only if it is a setter of the root and
the other one a listener, or if the other type is no deeper and, where it is as deep, later by
name. -/
theorem object_precedes (generator : Generator) (scan : Scan) (case : Case)
    (makes : generator.Makes scan case) (i j : Branch) (precedes : case.Precedes i j)
    (object : i.candidate.valueType.name = Java.objectName)
    (same : i.candidate.declaring.name = j.candidate.declaring.name) :
    (partOf generator.config.root i.candidate = .rootSetters ∧
      partOf generator.config.root j.candidate = .rootListeners) ∨
    j.candidate.valueType.depth < i.candidate.valueType.depth ∨
    (j.candidate.valueType.depth = i.candidate.valueType.depth ∧
      Java.objectName < j.candidate.valueType.name) := by
  obtain ⟨analysis, forms⟩ := makes.forms
  rcases forms.ordered precedes with earlier | ⟨-, specific⟩
  · -- candidates of one class are in different parts only if the class is the root
    left
    by_cases onRoot : j.candidate.declaring.name = generator.config.root
    · cases first : i.candidate.isListener <;> cases second : j.candidate.isListener <;>
        simp [partOf, same, onRoot, first, second, CasePart.rank] at earlier ⊢
    · simp [partOf, same, onRoot] at earlier
  · right
    have different := forms.distinct precedes
    rw [Bool.eq_false_iff, ne_eq, sameTest_iff] at different
    have declaring := ((forms.loaded precedes.left_mem).2).eq_of_name_eq
      (forms.loaded precedes.right_mem).2 same
    rcases Specificity.le_iff.mp specific with shallower | ⟨depths, rest⟩
    · exact .inl shallower
    · simp only [specificity, declaring, Nat.lt_irrefl, false_or, true_and] at rest
      rcases rest with later | ⟨values, -⟩
      · exact .inr ⟨depths.symm, object ▸ later⟩
      · exact absurd ⟨values, same⟩ different

end Generator

namespace Gallery

open Dispatch

structure CatchesAll (case : Case) (i j : Branch) : Prop where
  tries : Tries case i j
  object : i.candidate.valueType.name = Java.objectName
  same : i.candidate.declaring.name = j.candidate.declaring.name

theorem exists_catchesAll (second : Purpose) (onWidget : second.declaring = widgetDecl.name)
    (listed : second ∈ purposes) (named : second.name = "onTouch")
    (before : Purpose.isBefore ⟨"onTouch", Java.objectName, widgetDecl.name, false⟩ second = true) :
    ∃ case i j, CatchesAll case i j ∧
      IsFor i ⟨"onTouch", Java.objectName, widgetDecl.name, false⟩ ∧ IsFor j second := by
  obtain ⟨case, i, j, tries, isFirst, isSecond⟩ :=
    exists_tries _ second ⟨by decide +kernel, listed⟩ named before
  have known : scan.library.isNear Java.objectName = true := by decide +kernel
  refine ⟨case, i, j, ⟨tries, ?_, ?_⟩, isFirst, isSecond⟩
  · rw [isFirst.valueType]
    exact Library.typeOf_name known
  · rw [isFirst.declaring, isSecond.declaring, onWidget]

theorem object_before_listener : ∃ case i j, CatchesAll case i j ∧
    i.candidate.valueType.depth < j.candidate.valueType.depth ∧
    partOf generator.config.root i.candidate = .rootSetters ∧
    partOf generator.config.root j.candidate = .rootListeners := by
  obtain ⟨case, i, j, catches, isFirst, isSecond⟩ := exists_catchesAll
    ⟨"onTouch", touchListenerDecl.name, widgetDecl.name, true⟩ rfl (by decide +kernel) rfl
    (by decide +kernel)
  have deeper : i.candidate.valueType.depth < j.candidate.valueType.depth := by
    rw [isFirst.valueType, isSecond.valueType]
    decide +kernel
  have parts := Generator.object_precedes generator scan case catches.tries.makes i j
    catches.tries.precedes catches.object catches.same
  exact ⟨case, i, j, catches, deeper, parts.resolve_right (by omega)⟩

/-- A setter for all objects comes before a listener of the root, and before a setter of its own part
for a type that is no deeper. -/
theorem object_before_others :
    (∃ case i j, CatchesAll case i j ∧
      j.candidate.valueType = scan.library.typeOf touchListenerDecl.name) ∧
    ∃ case i j, CatchesAll case i j ∧
      j.candidate.valueType = scan.library.typeOf "java.lang.Runnable" := by
  constructor
  · obtain ⟨case, i, j, catches, -, isSecond⟩ := exists_catchesAll
      ⟨"onTouch", touchListenerDecl.name, widgetDecl.name, true⟩ rfl (by decide +kernel) rfl
      (by decide +kernel)
    exact ⟨case, i, j, catches, isSecond.valueType⟩
  · obtain ⟨case, i, j, catches, -, isSecond⟩ := exists_catchesAll
      ⟨"onTouch", "java.lang.Runnable", widgetDecl.name, false⟩ rfl (by decide +kernel) rfl
      (by decide +kernel)
    exact ⟨case, i, j, catches, isSecond.valueType⟩

end Gallery

end WidgetDsl
