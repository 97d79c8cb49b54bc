import WidgetDsl.Proofs.SmallScans
import WidgetDsl.Proofs.Overriding

/-!
How dispatch cases come about. A writer that closes what it opens writes a block, so that only
overrides can keep a case from being built, and a case has a branch to each candidate that stays.
-/

namespace WidgetDsl

namespace Java

def Call.rise : Call → Int
  | .opening _ => 1
  | .closing _ => -1
  | .indent => 1
  | .unindent => -1
  | .line _ => 0
  | .statement _ => 0
  | .next _ => 0
  | .block _ => 0

def rise : List Call → Int
  | [] => 0
  | call :: rest => call.rise + rise rest

theorem rise_append (a b : List Call) : rise (a ++ b) = rise a + rise b := by
  induction a with
  | nil => simp [rise]
  | cons call rest ih => simp [rise, ih, Int.add_assoc]

theorem Writer.perform_depth (w : Writer) (call : Call) :
    (w.perform call).depth = w.depth + call.rise := by
  cases call <;> simp only [perform, addLine, deepen, Call.rise] <;> omega

theorem Writer.run_depth (w : Writer) (calls : List Call) :
    (w.run calls).depth = w.depth + rise calls := by
  induction calls generalizing w with
  | nil => simp [run, rise]
  | cons call rest ih =>
    have later := ih (w.perform call)
    rw [Writer.perform_depth] at later
    simp only [run, List.foldl_cons, rise] at later ⊢
    omega

theorem CodeBlock.ofCalls_eq_ok_iff {calls : List Call} {code : CodeBlock} :
    ofCalls calls = .ok code ↔ rise calls = 0 ∧ code.lines = (Writer.empty.run calls).lines := by
  have depth := Writer.run_depth .empty calls
  simp only [Writer.empty, Int.zero_add] at depth
  cases code
  simp only [ofCalls, Writer.build, Writer.empty, depth]
  split
  · simp [*, eq_comm]
  · rename_i unbalanced
    simp [unbalanced]

theorem CodeBlock.exists_ofCalls {calls : List Call} (balanced : rise calls = 0) :
    ∃ code, ofCalls calls = .ok code :=
  ⟨⟨(Writer.empty.run calls).lines⟩, ofCalls_eq_ok_iff.mpr ⟨balanced, rfl⟩⟩

end Java

namespace NullabilityOracle

theorem cycle_of_ofMethod {oracle : NullabilityOracle} {lib : Library}
    {className method type : String} {cause : ResolveError}
    (failed : oracle.ofMethod lib className method type = .error cause) :
    ∃ name, lib.resolve className = .error (.cyclic name) ∧ cause = .cyclic name := by
  unfold ofMethod at failed
  split at failed
  · cases failed
  split at failed
  · rename_i name resolved
    cases failed
    exact ⟨name, resolved, rfl⟩
  · cases failed
  · cases failed

end NullabilityOracle

namespace Dispatch

open Java (rise rise_append CodeBlock)

variable {root : ResolvedType} {names : RuntimeNames} {overrides : OverrideTable}

theorem rise_forwardingMethod (listener : Java.TypeName) (names : RuntimeNames) (m : Method) :
    rise (forwardingMethod listener names m) = 0 := by
  unfold forwardingMethod
  split <;> simp [rise, Java.Call.rise]

theorem rise_separated {blocks : List (List Java.Call)}
    (balanced : ∀ calls ∈ blocks, rise calls = 0) : rise (separated blocks) = 0 := by
  induction blocks using separated.induct with
  | case1 => rfl
  | case2 calls => simpa [separated] using balanced
  | case3 calls rest more ih =>
    have later := ih fun other member => balanced other (by simp [member])
    have first := balanced calls (by simp)
    rw [separated, rise_append, first]
    · simpa [rise, Java.Call.rise] using later
    · exact more

theorem exists_implementation (interface : ResolvedType) (names : RuntimeNames) :
    ∃ code, implementation interface names = .ok code := by
  refine CodeBlock.exists_ofCalls (rise_separated fun calls member => ?_)
  obtain ⟨required, -, rfl⟩ := List.mem_map.mp member
  exact rise_forwardingMethod _ _ _

theorem listenerGuard_cases (candidate : Candidate) (listener : Java.TypeName)
    (onRoot exhaustive : Bool) : listenerGuard candidate listener onRoot exhaustive = [] ∨
      ∃ parts, listenerGuard candidate listener onRoot exhaustive = [.opening parts] := by
  cases onRoot <;> cases exhaustive <;> simp [listenerGuard]

theorem exists_listenerBranch (candidate : Candidate) (root : ResolvedType) (names : RuntimeNames)
    (exhaustive : Bool) : ∃ code, listenerBranch candidate root names exhaustive = .ok code := by
  obtain ⟨body, implemented⟩ := exists_implementation candidate.valueType names
  simp only [listenerBranch, implemented, bind, Except.bind]
  rcases listenerGuard_cases candidate (.ofBinary candidate.valueType.name)
    (candidate.declaring.name = root.name) exhaustive with guard | ⟨parts, guard⟩
  · rw [guard]
    exact CodeBlock.exists_ofCalls rfl
  · rw [guard]
    exact CodeBlock.exists_ofCalls rfl

theorem exists_setterBranch (candidate : Candidate) (root : ResolvedType) :
    ∃ code, setterBranch candidate root = .ok code := by
  unfold setterBranch
  split <;> exact CodeBlock.exists_ofCalls rfl

/-- Whether the overrides can say what to put in place of each of some candidates, if anything. -/
def Replaces (overrides : OverrideTable) (candidates : List Candidate) : Prop :=
  ∀ candidate ∈ candidates, ∃ code, overrides.replacement candidate = .ok code

theorem replaces_empty (candidates : List Candidate) : Replaces .empty candidates :=
  fun _ _ => ⟨none, rfl⟩

theorem exists_branch {candidate : Candidate} {replaced : Option CodeBlock}
    (replaces : overrides.replacement candidate = .ok replaced) (root : ResolvedType)
    (names : RuntimeNames) (last : Bool) :
    ∃ made, branch root names overrides candidate last = .ok made := by
  simp only [branch, bind_eq_ok, mapError_eq_ok, replaces, Except.ok.injEq, exists_eq_left']
  match replaced with
  | some code => exact ⟨_, rfl⟩
  | none =>
    dsimp only
    split
    · obtain ⟨code, listens⟩ := exists_listenerBranch candidate root names
        (last && candidate.declaring.name = root.name)
      exact ⟨_, bind_eq_ok.mpr ⟨code, mapError_eq_ok.mpr listens, rfl⟩⟩
    · obtain ⟨code, sets⟩ := exists_setterBranch candidate root
      exact ⟨_, bind_eq_ok.mpr ⟨code, mapError_eq_ok.mpr sets, rfl⟩⟩

variable {candidates : List Candidate} {fault : Fault}

def FaultAt (overrides : OverrideTable) (candidates : List Candidate) (fault : Fault) : Prop :=
  ∃ c ∈ candidates, ∃ cause, overrides.replacement c = .error cause ∧ fault = .override cause

theorem FaultAt.mono {others : List Candidate} (failed : FaultAt overrides candidates fault)
    (inside : ∀ c ∈ candidates, c ∈ others) : FaultAt overrides others fault := by
  obtain ⟨c, member, cause⟩ := failed
  exact ⟨c, inside c member, cause⟩

theorem Replaces.not_faultAt (replaces : Replaces overrides candidates) :
    ¬ FaultAt overrides candidates fault := by
  rintro ⟨c, member, cause, failed, -⟩
  obtain ⟨code, replaced⟩ := replaces c member
  rw [replaced] at failed
  cases failed

theorem branch_fault {c : Candidate} {last : Bool}
    (failed : branch root names overrides c last = .error fault) :
    FaultAt overrides [c] fault := by
  cases replaced : overrides.replacement c with
  | ok code =>
    obtain ⟨made, built⟩ := exists_branch replaced root names last
    rw [built] at failed
    cases failed
  | error cause =>
    have stops : branch root names overrides c last = .error (.override cause) := by
      simp [branch, replaced, Except.mapError, bind, Except.bind]
    have same : Fault.override cause = fault := Except.error.inj (stops.symm.trans failed)
    exact ⟨c, by simp, cause, replaced, same.symm⟩

theorem branches_fault (failed : branches root names overrides candidates = .error fault) :
    FaultAt overrides candidates fault := by
  induction candidates with
  | nil => cases failed
  | cons c rest ih =>
    rcases bind_eq_error.mp failed with first | ⟨made, -, failed⟩
    · exact (branch_fault first).mono (by simp)
    rcases bind_eq_error.mp failed with later | ⟨others, -, ended⟩
    · exact (ih later).mono fun other member => List.mem_cons_of_mem c member
    · cases ended

variable {candidate : Candidate} {last : Bool} {made : Branch}

theorem branch_cases (result : branch root names overrides candidate last = .ok made) :
    (∃ code, overrides.replacement candidate = .ok (some code) ∧
      made = ⟨candidate, code, false, true⟩) ∨
    (candidate.isListener = true ∧ ∃ code,
      listenerBranch candidate root names (last && candidate.declaring.name = root.name) = .ok code ∧
      made = ⟨candidate, code, last && candidate.declaring.name = root.name, false⟩) ∨
    (candidate.isListener = false ∧ ∃ code, setterBranch candidate root = .ok code ∧
      made = ⟨candidate, code, false, false⟩) := by
  obtain ⟨replaced, found, result⟩ := bind_eq_ok.mp result
  split at result
  · cases result
    exact .inl ⟨_, mapError_eq_ok.mp found, rfl⟩
  split at result
  · rename_i listener
    obtain ⟨code, listens, result⟩ := bind_eq_ok.mp result
    cases result
    exact .inr (.inl ⟨listener, code, mapError_eq_ok.mp listens, rfl⟩)
  · rename_i plain
    obtain ⟨code, sets, result⟩ := bind_eq_ok.mp result
    cases result
    exact .inr (.inr ⟨Bool.eq_false_iff.mpr plain, code, mapError_eq_ok.mp sets, rfl⟩)

theorem branch_candidate (result : branch root names overrides candidate last = .ok made) :
    made.candidate = candidate := by
  rcases branch_cases result with ⟨code, -, rfl⟩ | ⟨-, code, -, rfl⟩ | ⟨-, code, -, rfl⟩ <;> rfl

theorem not_exhaustive (result : branch root names overrides candidate false = .ok made) :
    made.exhaustive = false := by
  rcases branch_cases result with ⟨code, -, rfl⟩ | ⟨-, code, -, rfl⟩ | ⟨-, code, -, rfl⟩
  · rfl
  · simp
  · rfl

/-- The branches of some candidates, one to each, of which only the last may be exhaustive. -/
structure Covers (root : ResolvedType) (names : RuntimeNames) (overrides : OverrideTable)
    (candidates : List Candidate) (made : List Branch) : Prop where
  candidates : made.map (·.candidate) = candidates
  each : ∀ b ∈ made, ∃ last, branch root names overrides b.candidate last = .ok b
  passing : ∀ b ∈ made.dropLast, b.exhaustive = false

theorem covers_of_branches {candidates : List Candidate} {made : List Branch}
    (result : branches root names overrides candidates = .ok made) :
    Covers root names overrides candidates made := by
  induction candidates generalizing made with
  | nil =>
    cases result
    exact ⟨rfl, by simp, by simp⟩
  | cons candidate rest ih =>
    obtain ⟨first, single, result⟩ := bind_eq_ok.mp result
    obtain ⟨others, later, result⟩ := bind_eq_ok.mp result
    cases result
    have covers := ih later
    have same := branch_candidate single
    refine ⟨by simp [same, covers.candidates], ?_, ?_⟩
    · rintro b (_ | ⟨_, member⟩)
      · exact ⟨rest.isEmpty, same ▸ single⟩
      · exact covers.each b member
    · -- the first branch is made as the last one only if none follows it
      match others, covers with
      | [], _ => simp
      | second :: more, covers =>
        have notLast : rest.isEmpty = false := by
          simp [← covers.candidates]
        rw [notLast] at single
        rw [List.dropLast_cons_cons]
        rintro b (_ | ⟨_, member⟩)
        · exact not_exhaustive single
        · exact covers.passing b member

theorem Covers.ofBranches {candidates : List Candidate} {made : List Branch}
    (covers : Covers root names overrides candidates made) (name : String) :
    Case.ofBranches name made = .ok ⟨name, made⟩ := by
  have passing : made.dropLast.any (·.exhaustive) = false := by
    apply List.any_eq_false.mpr
    intro b member
    simp [covers.passing b member]
  simp [Case.ofBranches, passing]

theorem mem_branchOrder {candidates : List Candidate} :
    candidate ∈ branchOrder root candidates ↔ candidate ∈ candidates := by
  simp only [branchOrder, List.mem_append, List.mem_filter, decide_eq_true_eq]
  cases candidate.isListener <;> by_cases onRoot : candidate.declaring.name = root.name <;>
    simp [onRoot]

theorem branches_of_caseOf {group : Group} {case : Case}
    (result : caseOf root names overrides group = .ok case) : case.name = group.name ∧
      branches root names overrides (branchOrder root group.candidates) = .ok case.branches := by
  obtain ⟨made, covered, result⟩ := bind_eq_ok.mp result
  have result := mapError_eq_ok.mp result
  unfold Case.ofBranches at result
  split at result
  · cases result
  · cases result
    exact ⟨rfl, covered⟩

theorem covers_of_caseOf {group : Group} {case : Case}
    (result : caseOf root names overrides group = .ok case) : case.name = group.name ∧
      Covers root names overrides (branchOrder root group.candidates) case.branches := by
  obtain ⟨named, covered⟩ := branches_of_caseOf result
  exact ⟨named, covers_of_branches covered⟩

theorem caseOf_fault {group : Group} (failed : caseOf root names overrides group = .error fault) :
    FaultAt overrides group.candidates fault := by
  rcases bind_eq_error.mp failed with stopped | ⟨made, covered, misplaced⟩
  · exact (branches_fault stopped).mono fun c member => mem_branchOrder.mp member
  · -- all branches are there, and of these only the last can be exhaustive
    rw [(covers_of_branches covered).ofBranches] at misplaced
    cases misplaced

theorem exists_caseOf {group : Group} (replaces : Replaces overrides group.candidates)
    (root : ResolvedType) (names : RuntimeNames) :
    ∃ case, caseOf root names overrides group = .ok case := by
  cases made : caseOf root names overrides group with
  | ok case => exact ⟨case, rfl⟩
  | error fault => exact absurd (caseOf_fault made) replaces.not_faultAt

theorem replaces_of_branches {candidates : List Candidate} {made : List Branch}
    (result : branches root names overrides candidates = .ok made) :
    Replaces overrides candidates := by
  induction candidates generalizing made with
  | nil => exact nofun
  | cons candidate rest ih =>
    obtain ⟨first, single, result⟩ := bind_eq_ok.mp result
    obtain ⟨others, later, -⟩ := bind_eq_ok.mp result
    obtain ⟨replaced, found, -⟩ := bind_eq_ok.mp single
    rintro c (_ | ⟨_, member⟩)
    · exact ⟨replaced, mapError_eq_ok.mp found⟩
    · exact ih later c member

theorem replaces_of_caseOf {group : Group} {case : Case}
    (result : caseOf root names overrides group = .ok case) : Replaces overrides group.candidates :=
  fun c member => replaces_of_branches (branches_of_caseOf result).2 c (mem_branchOrder.mpr member)

namespace Builder

variable {builder : Builder} {groups : List Group} {table : Table} {case : Case} {stop : TableFault}

theorem mem_cases_ofSorted (result : builder.ofSorted groups = .ok table) : case ∈ table.cases ↔
    ∃ group ∈ groups, group.candidates ≠ [] ∧
      caseOf builder.root builder.names builder.overrides group = .ok case := by
  induction groups generalizing table with
  | nil =>
    cases result
    simp
  | cons group rest ih =>
    unfold ofSorted at result
    split at result
    · rename_i empty
      simp [ih result, List.isEmpty_iff.mp empty]
    · rename_i some
      obtain ⟨first, single, result⟩ := bind_eq_ok.mp result
      obtain ⟨⟨wrappers, warnings⟩, -, result⟩ := bind_eq_ok.mp result
      obtain ⟨others, later, result⟩ := bind_eq_ok.mp result
      cases result
      have nonempty : group.candidates ≠ [] := fun empty => some (by simp [empty])
      simp [ih later, nonempty, mapError_eq_ok.mp single, eq_comm]

theorem mem_cases (result : builder.build groups = .ok table) : case ∈ table.cases ↔
    ∃ group ∈ groups, group.candidates ≠ [] ∧
      caseOf builder.root builder.names builder.overrides group = .ok case := by
  rw [mem_cases_ofSorted result]
  simp only [List.mem_mergeSort]

theorem replaces_of_ofSorted (result : builder.ofSorted groups = .ok table) :
    ∀ group ∈ groups, Replaces builder.overrides group.candidates := by
  induction groups generalizing table with
  | nil => exact nofun
  | cons group rest ih =>
    unfold ofSorted at result
    split at result
    · rename_i empty
      rintro other (_ | ⟨_, member⟩)
      · rw [List.isEmpty_iff.mp empty]
        exact nofun
      · exact ih result other member
    · obtain ⟨case, single, result⟩ := bind_eq_ok.mp result
      obtain ⟨wrapped, -, result⟩ := bind_eq_ok.mp result
      obtain ⟨others, later, -⟩ := bind_eq_ok.mp result
      rintro other (_ | ⟨_, member⟩)
      · exact replaces_of_caseOf (mapError_eq_ok.mp single)
      · exact ih later other member

theorem replaces_of_build (result : builder.build groups = .ok table) {group : Group}
    (member : group ∈ groups) : Replaces builder.overrides group.candidates :=
  replaces_of_ofSorted result group (List.mem_mergeSort.mpr member)

structure Serves (builder : Builder) (group : Group) : Prop where
  replaces : Replaces builder.overrides group.candidates
  loaded : ∀ candidate ∈ group.candidates, builder.library.Loaded candidate.declaring

/-- What keeps a table from being built at a group: an override at fault, or a class that cannot be
asked about null because a cycle is above it. -/
inductive Blocks (builder : Builder) (group : Group) : TableFault → Prop where
  | override (c : Candidate) (member : c ∈ group.candidates) (cause : OverrideFault)
      (replaced : builder.overrides.replacement c = .error cause) :
      Blocks builder group (.branch (.override cause))
  | cycle (c : Candidate) (member : c ∈ group.candidates) (name : String)
      (resolved : builder.library.resolve c.declaring.name = .error (.cyclic name)) :
      Blocks builder group (.resolve (.cyclic name))

theorem wrapper_fault {group : Group} {valueType : String} {cause : ResolveError}
    (failed : builder.wrapper group valueType = .error cause) :
    builder.Blocks group (.resolve cause) := by
  unfold wrapper at failed
  dsimp only at failed
  split at failed
  · rename_i c _ found
    have member := List.mem_of_find?_eq_some found
    rcases bind_eq_error.mp failed with asked | ⟨answer, -, ended⟩
    · obtain ⟨name, resolved, rfl⟩ := NullabilityOracle.cycle_of_ofMethod asked
      exact .cycle c member name resolved
    · cases ended
  · cases failed

theorem wrappers_fault {group : Group} {cause : ResolveError}
    (failed : builder.wrappers group = .error cause) : builder.Blocks group (.resolve cause) := by
  unfold wrappers at failed
  split at failed
  · obtain ⟨valueType, -, stopped⟩ := exists_of_mapM_eq_error (map_eq_error.mp failed)
    exact wrapper_fault stopped
  · cases failed

theorem ofSorted_stop (failed : builder.ofSorted groups = .error stop) :
    ∃ group ∈ groups, builder.Blocks group stop := by
  induction groups with
  | nil => cases failed
  | cons group rest ih =>
    have later (stopped : builder.ofSorted rest = .error stop) :
        ∃ other ∈ group :: rest, builder.Blocks other stop := by
      obtain ⟨other, member, blocks⟩ := ih stopped
      exact ⟨other, List.mem_cons_of_mem group member, blocks⟩
    unfold ofSorted at failed
    split at failed
    · exact later failed
    rcases bind_eq_error.mp failed with single | ⟨case, -, failed⟩
    · obtain ⟨fault, stopped, same⟩ := mapError_eq_error.mp single
      obtain ⟨c, member, cause, replaced, rfl⟩ := caseOf_fault stopped
      exact ⟨group, by simp, same ▸ .override c member cause replaced⟩
    rcases bind_eq_error.mp failed with wrapped | ⟨made, -, failed⟩
    · obtain ⟨cause, stopped, same⟩ := mapError_eq_error.mp wrapped
      exact ⟨group, by simp, same ▸ wrappers_fault stopped⟩
    rcases bind_eq_error.mp failed with others | ⟨table, -, ended⟩
    · exact later others
    · cases ended

theorem build_stop (failed : builder.build groups = .error stop) :
    ∃ group ∈ groups, builder.Blocks group stop := by
  obtain ⟨group, member, blocks⟩ := ofSorted_stop failed
  exact ⟨group, List.mem_mergeSort.mp member, blocks⟩

theorem build_fault
    (loaded : ∀ group ∈ groups, ∀ c ∈ group.candidates, builder.library.Loaded c.declaring)
    (failed : builder.build groups = .error stop) :
    ∃ group ∈ groups, ∃ fault, FaultAt builder.overrides group.candidates fault ∧
      stop = .branch fault := by
  obtain ⟨group, member, blocks⟩ := build_stop failed
  cases blocks with
  | override c inside cause replaced =>
    exact ⟨group, member, .override cause, ⟨c, inside, cause, replaced, rfl⟩, rfl⟩
  | cycle c inside name resolved =>
    have known := Library.builds_iff_resolve.mp (loaded group member c inside).builds
    rw [known] at resolved
    cases resolved

theorem exists_build (serves : ∀ group ∈ groups, builder.Serves group) :
    ∃ table, builder.build groups = .ok table := by
  cases built : builder.build groups with
  | ok table => exact ⟨table, rfl⟩
  | error stop =>
    obtain ⟨group, member, fault, found, -⟩ :=
      build_fault (fun group member => (serves group member).loaded) built
    exact absurd found (serves group member).replaces.not_faultAt

end Builder

end Dispatch

namespace Group

variable {candidates : List Candidate} {group : Group} {c : Candidate}

theorem mem_candidates_of_mem_ofAll (member : group ∈ ofAll candidates) (inside : c ∈ group.candidates) :
    c ∈ candidates ∧ c.name = group.name := by
  rw [name_of_mem_ofAll member] at inside
  have kept := Candidate.mem_of_stays (List.mem_mergeSort.mp inside)
  simpa using kept

theorem exists_group (member : c ∈ candidates) :
    ∃ group ∈ ofAll candidates, group.name = c.name :=
  ⟨_, List.mem_map_of_mem (Descriptor.mem_sorted_eraseDups.mpr (List.mem_map_of_mem member)), rfl⟩

end Group

namespace Generator

open Dispatch

variable {generator : Generator} {scan : Scan} {analysis : Analysis} {case : Case} {c : Candidate}

theorem Finds.candidate_loaded (finds : generator.Finds scan analysis)
    (member : c ∈ analysis.candidates) : c.Loaded scan.library := by
  obtain ⟨cataloged, -, derived, admits, -⟩ := finds.candidate member
  obtain ⟨parameter, -, resolved⟩ := admits.resolves
  exact ⟨⟨parameter, resolved⟩, finds.class_loaded cataloged⟩

theorem Finds.named_loaded (finds : generator.Finds scan analysis) (name : String) :
    ∀ c ∈ analysis.candidates.filter (·.name = name), c.Loaded scan.library :=
  fun _ inside => finds.candidate_loaded (List.mem_of_mem_filter inside)

theorem Finds.candidate_of_group (finds : generator.Finds scan analysis) {group : Group}
    (inside : group ∈ analysis.groups) (member : c ∈ group.candidates) :
    c ∈ analysis.candidates ∧ c.name = group.name := by
  rw [finds.groups] at inside
  exact Group.mem_candidates_of_mem_ofAll inside member

theorem Finds.exists_group (finds : generator.Finds scan analysis)
    (member : c ∈ analysis.candidates) : ∃ group ∈ analysis.groups, group.name = c.name ∧
      ∀ stays ∈ (Candidate.eliminateOverrides (analysis.candidates.filter (·.name = c.name))).1,
        stays ∈ group.candidates := by
  obtain ⟨group, inside, named⟩ := Group.exists_group member
  refine ⟨group, finds.groups ▸ inside, named, fun stays survives => ?_⟩
  rw [Group.name_of_mem_ofAll inside, named]
  exact List.mem_mergeSort.mpr survives

/-- A candidate that none of its name shadows stays in its group, or another one of the same test. -/
theorem Finds.exists_stays (finds : generator.Finds scan analysis)
    (member : c ∈ analysis.candidates)
    (unshadowed : ∀ other ∈ analysis.candidates, other.name = c.name → other.shadows c = false) :
    ∃ group ∈ analysis.groups, group.name = c.name ∧ ∃ stays ∈ group.candidates,
      stays.valueType = c.valueType ∧ stays.declaring = c.declaring := by
  obtain ⟨group, inside, named, keeps⟩ := finds.exists_group member
  have among : c ∈ analysis.candidates.filter (·.name = c.name) := by simp [member]
  obtain ⟨stays, survives, same⟩ := Candidate.exists_stays (finds.named_loaded c.name) among
    fun other here => by
      obtain ⟨found, otherNamed⟩ := List.mem_filter.mp here
      exact unshadowed other found (of_decide_eq_true otherNamed)
  exact ⟨group, inside, named, stays, keeps stays survives, same⟩

theorem Finds.exists_stays_within (finds : generator.Finds scan analysis)
    (member : c ∈ analysis.candidates) :
    ∃ group ∈ analysis.groups, group.name = c.name ∧ ∃ stays ∈ group.candidates,
      stays.valueType = c.valueType ∧ stays.declaring.Within c.declaring := by
  obtain ⟨group, inside, named, keeps⟩ := finds.exists_group member
  have among : c ∈ analysis.candidates.filter (·.name = c.name) := by simp [member]
  obtain ⟨stays, survives, represents⟩ :=
    Candidate.exists_stays_within (finds.named_loaded c.name) among
  exact ⟨group, inside, named, stays, keeps stays survives, represents⟩

def Makes (generator : Generator) (scan : Scan) (case : Case) : Prop :=
  ∃ analysis table, generator.analyzeScan scan = .ok analysis ∧
    generator.table scan.library analysis = .ok table ∧ case ∈ table.cases

/-- A case and the analysis that it is made of. -/
structure Forms (generator : Generator) (scan : Scan) (analysis : Analysis) (case : Case) : Prop where
  finds : generator.Finds scan analysis
  covers : Covers analysis.root (.ofConfig generator.config) generator.overrides
    (branchOrder analysis.root (Group.ofCandidates case.name
      (analysis.candidates.filter (·.name = case.name))).candidates) case.branches

theorem forms_of_mem_cases {table : Table} (analyzed : generator.analyzeScan scan = .ok analysis)
    (tabled : generator.table scan.library analysis = .ok table) (member : case ∈ table.cases) :
    generator.Forms scan analysis case := by
  have finds := finds_of_analyzeScan analyzed
  obtain ⟨group, inside, -, made⟩ :=
    (Builder.mem_cases (mapError_eq_ok.mp tabled)).mp member
  obtain ⟨named, covers⟩ := covers_of_caseOf made
  rw [finds.groups] at inside
  rw [Group.name_of_mem_ofAll inside, ← named] at covers
  exact ⟨finds, covers⟩

theorem Makes.forms (makes : generator.Makes scan case) :
    ∃ analysis, generator.Forms scan analysis case := by
  obtain ⟨analysis, table, analyzed, tabled, member⟩ := makes
  exact ⟨analysis, forms_of_mem_cases analyzed tabled member⟩

theorem exists_table (analyzed : generator.analyzeScan scan = .ok analysis)
    (replaces : Replaces generator.overrides analysis.candidates) :
    ∃ table, generator.table scan.library analysis = .ok table := by
  have finds := finds_of_analyzeScan analyzed
  have serves : ∀ group ∈ analysis.groups,
      (generator.builder scan.library analysis.root).Serves group := fun group member =>
    ⟨fun c here => replaces c (finds.candidate_of_group member here).1,
      fun c here => (finds.candidate_loaded (finds.candidate_of_group member here).1).2⟩
  obtain ⟨table, built⟩ := Builder.exists_build serves
  exact ⟨table, mapError_eq_ok.mpr built⟩

namespace Forms

theorem candidate (forms : generator.Forms scan analysis case) {b : Branch}
    (member : b ∈ case.branches) :
    b.candidate ∈ analysis.candidates ∧ b.candidate.name = case.name := by
  have inside : b.candidate ∈ case.branches.map (·.candidate) := List.mem_map_of_mem member
  rw [forms.covers.candidates, mem_branchOrder] at inside
  simpa using Candidate.mem_of_stays (List.mem_mergeSort.mp inside)

theorem loaded (forms : generator.Forms scan analysis case) {b : Branch}
    (member : b ∈ case.branches) : b.candidate.Loaded scan.library :=
  forms.finds.candidate_loaded (forms.candidate member).1

theorem exists_branch (forms : generator.Forms scan analysis case) {c : Candidate}
    (member : c ∈ analysis.candidates) (named : c.name = case.name)
    (unshadowed : ∀ other ∈ analysis.candidates, other.name = case.name → other.shadows c = false) :
    ∃ b ∈ case.branches,
      b.candidate.valueType = c.valueType ∧ b.candidate.declaring = c.declaring := by
  obtain ⟨group, inside, groupNamed, stays, kept, same⟩ :=
    forms.finds.exists_stays member fun other found otherNamed =>
      unshadowed other found (otherNamed.trans named)
  rw [forms.finds.groups] at inside
  rw [Group.name_of_mem_ofAll inside, groupNamed, named] at kept
  have survives : stays ∈ case.branches.map (·.candidate) := by
    rw [forms.covers.candidates, mem_branchOrder]
    exact kept
  obtain ⟨b, branch, rfl⟩ := List.mem_map.mp survives
  exact ⟨b, branch, same⟩

end Forms

theorem exists_case (analyzed : generator.analyzeScan scan = .ok analysis)
    (replaces : Replaces generator.overrides analysis.candidates) (member : c ∈ analysis.candidates) :
    ∃ case, generator.Makes scan case ∧ generator.Forms scan analysis case ∧ case.name = c.name := by
  obtain ⟨table, tabled⟩ := exists_table analyzed replaces
  have finds := finds_of_analyzeScan analyzed
  obtain ⟨group, inside, named, stays, kept, -⟩ := finds.exists_stays_within member
  have groupReplaces : Replaces generator.overrides group.candidates := fun other here =>
    replaces other (finds.candidate_of_group inside here).1
  obtain ⟨case, made⟩ := exists_caseOf groupReplaces analysis.root (.ofConfig generator.config)
  have listed : case ∈ table.cases :=
    (Builder.mem_cases (mapError_eq_ok.mp tabled)).mpr
      ⟨group, inside, List.ne_nil_of_mem kept, made⟩
  exact ⟨case, ⟨analysis, table, analyzed, tabled, listed⟩,
    forms_of_mem_cases analyzed tabled listed, (covers_of_caseOf made).1.trans named⟩

end Generator

namespace Gallery

open Dispatch

variable {analysis : Analysis} {case : Case}

structure Purpose where
  name : String
  value : String
  declaring : String
  listener : Bool
  deriving DecidableEq, Repr

def purposeOf (c : Candidate) : Purpose :=
  ⟨c.name, c.valueType.name, c.declaring.name, c.isListener⟩

def purposes : List Purpose :=
  [⟨"label", "java.lang.String", widgetDecl.name, false⟩,
    ⟨"visible", "boolean", widgetDecl.name, false⟩,
    ⟨"hint", "java.lang.CharSequence", widgetDecl.name, false⟩,
    ⟨"hint", Java.objectName, widgetDecl.name, false⟩,
    ⟨"hint", "java.lang.String", widgetDecl.name, false⟩,
    ⟨"size", "int", widgetDecl.name, false⟩,
    ⟨"size", "java.lang.Integer", widgetDecl.name, false⟩,
    ⟨"onTouch", Java.objectName, widgetDecl.name, false⟩,
    ⟨"onTouch", "java.lang.Runnable", widgetDecl.name, false⟩,
    ⟨"onTouch", touchListenerDecl.name, widgetDecl.name, true⟩,
    ⟨"label", "java.lang.CharSequence", buttonDecl.name, false⟩,
    ⟨"onTouch", "java.lang.Comparable", buttonDecl.name, false⟩]

theorem purposes_eq : candidates.map purposeOf = purposes := by
  decide +kernel

structure IsFor (b : Branch) (purpose : Purpose) : Prop where
  valueType : b.candidate.valueType = scan.library.typeOf purpose.value
  declaring : b.candidate.declaring = scan.library.typeOf purpose.declaring
  isListener : b.candidate.isListener = purpose.listener

theorem exists_candidate {purpose : Purpose} (listed : purpose ∈ purposes) :
    ∃ c ∈ candidates, purposeOf c = purpose :=
  List.mem_map.mp (purposes_eq ▸ listed)

theorem exists_case {purpose : Purpose} (listed : purpose ∈ purposes) :
    ∃ analysis case, generator.analyzeScan scan = .ok analysis ∧ generator.Makes scan case ∧
      generator.Forms scan analysis case ∧ case.name = purpose.name := by
  obtain ⟨c, member, rfl⟩ := exists_candidate listed
  obtain ⟨analysis, analyzed⟩ := spans.exists_analysis
  obtain ⟨case, makes, forms, named⟩ := Generator.exists_case analyzed (replaces_empty _)
    ((mem_candidates analyzed).mpr member)
  exact ⟨analysis, case, analyzed, makes, forms, named⟩

theorem not_replaced (forms : generator.Forms scan analysis case) {b : Branch}
    (member : b ∈ case.branches) : b.replaced = false := by
  obtain ⟨last, result⟩ := forms.covers.each b member
  rcases branch_cases result with ⟨code, found, -⟩ | ⟨-, code, -, same⟩ | ⟨-, code, -, same⟩
  · cases found
  · rw [same]
  · rw [same]

theorem exists_branch (analyzed : generator.analyzeScan scan = .ok analysis)
    (forms : generator.Forms scan analysis case) {purpose : Purpose} (listed : purpose ∈ purposes)
    (named : purpose.name = case.name) : ∃ b ∈ case.branches, IsFor b purpose := by
  have unshadowed : ∀ c ∈ candidates, ∀ other ∈ candidates, other.name = c.name →
      other.shadows c = false := by
    decide +kernel
  have flags : ∀ first ∈ purposes, ∀ second ∈ purposes, first.name = second.name →
      first.value = second.value → first.declaring = second.declaring →
      first.listener = second.listener := by
    decide +kernel
  have known : ∀ purpose ∈ purposes, scan.library.isNear purpose.value = true ∧
      scan.library.isNear purpose.declaring = true := by
    decide +kernel
  obtain ⟨values, classes⟩ := known purpose listed
  obtain ⟨c, member, rfl⟩ := exists_candidate listed
  have inside := (mem_candidates analyzed).mpr member
  have loaded := forms.finds.candidate_loaded inside
  obtain ⟨b, branch, sameValues, sameClasses⟩ := forms.exists_branch inside named
    fun other found same => unshadowed c member other ((mem_candidates analyzed).mp found)
      (same.trans named.symm)
  obtain ⟨found, foundNamed⟩ := forms.candidate branch
  have other : purposeOf b.candidate ∈ purposes := by
    rw [← purposes_eq]
    exact List.mem_map_of_mem ((mem_candidates analyzed).mp found)
  refine ⟨b, branch, ?_, ?_, ?_⟩
  · exact sameValues.trans
      (loaded.1.eq_of_name_eq (Library.typeOf_loaded values) (Library.typeOf_name values).symm)
  · exact sameClasses.trans
      (loaded.2.eq_of_name_eq (Library.typeOf_loaded classes) (Library.typeOf_name classes).symm)
  · exact flags (purposeOf b.candidate) other (purposeOf c) listed (foundNamed.trans named.symm)
      (congrArg ResolvedType.name sameValues) (congrArg ResolvedType.name sameClasses)

end Gallery

end WidgetDsl
