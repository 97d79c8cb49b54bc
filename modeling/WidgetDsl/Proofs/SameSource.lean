import WidgetDsl.Proofs.Completion
import WidgetDsl.Proofs.Signatures
import WidgetDsl.Proofs.Views

/-!
Two analyses with classes and candidates that look alike in a view are written to the same source, if
their overrides, the methods to implement and what is known about null are the same for candidates
that look alike.
-/

namespace WidgetDsl

section Alike

variable {α β γ δ ε : Type}

/-- What is the same for items that look alike is the same along lists that look alike. -/
theorem map_eq_of_alike {as : List α} {bs : List β} {look : α → γ} {look' : β → γ} {f : α → δ}
    {g : β → δ} (alike : as.map look = bs.map look')
    (each : ∀ a ∈ as, ∀ b ∈ bs, look a = look' b → f a = g b) : as.map f = bs.map g := by
  induction as generalizing bs with
  | nil =>
    obtain rfl := List.map_eq_nil_iff.mp alike.symm
    rfl
  | cons a rest ih =>
    cases bs with
    | nil => simp at alike
    | cons b others =>
      obtain ⟨first, later⟩ := List.cons.inj alike
      have laterSame := ih later fun c inside d insideToo =>
        each c (List.mem_cons_of_mem a inside) d (List.mem_cons_of_mem b insideToo)
      rw [List.map_cons, List.map_cons, each a (by simp) b (by simp) first, laterSame]

theorem bind_eq_of_alike {α' β' : Type} {first : Except ε α} {second : Except ε α'}
    {next : α → Except ε β} {next' : α' → Except ε β'} {look : α → γ} {look' : α' → γ} {f : β → δ}
    {g : β' → δ} (alike : first.map look = second.map look')
    (each : ∀ a b, first = .ok a → second = .ok b → look a = look' b →
      (next a).map f = (next' b).map g) :
    (first >>= next).map f = (second >>= next').map g := by
  cases first with
  | error fault =>
    cases second with
    | error other =>
      cases alike
      rfl
    | ok b => cases alike
  | ok a =>
    cases second with
    | error other => cases alike
    | ok b => exact each a b rfl rfl (Except.ok.inj alike)

theorem mapError_map {ε' : Type} {result : Except ε α} {f : α → β} {g : ε → ε'} :
    (result.map f).mapError g = (result.mapError g).map f := by
  cases result <;> rfl

end Alike

namespace Candidate

def through (view : View) (c : Candidate) : Candidate :=
  { c with valueType := c.valueType.through view, declaring := c.declaring.through view }

variable (view : View)

@[simp] theorem through_name (c : Candidate) : (c.through view).name = c.name := rfl

@[simp] theorem through_valueType (c : Candidate) :
    (c.through view).valueType = c.valueType.through view := rfl

@[simp] theorem through_declaring (c : Candidate) :
    (c.through view).declaring = c.declaring.through view := rfl

@[simp] theorem through_method (c : Candidate) : (c.through view).method = c.method := rfl

@[simp] theorem through_isListener (c : Candidate) :
    (c.through view).isListener = c.isListener := rfl

@[simp] theorem through_isNullable (c : Candidate) :
    (c.through view).isNullable = c.isNullable := rfl

theorem through_whole (c : Candidate) : c.through .whole = c := by
  simp [through, ResolvedType.through_whole]

@[simp] theorem shadows_through (a b : Candidate) :
    (a.through view).shadows (b.through view) = a.shadows b := by
  simp [shadows, ResolvedType.isSubtypeOf_through]

@[simp] theorem sameTest_through (a b : Candidate) :
    (a.through view).sameTest (b.through view) = a.sameTest b := by
  simp [sameTest]

@[simp] theorem specificity_through (c : Candidate) :
    (c.through view).specificity = c.specificity := by
  simp [specificity]

theorem splitOverridden_through (all kept rest : List Candidate) :
    splitOverridden (all.map (through view)) (kept.map (through view)) (rest.map (through view)) =
      ((splitOverridden all kept rest).1.map (through view),
        (splitOverridden all kept rest).2.map (through view)) := by
  induction rest generalizing kept with
  | nil => rfl
  | cons c rest ih =>
    have later := ih kept
    have laterKept := ih (kept ++ [c])
    rw [List.map_append] at laterKept
    have test : ((all.map (through view)).any (·.shadows (c.through view)) ||
        (kept.map (through view)).any (·.sameTest (c.through view))) =
        (all.any (·.shadows c) || kept.any (·.sameTest c)) := by
      simp [List.any_map, Function.comp_def]
    rw [List.map_cons, splitOverridden, splitOverridden, test]
    split
    · rw [later]
      rfl
    · rw [show [c.through view] = [c].map (through view) from rfl, laterKept]
      rfl

theorem inOrder_through (candidates : List Candidate) :
    (inOrder candidates).map (through view) = inOrder (candidates.map (through view)) := by
  apply List.map_mergeSort
  intro a _ b _
  rw [specificity_through, specificity_through]

end Candidate

namespace Group

def through (view : View) (group : Group) : Group :=
  ⟨group.name, group.candidates.map (·.through view), group.eliminated.map (·.through view)⟩

variable (view : View)

@[simp] theorem through_name (group : Group) : (group.through view).name = group.name := rfl

@[simp] theorem through_candidates (group : Group) :
    (group.through view).candidates = group.candidates.map (·.through view) := rfl

theorem ofCandidates_through (name : String) (candidates : List Candidate) :
    (ofCandidates name candidates).through view =
      ofCandidates name (candidates.map (·.through view)) := by
  have split := Candidate.splitOverridden_through view candidates [] candidates
  rw [List.map_nil] at split
  simp only [ofCandidates, Candidate.eliminateOverrides, split, ← Candidate.inOrder_through, through]

theorem ofAll_through (candidates : List Candidate) :
    (ofAll candidates).map (through view) = ofAll (candidates.map (·.through view)) := by
  have names : (candidates.map (·.through view)).map (·.name) = candidates.map (·.name) := by
    simp [Function.comp_def]
  rw [ofAll, ofAll, names, List.map_map]
  apply List.map_congr_left
  intro name _
  have own : (candidates.map (·.through view)).filter (·.name = name) =
      (candidates.filter (·.name = name)).map (·.through view) := by
    rw [List.filter_map]
    rfl
  rw [own, ← ofCandidates_through]
  rfl

end Group

namespace Candidate

variable {view : View} {c d : Candidate}

section Fields

variable (alike : c.through view = d.through view)

include alike

theorem method_eq : c.method = d.method := by
  simpa using congrArg method alike

theorem isListener_eq : c.isListener = d.isListener := by
  simpa using congrArg isListener alike

theorem isNullable_eq : c.isNullable = d.isNullable := by
  simpa using congrArg isNullable alike

theorem valueType_eq : c.valueType.through view = d.valueType.through view :=
  congrArg valueType alike

theorem declaring_eq : c.declaring.through view = d.declaring.through view :=
  congrArg declaring alike

theorem valueName_eq : c.valueType.name = d.valueType.name := by
  simpa using congrArg ResolvedType.name (valueType_eq alike)

theorem declaringName_eq : c.declaring.name = d.declaring.name := by
  simpa using congrArg ResolvedType.name (declaring_eq alike)

end Fields

end Candidate

namespace Dispatch

open Java (CodeBlock)

variable {view : View} {root other : ResolvedType} {names : RuntimeNames}
  {overrides : OverrideTable} {c d : Candidate} {cs ds : List Candidate}

def Branch.text (b : Branch) : CodeBlock × Bool :=
  (b.code, b.exhaustive)

theorem forwardingMethods_eq (type : ResolvedType) (listener : Java.TypeName)
    (names : RuntimeNames) :
    type.abstractMethods.map (fun member => forwardingMethod listener names member.method) =
      type.required.map (forwardingMethod listener names) := by
  simp [ResolvedType.required, Function.comp_def]

theorem implementation_eq {a b : ResolvedType} (named : a.name = b.name)
    (required : a.required = b.required) : implementation a names = implementation b names := by
  simp only [implementation, forwardingMethods_eq, named, required]

theorem setterBranch_eq (alike : c.through view = d.through view) (named : root.name = other.name) :
    setterBranch c root = setterBranch d other := by
  simp only [setterBranch, valueTest, Candidate.method_eq alike, Candidate.isNullable_eq alike,
    Candidate.valueName_eq alike, Candidate.declaringName_eq alike, named]

theorem listenerBranch_eq (alike : c.through view = d.through view) (named : root.name = other.name)
    (required : c.valueType.required = d.valueType.required) (exhaustive : Bool) :
    listenerBranch c root names exhaustive = listenerBranch d other names exhaustive := by
  have body : implementation c.valueType names = implementation d.valueType names :=
    implementation_eq (Candidate.valueName_eq alike) required
  simp only [listenerBranch, listenerGuard, receiver, body, Candidate.method_eq alike,
    Candidate.valueName_eq alike, Candidate.declaringName_eq alike, named]
  rfl

theorem branch_eq (alike : c.through view = d.through view) (named : root.name = other.name)
    (replaced : overrides.replacement c = overrides.replacement d)
    (required : c.valueType.required = d.valueType.required) (last : Bool) :
    (branch root names overrides c last).map Branch.text =
      (branch other names overrides d last).map Branch.text := by
  have onRoot : (last && decide (c.declaring.name = root.name)) =
      (last && decide (d.declaring.name = other.name)) := by
    rw [Candidate.declaringName_eq alike, named]
  simp only [branch, replaced, onRoot, Candidate.isListener_eq alike, setterBranch_eq alike named,
    listenerBranch_eq alike named required]
  -- what is left are the same results, put into branches of two candidates
  cases overrides.replacement d with
  | error fault => rfl
  | ok replacement =>
    cases replacement with
    | some code => rfl
    | none =>
      cases d.isListener with
      | true => cases listenerBranch d other names _ <;> rfl
      | false => cases setterBranch d other <;> rfl

theorem branches_eq (alike : cs.map (·.through view) = ds.map (·.through view))
    (each : ∀ c ∈ cs, ∀ d ∈ ds, c.through view = d.through view → ∀ last,
      (branch root names overrides c last).map Branch.text =
        (branch other names overrides d last).map Branch.text) :
    (branches root names overrides cs).map (List.map Branch.text) =
      (branches other names overrides ds).map (List.map Branch.text) := by
  induction cs generalizing ds with
  | nil =>
    obtain rfl := List.map_eq_nil_iff.mp alike.symm
    rfl
  | cons c rest ih =>
    cases ds with
    | nil => simp at alike
    | cons d others =>
      obtain ⟨first, later⟩ := List.cons.inj alike
      have last : rest.isEmpty = others.isEmpty := by
        have same := congrArg List.isEmpty later
        simpa using same
      have firstSame := each c (by simp) d (by simp) first rest.isEmpty
      have laterSame := ih later fun c inside d insideToo =>
        each c (List.mem_cons_of_mem _ inside) d (List.mem_cons_of_mem _ insideToo)
      rw [branches, branches, ← last]
      apply bind_eq_of_alike firstSame
      intro b b' _ _ same
      apply bind_eq_of_alike laterSame
      intro bs bs' _ _ sameLater
      exact congrArg Except.ok (List.cons_eq_cons.mpr ⟨same, sameLater⟩)

theorem branchOrder_through (candidates : List Candidate) :
    (branchOrder root candidates).map (·.through view) =
      branchOrder root (candidates.map (·.through view)) := by
  simp [branchOrder, List.filter_map, Function.comp_def]

theorem branchOrder_alike (alike : cs.map (·.through view) = ds.map (·.through view))
    (named : root.name = other.name) : (branchOrder root cs).map (·.through view) =
      (branchOrder other ds).map (·.through view) := by
  rw [branchOrder_through, branchOrder_through, alike]
  simp only [branchOrder, named]

theorem caseCalls_eq {first second : Case} (named : first.name = second.name)
    (branches : first.branches.map Branch.text = second.branches.map Branch.text) :
    CompilationUnit.caseCalls first = CompilationUnit.caseCalls second := by
  have codes (case : Case) : (case.branches.map fun b => Java.Call.block b.code) =
      (case.branches.map Branch.text).map fun text => .block text.1 := by
    simp [Branch.text, Function.comp_def]
  have last (case : Case) : case.exhaustive =
      (case.branches.map Branch.text).getLast?.elim false (·.2) := by
    rw [Case.exhaustive, List.getLast?_map]
    cases case.branches.getLast? <;> rfl
  simp only [CompilationUnit.caseCalls, codes, last, named, branches]

def Table.text (table : Table) : List (List Java.Call) × List Wrapper × List Warning :=
  (table.cases.map CompilationUnit.caseCalls, table.wrappers, table.warnings)

/-- What two builders are to come to for two candidates. -/
structure Builder.Treats (builder other : Builder) (c d : Candidate) : Prop where
  replaced : builder.overrides.replacement c = other.overrides.replacement d
  required : c.valueType.required = d.valueType.required
  nullability :
    builder.oracle.ofMethod builder.library c.declaring.name c.method.name c.valueType.name =
      other.oracle.ofMethod other.library d.declaring.name d.method.name d.valueType.name

structure Builder.Alike (builder other : Builder) (view : View) (cs ds : List Candidate) : Prop where
  root : builder.root.name = other.root.name
  names : builder.names = other.names
  overrides : builder.overrides = other.overrides
  treats : ∀ c ∈ cs, ∀ d ∈ ds, c.through view = d.through view → builder.Treats other c d

theorem caseOf_eq {builder second : Builder} {group group' : Group}
    (alike : group.through view = group'.through view)
    (both : builder.Alike second view group.candidates group'.candidates) :
    (caseOf builder.root builder.names builder.overrides group).map CompilationUnit.caseCalls =
      (caseOf second.root second.names second.overrides group').map CompilationUnit.caseCalls := by
  have named : group.name = group'.name := by simpa using congrArg Group.name alike
  have inside := congrArg Group.candidates alike
  have ordered := branchOrder_alike inside both.root
  have made : (branches builder.root builder.names builder.overrides
      (branchOrder builder.root group.candidates)).map (List.map Branch.text) =
      (branches second.root second.names second.overrides
        (branchOrder second.root group'.candidates)).map (List.map Branch.text) := by
    rw [← both.names, ← both.overrides]
    apply branches_eq ordered
    intro c inside d insideToo same last
    have treats := both.treats c (mem_branchOrder.mp inside) d (mem_branchOrder.mp insideToo) same
    exact branch_eq same both.root (both.overrides ▸ treats.replaced) treats.required last
  apply bind_eq_of_alike made
  intro bs bs' _ _ texts
  have early : bs.dropLast.any (·.exhaustive) = bs'.dropLast.any (·.exhaustive) := by
    have flags (bs : List Branch) :
        bs.dropLast.any (·.exhaustive) = (bs.map Branch.text).dropLast.any (·.2) := by
      rw [← List.map_dropLast, List.any_map]
      rfl
    rw [flags, flags, texts]
  unfold Case.ofBranches
  rw [early, named]
  split
  · rfl
  · exact congrArg Except.ok (caseCalls_eq rfl texts)

namespace Builder

variable {builder second : Builder} {group group' : Group} {groups groups' : List Group}

theorem wrapper_eq (alike : group.through view = group'.through view)
    (both : builder.Alike second view group.candidates group'.candidates) (valueType : String) :
    builder.wrapper group valueType = second.wrapper group' valueType := by
  have named : group.name = group'.name := by simpa using congrArg Group.name alike
  have found : (group.candidates.find? (·.valueType.name = valueType)).map (·.through view) =
      (group'.candidates.find? (·.valueType.name = valueType)).map (·.through view) := by
    have inside := congrArg (List.find? (·.valueType.name = valueType))
      (congrArg Group.candidates alike)
    simpa [List.find?_map, Function.comp_def] using inside
  unfold wrapper
  -- else the name would be read character by character to decide a match on it
  generalize Java.TypeName.ofBinary valueType = type
  match first : group.candidates.find? (·.valueType.name = valueType),
    other : group'.candidates.find? (·.valueType.name = valueType) with
  | none, none =>
    simp only [named, first, other]
    cases type.isPrimitive <;> rfl
  | none, some d => simp [first, other] at found
  | some c, none => simp [first, other] at found
  | some c, some d =>
    rw [first, other] at found
    have treats := both.treats c (List.mem_of_find?_eq_some first) d
      (List.mem_of_find?_eq_some other) (Option.some.inj found)
    have value : c.valueType.name = valueType := by simpa using List.find?_some first
    have valueToo : d.valueType.name = valueType := by simpa using List.find?_some other
    have nullability := treats.nullability
    rw [value, valueToo] at nullability
    simp only [named, first, other]
    cases type.isPrimitive with
    | true => rfl
    | false => simp only [nullability]

theorem wrappers_eq (alike : group.through view = group'.through view)
    (both : builder.Alike second view group.candidates group'.candidates) :
    builder.wrappers group = second.wrappers group' := by
  have named : group.name = group'.name := by simpa using congrArg Group.name alike
  have inside : group.candidates.map (·.through view) = group'.candidates.map (·.through view) :=
    congrArg Group.candidates alike
  have values : group.valueTypes = group'.valueTypes := by
    have names := congrArg (List.map (·.valueType.name)) inside
    simp only [List.map_map, Function.comp_def, Candidate.through_valueType,
      ResolvedType.through_name] at names
    rw [Group.valueTypes, Group.valueTypes, names]
  have first : group.candidates.head?.map (·.declaring.canonicalName) =
      group'.candidates.head?.map (·.declaring.canonicalName) := by
    have names := congrArg (fun cs => cs.head?.map (·.declaring.canonicalName)) inside
    simpa [Function.comp_def] using names
  have made : builder.wrapper group = second.wrapper group' := funext (wrapper_eq alike both)
  simp only [wrappers, named, values, first, made]

theorem ofSorted_eq (alike : groups.map (·.through view) = groups'.map (·.through view))
    (both : ∀ group ∈ groups, ∀ group' ∈ groups',
      builder.Alike second view group.candidates group'.candidates) :
    (builder.ofSorted groups).map Table.text = (second.ofSorted groups').map Table.text := by
  induction groups generalizing groups' with
  | nil =>
    obtain rfl := List.map_eq_nil_iff.mp alike.symm
    rfl
  | cons group rest ih =>
    cases groups' with
    | nil => simp at alike
    | cons group' others =>
      obtain ⟨first, later⟩ := List.cons.inj alike
      have here := both group (by simp) group' (by simp)
      have laterSame := ih later fun group inside group' insideToo =>
        both group (List.mem_cons_of_mem _ inside) group' (List.mem_cons_of_mem _ insideToo)
      have empty : group.candidates.isEmpty = group'.candidates.isEmpty := by
        have same := congrArg List.isEmpty (congrArg Group.candidates first)
        simpa using same
      have cased : ((caseOf builder.root builder.names builder.overrides group).mapError
          TableFault.branch).map CompilationUnit.caseCalls =
          ((caseOf second.root second.names second.overrides group').mapError
            TableFault.branch).map CompilationUnit.caseCalls := by
        have same := congrArg (Except.mapError TableFault.branch) (caseOf_eq first here)
        rwa [mapError_map, mapError_map] at same
      rw [ofSorted, ofSorted, empty, wrappers_eq first here]
      split
      · exact laterSame
      apply bind_eq_of_alike cased
      intro case case' _ _ sameCase
      have wrapped : ((second.wrappers group').mapError TableFault.resolve).map id =
          ((second.wrappers group').mapError TableFault.resolve).map id := rfl
      apply bind_eq_of_alike wrapped
      intro made made' _ _ sameMade
      obtain rfl : made = made' := sameMade
      apply bind_eq_of_alike laterSame
      intro table table' _ _ sameTable
      obtain ⟨cases, wrappers, warnings⟩ : _ ∧ _ ∧ _ := by simpa [Table.text] using sameTable
      simp [Table.text, pure, Except.pure, Except.map, sameCase, cases, wrappers, warnings]

theorem build_eq (alike : groups.map (·.through view) = groups'.map (·.through view))
    (both : ∀ group ∈ groups, ∀ group' ∈ groups',
      builder.Alike second view group.candidates group'.candidates) :
    (builder.build groups).map Table.text = (second.build groups').map Table.text := by
  have sort (groups : List Group) : (groups.mergeSort fun a b => decide (a.name ≤ b.name)).map
      (·.through view) =
      (groups.map (·.through view)).mergeSort fun a b => decide (a.name ≤ b.name) :=
    List.map_mergeSort fun _ _ _ _ => rfl
  apply ofSorted_eq
  · rw [sort, sort, alike]
  · intro group inside group' insideToo
    exact both group (List.mem_mergeSort.mp inside) group' (List.mem_mergeSort.mp insideToo)

end Builder

end Dispatch

namespace Factory

theorem ofClassesTaken_through (view : View) (overrides : OverrideTable) (taken : Entries String)
    (types : List ResolvedType) :
    ofClassesTaken overrides taken (types.map (·.through view)) =
      ofClassesTaken overrides taken types := by
  induction types generalizing taken with
  | nil => rfl
  | cons type rest ih =>
    have named : nameFor? (type.through view) overrides = nameFor? type overrides := by
      simp [nameFor?]
    simp only [List.map_cons, ofClassesTaken, named, ih, ResolvedType.canonicalName_through,
      ResolvedType.through_name]

theorem ofClasses_eq {view : View} {types others : List ResolvedType}
    (alike : types.map (·.through view) = others.map (·.through view))
    (overrides : OverrideTable) : ofClasses types overrides = ofClasses others overrides := by
  rw [ofClasses, ofClasses, ← ofClassesTaken_through view, alike, ofClassesTaken_through]

end Factory

namespace CompilationUnit

theorem render_eq {config : Config} {table other : Dispatch.Table} {factories : List Factory}
    (cases : table.cases.map caseCalls = other.cases.map caseCalls)
    (wrappers : table.wrappers = other.wrappers) :
    (ofTable config table factories).render = (ofTable config other factories).render := by
  have calls : (ofTable config table factories).bodyCalls =
      (ofTable config other factories).bodyCalls := by
    simp only [bodyCalls, setMethod, header, ofTable, List.flatMap_def, cases, wrappers]
  simp only [render, body, calls]
  rfl

end CompilationUnit

namespace Generator

open Dispatch

variable {generator : Generator} {scan other : Scan} {first second : Analysis} {view : View}

/-- What two analyses are to have in common for the same source. -/
structure Alike (generator : Generator) (scan other : Scan) (view : View)
    (first second : Analysis) : Prop where
  root : first.root.name = second.root.name
  classes : first.classes.map (·.through view) = second.classes.map (·.through view)
  candidates : first.candidates.map (·.through view) = second.candidates.map (·.through view)
  treats : ∀ c ∈ first.candidates, ∀ d ∈ second.candidates, c.through view = d.through view →
    (generator.builder scan.library first.root).Treats (generator.builder other.library second.root)
      c d

theorem table_alike (analyzed : generator.analyzeScan scan = .ok first)
    (analyzedToo : generator.analyzeScan other = .ok second)
    (alike : generator.Alike scan other view first second) :
    (generator.table scan.library first).map Table.text =
      (generator.table other.library second).map Table.text := by
  have finds := finds_of_analyzeScan analyzed
  have findsToo := finds_of_analyzeScan analyzedToo
  have groups : first.groups.map (·.through view) = second.groups.map (·.through view) := by
    rw [finds.groups, findsToo.groups, Group.ofAll_through, Group.ofAll_through, alike.candidates]
  have built : ((generator.builder scan.library first.root).build first.groups).map Table.text =
      ((generator.builder other.library second.root).build second.groups).map Table.text := by
    apply Builder.build_eq groups
    intro group inside group' insideToo
    exact {
      root := alike.root
      names := rfl
      overrides := rfl
      treats := fun c member d memberToo =>
        alike.treats c (finds.candidate_of_group inside member).1 d
          (findsToo.candidate_of_group insideToo memberToo).1 }
  have same := congrArg (Except.mapError Failure.ofTable) built
  rwa [mapError_map, mapError_map] at same

/-- A run whose analysis looks like that of a run that succeeds succeeds as well, with the same source
and the same warnings after those of the analysis. -/
theorem draftScan_alike {draft : Draft} (analyzed : generator.analyzeScan scan = .ok first)
    (analyzedToo : generator.analyzeScan other = .ok second)
    (alike : generator.Alike scan other view first second)
    (ran : generator.draftScan scan = .ok draft) :
    ∃ again later, generator.draftScan other = .ok again ∧ again.source = draft.source ∧
      draft.analysis.warnings = first.warnings ++ later ∧
      again.analysis.warnings = second.warnings ++ later := by
  obtain ⟨_, analyzedAgain, rest⟩ := bind_eq_ok.mp ran
  obtain rfl := Except.ok.inj (analyzed.symm.trans analyzedAgain)
  obtain ⟨table, tabled, -⟩ := bind_eq_ok.mp rest
  have same := table_alike analyzed analyzedToo alike
  rw [tabled] at same
  obtain ⟨tableToo, tabledToo, text⟩ := map_eq_ok.mp same.symm
  obtain ⟨cases, wrappers, warnings⟩ : _ ∧ _ ∧ _ := by simpa [Table.text] using text
  obtain ⟨draftAgain, ranAgain, warned, rendered⟩ := draftScan_of_table analyzed tabled
  obtain rfl := Except.ok.inj (ran.symm.trans ranAgain)
  obtain ⟨again, ranToo, warnedToo, renderedToo⟩ := draftScan_of_table analyzedToo tabledToo
  have factories := Factory.ofClasses_eq alike.classes generator.overrides
  rw [← factories, CompilationUnit.render_eq cases wrappers, rendered] at renderedToo
  rw [← factories, warnings] at warnedToo
  exact ⟨again, _, ranToo, (Except.ok.inj renderedToo).symm, warned, warnedToo⟩

end Generator

end WidgetDsl
