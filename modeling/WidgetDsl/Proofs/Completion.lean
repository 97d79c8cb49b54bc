import WidgetDsl.Proofs.Dispatching

/-!
Runs that have their catalog come to their end. Of all that is done after it only a function among the
overrides can fail, by giving something that is no code.
-/

namespace WidgetDsl

namespace Given

/-- Whether a function's result can be taken as code. Null asks for the branch that would be made
anyway. -/
def isCode : Given → Bool
  | .plain .null | .plain (.text _) | .code _ => true
  | _ => false

end Given

namespace OverrideTable

variable {table : OverrideTable} {c : Candidate} {fault : OverrideFault}

theorem resultCode_eq_error_iff {given : Given} : resultCode c given = .error fault ↔
    given.isCode = false ∧
      fault = .badResult c.declaring.canonicalName c.method.name given.kindName := by
  unfold resultCode Given.isCode
  split <;> simp [eq_comm]

theorem replacement_eq_error_iff : table.replacement c = .error fault ↔
    ∃ result, table.lookup c = some (.computed result) ∧ (result c).isCode = false ∧
      fault = .badResult c.declaring.canonicalName c.method.name (result c).kindName := by
  unfold replacement
  split <;> rename_i found <;> simp [found, resultCode_eq_error_iff]

end OverrideTable

theorem Dispatch.replaces_of_isCode {table : OverrideTable} (candidates : List Candidate)
    (code : ∀ result, .computed result ∈ table.overrides → ∀ c, (result c).isCode = true) :
    Replaces table candidates := by
  intro c _
  cases replaced : table.replacement c with
  | ok code => exact ⟨code, rfl⟩
  | error fault =>
    obtain ⟨result, found, noCode, -⟩ := OverrideTable.replacement_eq_error_iff.mp replaced
    rw [code result (OverrideTable.mem_overrides_of_lookup found) c] at noCode
    cases noCode

namespace CompilationUnit

open Java (rise rise_append Call CodeBlock)

theorem rise_flatMap {α : Type} {as : List α} {f : α → List Call}
    (balanced : ∀ a ∈ as, rise (f a) = 0) : rise (as.flatMap f) = 0 := by
  induction as with
  | nil => rfl
  | cons a rest ih =>
    have first := balanced a (by simp)
    have later := ih fun other member => balanced other (List.mem_cons_of_mem a member)
    rw [List.flatMap_cons, rise_append, first, later]
    rfl

theorem rise_blocks (branches : List Dispatch.Branch) :
    rise (branches.map fun branch => .block branch.code) = 0 := by
  induction branches with
  | nil => rfl
  | cons branch rest ih => simpa [rise, Call.rise] using ih

theorem rise_caseCalls (case : Dispatch.Case) : rise (caseCalls case) = 0 := by
  unfold caseCalls
  cases case.exhaustive <;> simp [rise_append, rise_blocks, rise, Call.rise]

theorem rise_spaced {members : List (List Call)} (balanced : ∀ calls ∈ members, rise calls = 0) :
    rise (spaced members) = 0 := by
  apply rise_flatMap
  intro calls member
  simpa [rise, Call.rise] using balanced calls member

theorem rise_factoryMethods (names : RuntimeNames) (factory : Factory) :
    rise (factoryMethods names factory) = 0 := by
  rfl

theorem rise_wrapperMethod (names : RuntimeNames) (wrapper : Dispatch.Wrapper) :
    rise (wrapperMethod names wrapper) = 0 := by
  rfl

theorem rise_setMethod (names : RuntimeNames) (cases : List Dispatch.Case) :
    rise (setMethod names cases) = 0 := by
  have inner : rise (cases.flatMap caseCalls) = 0 := rise_flatMap fun case _ => rise_caseCalls case
  simp [setMethod, rise_append, inner, rise, Call.rise]

theorem rise_bodyCalls (unit : CompilationUnit) : rise unit.bodyCalls = 0 := by
  have factories : rise (spaced (unit.factories.map (factoryMethods unit.names))) = 0 := by
    apply rise_spaced
    simp [rise_factoryMethods]
  have wrappers : rise (spaced (unit.wrappers.map (wrapperMethod unit.names))) = 0 := by
    apply rise_spaced
    simp [rise_wrapperMethod]
  have setting : rise (spaced [setMethod unit.names unit.cases]) = 0 := by
    apply rise_spaced
    simp [rise_setMethod]
  simp [bodyCalls, rise_append, factories, wrappers, setting, rise, Call.rise]

theorem exists_render (unit : CompilationUnit) : ∃ source, unit.render = .ok source := by
  obtain ⟨body, written⟩ := CodeBlock.exists_ofCalls (rise_bodyCalls unit)
  exact ⟨_, map_eq_ok.mpr ⟨body, written, rfl⟩⟩

end CompilationUnit

namespace Generator

open Dispatch

variable {generator : Generator} {scan : Scan} {analysis : Analysis}

theorem replaces_of_draftScan {draft : Draft} (ran : generator.draftScan scan = .ok draft) :
    ∃ analysis, generator.analyzeScan scan = .ok analysis ∧
      ∀ group ∈ analysis.groups, Replaces generator.overrides group.candidates := by
  obtain ⟨analysis, analyzed, rest⟩ := bind_eq_ok.mp ran
  obtain ⟨table, tabled, -⟩ := bind_eq_ok.mp rest
  exact ⟨analysis, analyzed,
    fun _ member => Builder.replaces_of_build (mapError_eq_ok.mp tabled) member⟩

theorem table_fault {failure : Failure} (analyzed : generator.analyzeScan scan = .ok analysis)
    (failed : generator.table scan.library analysis = .error failure) :
    ∃ group ∈ analysis.groups, ∃ fault, FaultAt generator.overrides group.candidates fault ∧
      failure = .dispatch fault := by
  have finds := finds_of_analyzeScan analyzed
  have loaded : ∀ group ∈ analysis.groups, ∀ c ∈ group.candidates,
      scan.library.Loaded c.declaring :=
    fun group inside c member => (finds.candidate_loaded (finds.candidate_of_group inside member).1).2
  obtain ⟨stop, stopped, same⟩ := mapError_eq_error.mp failed
  obtain ⟨group, inside, fault, found, rfl⟩ := Builder.build_fault loaded stopped
  exact ⟨group, inside, fault, found, same.symm⟩

theorem draftScan_of_table {table : Table} (analyzed : generator.analyzeScan scan = .ok analysis)
    (tabled : generator.table scan.library analysis = .ok table) :
    ∃ draft, generator.draftScan scan = .ok draft ∧
      draft.analysis.warnings = analysis.warnings ++
        ((Factory.ofClasses analysis.classes generator.overrides).2 ++ table.warnings) ∧
      (CompilationUnit.ofTable generator.config table
        (Factory.ofClasses analysis.classes generator.overrides).1).render = .ok draft.source := by
  obtain ⟨source, rendered⟩ := (CompilationUnit.ofTable generator.config table
    (Factory.ofClasses analysis.classes generator.overrides).1).exists_render
  have written := mapError_of_ok (f := Failure.unbalanced) rendered
  refine ⟨_, bind_eq_ok.mpr ⟨analysis, analyzed, bind_eq_ok.mpr ⟨table, tabled,
    bind_eq_ok.mpr ⟨source, written, rfl⟩⟩⟩, ?_, rendered⟩
  exact List.append_assoc _ _ _

theorem exists_draft (analyzed : generator.analyzeScan scan = .ok analysis)
    (replaces : Replaces generator.overrides analysis.candidates) :
    ∃ draft, generator.draftScan scan = .ok draft := by
  obtain ⟨table, tabled⟩ := exists_table analyzed replaces
  obtain ⟨draft, made, -⟩ := draftScan_of_table analyzed tabled
  exact ⟨draft, made⟩

/-- Once the catalog is there, everything that is looked up later is found, and a run ends with its
text unless a function among the overrides gives something that is no code for a candidate that
stays. -/
theorem fails_only_by_override (generator : Generator) (scan : Scan) (catalog : Catalog)
    (listed : generator.catalog scan = .ok catalog) :
    (∀ type ∈ catalog.classes, ∀ m ∈ type.methods, ∀ parameter ∈ m.parameters,
      ∃ found, scan.library.resolve parameter = .ok found) ∧
    ∃ analysis, generator.analyzeScan scan = .ok analysis ∧
      (∀ c ∈ analysis.candidates, scan.library.resolve c.declaring.name = .ok c.declaring) ∧
      ((∃ draft, generator.draftScan scan = .ok draft) ∨
        ∃ group ∈ analysis.groups, ∃ c ∈ group.candidates, ∃ result,
          generator.overrides.lookup c = some (.computed result) ∧ (result c).isCode = false ∧
            generator.draftScan scan = .error (.dispatch (.override
              (.badResult c.declaring.canonicalName c.method.name (result c).kindName)))) := by
  constructor
  · intro type member
    exact Library.link_eq_ok_iff.mp (catalog_linked listed type member)
  obtain ⟨analysis, analyzed⟩ := exists_analysis_of_catalog listed
  have finds := finds_of_analyzeScan analyzed
  refine ⟨analysis, analyzed, ?_, ?_⟩
  · intro c member
    exact Library.builds_iff_resolve.mp (finds.candidate_loaded member).2.builds
  cases tabled : generator.table scan.library analysis with
  | ok table =>
    left
    obtain ⟨draft, made, -⟩ := draftScan_of_table analyzed tabled
    exact ⟨draft, made⟩
  | error failure =>
    right
    obtain ⟨group, inside, fault, ⟨c, member, cause, replaced, rfl⟩, rfl⟩ :=
      table_fault analyzed tabled
    obtain ⟨result, found, noCode, rfl⟩ := OverrideTable.replacement_eq_error_iff.mp replaced
    refine ⟨group, inside, c, member, result, found, noCode, ?_⟩
    exact bind_eq_error.mpr (.inr ⟨analysis, analyzed, bind_eq_error.mpr (.inl tabled)⟩)

end Generator

namespace Gallery

def labelled : Generator :=
  { generator with
    overrides := ⟨[(buttonDecl.name, [("setLabel",
      .computed fun c => .plain (.text ("// " ++ c.method.key)))])]⟩ }

theorem labelled_overrides : labelled.overrides.overrides =
    [.computed fun c => .plain (.text ("// " ++ c.method.key))] := by
  rfl

theorem labelled_replaces (candidates : List Candidate) :
    Dispatch.Replaces labelled.overrides candidates := by
  apply Dispatch.replaces_of_isCode
  rw [labelled_overrides]
  intro result member c
  cases List.mem_singleton.mp member
  rfl

theorem labelled_analysis : ∃ analysis, labelled.analyzeScan scan = .ok analysis := by
  obtain ⟨analysis, analyzed⟩ := spans.exists_analysis
  obtain ⟨catalog, listed, -⟩ := bind_eq_ok.mp analyzed
  have listed : labelled.catalog scan = .ok catalog := listed
  exact Generator.exists_analysis_of_catalog listed

theorem labelled_completes : ∃ catalog, labelled.catalog scan = .ok catalog ∧
    ∃ draft, labelled.draftScan scan = .ok draft := by
  obtain ⟨analysis, analyzed⟩ := labelled_analysis
  obtain ⟨catalog, listed, -⟩ := bind_eq_ok.mp analyzed
  obtain ⟨-, _, -, -, ends⟩ := Generator.fails_only_by_override labelled scan catalog listed
  refine ⟨catalog, listed, ?_⟩
  rcases ends with completes | ⟨group, -, c, member, result, found, noCode, -⟩
  · exact completes
  · obtain ⟨code, replaced⟩ := labelled_replaces group.candidates c member
    have failed := OverrideTable.replacement_eq_error_iff.mpr ⟨result, found, noCode, rfl⟩
    rw [replaced] at failed
    cases failed

end Gallery

end WidgetDsl
