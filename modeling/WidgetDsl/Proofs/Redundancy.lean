import WidgetDsl.Proofs.SmallScans

/-!
Methods that are left out as redundant. Whether a class above has the attribute in their place is up to
the last class on the way up that declares the signature.
-/

namespace WidgetDsl

open Relation

namespace ResolvedType

theorem superclasses_eq (type : ResolvedType) :
    type.superclasses = superclassChain type.superclass := by
  cases type
  rfl

theorem superclasses_of_superclass {type next : ResolvedType} (direct : type.superclass = some next) :
    type.superclasses = next :: next.superclasses := by
  rw [superclasses_eq, direct, superclassChain]

theorem mem_superclasses_iff {type above : ResolvedType} : above ∈ type.superclasses ↔
    ∃ next, type.superclass = some next ∧ (above = next ∨ above ∈ next.superclasses) := by
  rw [superclasses_eq]
  cases type.superclass <;> simp [superclassChain]

theorem above_of_mem_superclasses {type above : ResolvedType}
    (member : above ∈ type.superclasses) : TransGen Under type above := by
  induction type using supertypes_induction with
  | step type ih =>
    obtain ⟨next, direct, rest⟩ := mem_superclasses_iff.mp member
    have under : type.Under next := by simp [Under, supertypes, direct]
    rcases rest with rfl | later
    · exact .single under
    · exact .head under (ih next under later)

end ResolvedType

namespace Candidate

open ResolvedType

variable {root declaring top : ResolvedType} {signature : Signature} {m : Method}

/-- The superclasses that can make a method of a class redundant. -/
def redundancyWalk (root declaring : ResolvedType) : List ResolvedType :=
  if declaring.name = root.name then [] else upTo root.name declaring.superclasses

theorem isRedundant_eq_any :
    isRedundant root declaring m = (redundancyWalk root declaring).any (·.declares m.signature) := by
  unfold isRedundant redundancyWalk
  split <;> simp [*]

theorem not_root_of_isRedundant (redundant : isRedundant root declaring m = true) :
    declaring.name ≠ root.name := by
  intro same
  simp [isRedundant, same] at redundant

theorem mem_of_mem_upTo {name : String} {types : List ResolvedType} {type : ResolvedType}
    (member : type ∈ upTo name types) : type ∈ types := by
  induction types with
  | nil => cases member
  | cons first rest ih =>
    unfold upTo at member
    split at member
    · exact List.mem_cons.mpr (.inl (List.mem_singleton.mp member))
    · rcases List.mem_cons.mp member with rfl | later
      · simp
      · exact List.mem_cons_of_mem _ (ih later)

theorem redundancyWalk_step (root type : ResolvedType) : redundancyWalk root type =
    if type.name = root.name then [] else
      match type.superclass with
      | none => []
      | some next => next :: redundancyWalk root next := by
  rw [redundancyWalk]
  split
  · rfl
  match direct : type.superclass with
  | none => rw [superclasses_eq, direct, superclassChain, upTo]
  | some next =>
    rw [superclasses_of_superclass direct, upTo]
    unfold redundancyWalk
    by_cases last : next.name = root.name <;> simp [last]

theorem redundancyWalk_cons {type next : ResolvedType} (notRoot : type.name ≠ root.name)
    (direct : type.superclass = some next) :
    redundancyWalk root type = next :: redundancyWalk root next := by
  rw [redundancyWalk_step, if_neg notRoot, direct]

theorem mem_redundancyWalk_or_beyond {type above : ResolvedType} (notRoot : type.name ≠ root.name)
    (member : above ∈ type.superclasses) : above ∈ redundancyWalk root type ∨
      ∃ last ∈ type.superclasses, last.name = root.name ∧ above ∈ last.superclasses := by
  induction type using supertypes_induction with
  | step type ih =>
    obtain ⟨next, direct, rest⟩ := mem_superclasses_iff.mp member
    have under : type.Under next := by simp [Under, supertypes, direct]
    rw [redundancyWalk_cons notRoot direct, superclasses_of_superclass direct]
    rcases rest with rfl | later
    · exact .inl (by simp)
    by_cases last : next.name = root.name
    · exact .inr ⟨next, by simp, last, later⟩
    · rcases ih next under last later with walked | ⟨top, between, named, beyond⟩
      · exact .inl (List.mem_cons_of_mem _ walked)
      · exact .inr ⟨top, List.mem_cons_of_mem _ between, named, beyond⟩

theorem after_eq_redundancyWalk {before after : List ResolvedType}
    (split : redundancyWalk root declaring = before ++ top :: after) :
    after = redundancyWalk root top := by
  induction declaring using supertypes_induction generalizing before with
  | step type ih =>
    rw [redundancyWalk_step] at split
    split at split
    · simp at split
    match direct : type.superclass with
    | none => simp [direct] at split
    | some next =>
      rw [direct] at split
      cases before with
      | nil =>
        obtain ⟨rfl, rfl⟩ := List.cons.inj split
        rfl
      | cons first others =>
        have under : type.Under next := by simp [Under, supertypes, direct]
        exact ih next under (List.cons.inj split).2

/-- The last class on the walk that declares a signature. -/
def topDeclarer? (root declaring : ResolvedType) (signature : Signature) : Option ResolvedType :=
  (redundancyWalk root declaring).reverse.find? (·.declares signature)

theorem topDeclarer?_eq_some_iff : topDeclarer? root declaring signature = some top ↔
    top ∈ redundancyWalk root declaring ∧ top.declares signature = true ∧
      (redundancyWalk root top).any (·.declares signature) = false := by
  rw [topDeclarer?, List.find?_eq_some_iff_append]
  constructor
  · rintro ⟨declares, after, before, split, silent⟩
    have split : redundancyWalk root declaring = before.reverse ++ top :: after.reverse := by
      rw [← List.reverse_reverse (redundancyWalk root declaring), split]
      simp
    refine ⟨by simp [split], declares, ?_⟩
    rw [← after_eq_redundancyWalk split, List.any_reverse, List.any_eq_false]
    simpa using silent
  · rintro ⟨member, declares, silent⟩
    obtain ⟨before, after, split⟩ := List.append_of_mem member
    rw [← after_eq_redundancyWalk split, List.any_eq_false] at silent
    exact ⟨declares, after.reverse, before.reverse, by simp [split], by simpa using silent⟩

theorem isRedundant_of_topDeclarer? (found : topDeclarer? root declaring m.signature = some top)
    {other : Method} (same : other.signature = m.signature) : isRedundant root top other = false := by
  rw [isRedundant_eq_any, same]
  exact (topDeclarer?_eq_some_iff.mp found).2.2

theorem Admits.of_signature_eq {lib : Library} {valueType : ResolvedType} {derived : AttributeName}
    {other : Method} (admits : Admits lib m valueType derived) (same : other.signature = m.signature)
    (isPublic : other.isPublic = true) (notSynthetic : other.synthetic = false)
    (notBridge : other.bridge = false) (notDeprecated : other.isDeprecated = false) :
    Admits lib other valueType derived := by
  have names : other.name = m.name := congrArg Signature.name same
  have parameters : other.parameters = m.parameters := congrArg Signature.parameters same
  exact ⟨isPublic, notSynthetic, notBridge, notDeprecated, parameters ▸ admits.resolves,
    admits.valuePublic, names ▸ parameters ▸ admits.named, admits.callback⟩

end Candidate

namespace Generator

open Candidate ResolvedType

variable {generator : Generator} {scan : Scan} {analysis : Analysis}
  {declaring above : ResolvedType} {m : Method}

/-- A class of an analysis above another one is on the walk of that one: the walk ends at the root,
and no class of an analysis is above the root. -/
theorem Finds.mem_redundancyWalk (finds : generator.Finds scan analysis)
    (member : declaring ∈ analysis.classes) (notRoot : declaring.name ≠ analysis.root.name)
    (memberAbove : above ∈ analysis.classes) (chain : above ∈ declaring.superclasses) :
    above ∈ redundancyWalk analysis.root declaring := by
  rcases mem_redundancyWalk_or_beyond notRoot chain with walked | ⟨last, between, named, beyond⟩
  · exact walked
  · have loaded := finds.class_loaded memberAbove
    have loadedLast : scan.library.Loaded last :=
      (finds.class_loaded member).above (above_of_mem_superclasses between).to_reflTransGen
    obtain rfl := loadedLast.eq_of_name_eq finds.root_loaded named
    -- the class is above the root here and, being in the catalog, it is the root or below it
    have cycle := above_of_mem_superclasses beyond
    rcases finds.class_below memberAbove with same | below
    · obtain rfl := loaded.eq_of_name_eq finds.root_loaded same
      exact absurd cycle (not_under_self _)
    · have back := (Library.isSubtypeOf_iff loaded finds.root_loaded).mp below
      exact absurd (cycle.trans back) (not_under_self _)

/-- Without overrides, what a redundant method would set is set by a candidate of its signature
further up exactly if the last class that declares the signature on the way up to the root is itself
in the catalog, with a method that is neither synthetic nor a bridge nor deprecated. -/
theorem redundant_covered_iff (generator : Generator) (plain : generator.overrides = .empty)
    (scan : Scan) (analysis : Analysis) (analyzed : generator.analyzeScan scan = .ok analysis)
    (declaring : ResolvedType) (member : declaring ∈ analysis.classes)
    (m : Method) (valueType : ResolvedType) (derived : AttributeName)
    (admits : Admits scan.library m valueType derived)
    (redundant : isRedundant analysis.root declaring m = true) :
    (∃ c ∈ analysis.candidates, c.name = derived.name ∧ c.valueType = valueType ∧
      c.method.signature = m.signature ∧ c.declaring ∈ declaring.superclasses) ↔
    ∃ top ∈ analysis.classes, topDeclarer? analysis.root declaring m.signature = some top ∧
      ∃ other ∈ top.methods, other.signature = m.signature ∧ other.isPublic = true ∧
        other.synthetic = false ∧ other.bridge = false ∧ other.isDeprecated = false := by
  have finds := finds_of_analyzeScan analyzed
  constructor
  · rintro ⟨c, inside, -, -, same, above⟩
    obtain ⟨cataloged, owned, _, admitted, fresh, -⟩ := finds.candidate inside
    have walked := finds.mem_redundancyWalk member (not_root_of_isRedundant redundant) cataloged above
    -- as the candidate is not redundant itself, nothing further up its walk declares the signature
    have declares : c.declaring.declares m.signature = true :=
      List.any_eq_true.mpr ⟨c.method, owned, by simp [admitted.isPublic, same]⟩
    rw [isRedundant_eq_any, same] at fresh
    exact ⟨c.declaring, cataloged, topDeclarer?_eq_some_iff.mpr ⟨walked, declares, fresh⟩, c.method,
      owned, same, admitted.isPublic, admitted.notSynthetic, admitted.notBridge,
      admitted.notDeprecated⟩
  · rintro ⟨top, cataloged, found, other, owned, same, shown, notSynthetic, notBridge, current⟩
    have admitted := admits.of_signature_eq same shown notSynthetic notBridge current
    have made : ofMethod? scan.library analysis.root generator.effectiveOracle top other =
        .ok (some (ofAdmitted generator.effectiveOracle top other valueType derived)) :=
      ofMethod?_eq_some_iff.mpr
        ⟨valueType, derived, admitted, isRedundant_of_topDeclarer? found same, rfl⟩
    have walked := (topDeclarer?_eq_some_iff.mp found).1
    rw [redundancyWalk, if_neg (not_root_of_isRedundant redundant)] at walked
    refine ⟨ofAdmitted generator.effectiveOracle top other valueType derived, ?_, rfl, rfl, same,
      mem_of_mem_upTo walked⟩
    have kept : .excluded ∉ generator.overrides.overrides := plain ▸ OverrideTable.empty_keeps
    exact (finds.candidates _).mpr ⟨top, cataloged, OverrideTable.excludesClass_eq_false kept _,
      OverrideTable.excludesMethod_eq_false kept _, other, owned, made⟩

end Generator

namespace Gallery

open Candidate
open Sample (setter)

theorem admits_setter {name parameter : String} {derived : AttributeName}
    (known : scan.library.isNear parameter = true)
    (valuePublic : (scan.library.typeOf parameter).isPublic = true)
    (named : AttributeName.ofMethod? name 1 = some derived) (plain : derived.isListener = false) :
    Admits scan.library (setter name parameter) (scan.library.typeOf parameter) derived where
  isPublic := rfl
  notSynthetic := rfl
  notBridge := rfl
  notDeprecated := rfl
  resolves := ⟨parameter, rfl, Library.resolve_typeOf known⟩
  valuePublic := valuePublic
  named := named
  callback := by simp [plain]

theorem visible_covered : ∃ analysis, generator.analyzeScan scan = .ok analysis ∧
    button ∈ analysis.classes ∧ setter "setVisible" "boolean" ∈ button.methods ∧
    Admits scan.library (setter "setVisible" "boolean") (scan.library.typeOf "boolean")
      ⟨"visible", false⟩ ∧
    isRedundant analysis.root button (setter "setVisible" "boolean") = true ∧
    ∃ c ∈ analysis.candidates, c.name = "visible" ∧ c.valueType = scan.library.typeOf "boolean" ∧
      c.declaring ∈ button.superclasses := by
  obtain ⟨analysis, analyzed⟩ := spans.exists_analysis
  have root := root_eq analyzed
  have member : button ∈ analysis.classes := (mem_classes analyzed).mpr (.inr rfl)
  have admits : Admits scan.library (setter "setVisible" "boolean") (scan.library.typeOf "boolean")
      ⟨"visible", false⟩ :=
    admits_setter (by decide +kernel) (by decide +kernel) (by decide +kernel) rfl
  have redundant : isRedundant analysis.root button (setter "setVisible" "boolean") = true := by
    rw [root]
    decide +kernel
  have top : topDeclarer? analysis.root button (setter "setVisible" "boolean").signature =
      some widget := by
    rw [root]
    rfl
  obtain ⟨c, inside, named, values, -, above⟩ :=
    (Generator.redundant_covered_iff generator rfl scan analysis analyzed button member _ _ _ admits
      redundant).mpr ⟨widget, (mem_classes analyzed).mpr (.inl rfl), top,
        setter "setVisible" "boolean", by decide +kernel, rfl, rfl, rfl, rfl, rfl⟩
  exact ⟨analysis, analyzed, member, by decide +kernel, admits, redundant, c, inside, named, values,
    above⟩

/-- The button's text and title are redundant, and nothing sets them: the class that declares the text
is there to resolve names only, and the title of the widget is deprecated. -/
theorem text_and_title_lost : ∃ analysis, generator.overrides = .empty ∧
    generator.analyzeScan scan = .ok analysis ∧ button ∈ analysis.classes ∧
    ∀ m derived, (m, derived) ∈ [(setter "setText" "java.lang.String", AttributeName.mk "text" false),
        (setter "setTitle" "java.lang.String", AttributeName.mk "title" false)] →
      m ∈ button.methods ∧ Admits scan.library m (scan.library.typeOf "java.lang.String") derived ∧
      isRedundant analysis.root button m = true ∧
      ¬ ∃ c ∈ analysis.candidates, c.name = derived.name ∧
        c.valueType = scan.library.typeOf "java.lang.String" ∧ c.declaring ∈ button.superclasses := by
  obtain ⟨analysis, analyzed⟩ := spans.exists_analysis
  have lost : ∀ c ∈ candidates, c.name ≠ "text" ∧ c.name ≠ "title" := by decide +kernel
  have known : scan.library.isNear "java.lang.String" = true := by decide +kernel
  have valuePublic : (scan.library.typeOf "java.lang.String").isPublic = true := by decide +kernel
  refine ⟨analysis, rfl, analyzed, (mem_classes analyzed).mpr (.inr rfl), fun m derived member => ?_⟩
  rw [root_eq analyzed]
  simp only [List.mem_cons, Prod.mk.injEq, List.not_mem_nil, or_false] at member
  rcases member with ⟨rfl, rfl⟩ | ⟨rfl, rfl⟩
  · refine ⟨by decide +kernel, admits_setter known valuePublic (by decide +kernel) rfl,
      by decide +kernel, ?_⟩
    rintro ⟨c, inside, named, -⟩
    exact (lost c ((mem_candidates analyzed).mp inside)).1 named
  · refine ⟨by decide +kernel, admits_setter known valuePublic (by decide +kernel) rfl,
      by decide +kernel, ?_⟩
    rintro ⟨c, inside, named, -⟩
    exact (lost c ((mem_candidates analyzed).mp inside)).2 named

end Gallery

end WidgetDsl
