import WidgetDsl.Proofs.Candidacy
import WidgetDsl.Proofs.Overriding

/-!
Scans of which an analysis asks for nothing that is more than a few levels away, so that what it finds
can be computed.
-/

namespace WidgetDsl

namespace Library

variable {lib : Library}

/-- The type of a name that is built from nothing more than so many levels away, else the name that
is too far away or not defined. -/
def typeWithin (lib : Library) : Nat → String → Except String ResolvedType
  | 0, name => .error name
  | levels + 1, name =>
    match lib.define? name with
    | none => .error name
    | some definition =>
      (definition.dependencies.mapM (lib.typeWithin levels)).map (definition.assemble name)

theorem builds_of_typeWithin {levels : Nat} {name : String} {type : ResolvedType}
    (found : lib.typeWithin levels name = .ok type) : lib.Builds name type := by
  induction levels generalizing name type with
  | zero => cases found
  | succ levels ih =>
    unfold typeWithin at found
    split at found
    · cases found
    rename_i definition defined
    obtain ⟨types, each, rfl⟩ := map_eq_ok.mp found
    -- a type for every name, as a build asks for it; what a name that is not needed gets is never seen
    let typeOf (needed : String) : ResolvedType :=
      (lib.typeWithin levels needed).toOption.getD (definition.assemble name types)
    have known : ∀ needed ∈ definition.dependencies,
        lib.typeWithin levels needed = .ok (typeOf needed) := by
      intro needed member
      have answer := List.mem_map_of_mem (f := lib.typeWithin levels) member
      rw [mapM_eq_ok.mp each] at answer
      obtain ⟨above, -, answer⟩ := List.mem_map.mp answer
      simp [typeOf, ← answer, Except.toOption]
    have same : types = definition.dependencies.map typeOf := by
      refine (List.map_inj_right fun _ _ => Except.ok.inj).mp ((mapM_eq_ok.mp each).symm.trans ?_)
      rw [List.map_map]
      exact List.map_congr_left known
    rw [same]
    exact .intro typeOf defined fun needed member => ih (known needed member)

theorem resolve_of_typeWithin {levels : Nat} {name : String} {type : ResolvedType}
    (found : lib.typeWithin levels name = .ok type) : lib.resolve name = .ok type :=
  builds_iff_resolve.mp (builds_of_typeWithin found)

def nearby : Nat := 6

def isNear (lib : Library) (name : String) : Bool :=
  (lib.typeWithin nearby name).isOk

def typeOf (lib : Library) (name : String) : ResolvedType :=
  (lib.typeWithin nearby name).toOption.getD ⟨name, .voidType, [], none, [], [], none⟩

variable {name : String} (near : lib.isNear name = true)

include near

theorem resolve_typeOf : lib.resolve name = .ok (lib.typeOf name) := by
  unfold isNear at near
  match found : lib.typeWithin nearby name with
  | .ok type =>
    rw [typeOf, found]
    exact resolve_of_typeWithin found
  | .error _ => simp [found, Except.isOk, Except.toBool] at near

theorem typeOf_loaded : lib.Loaded (lib.typeOf name) :=
  ⟨name, resolve_typeOf near⟩

theorem typeOf_name : (lib.typeOf name).name = name :=
  (builds_iff_resolve.mpr (resolve_typeOf near)).name_eq

end Library

/-- A scan of some names, the root's among them, in which every name that counts is near. -/
structure Scan.Spans (scan : Scan) (root : String) (names : List String) : Prop where
  listed : ∀ name, name ∈ Catalog.candidateNames scan.entries ↔ name ∈ names
  rootListed : root ∈ names
  rootIsClass : (scan.library.typeOf root).kind = .classType
  near : ∀ name ∈ names, scan.library.isNear name = true
  parameters : ∀ name ∈ names, ∀ m ∈ (scan.library.typeOf name).methods,
    ∀ parameter ∈ m.parameters, scan.library.isNear parameter = true

theorem Scan.listed_ofArchives {scanned dependencies : List Archive} {names : List String}
    (listed : Catalog.candidateNames (scanned.flatMap fun archive => archive.entries.keys) = names)
    (name : String) :
    name ∈ Catalog.candidateNames (ofArchives scanned dependencies).entries ↔ name ∈ names := by
  rw [Catalog.mem_candidateNames_ofArchives, listed]

namespace Generator

open Candidate

def classesWithin (generator : Generator) (scan : Scan) (names : List String) :
    List ResolvedType :=
  (names.map (scan.library.typeOf)).filter
    (Catalog.isEligible · (scan.library.typeOf generator.config.root))

def madeWithin (generator : Generator) (scan : Scan) (declaring : ResolvedType)
    (m : Method) : Option Candidate :=
  if !m.isPublic || m.synthetic || m.bridge then none
  else m.parameters.head?.bind fun parameter =>
    ofResolved? (scan.library.typeOf generator.config.root) generator.effectiveOracle declaring
      m (scan.library.typeOf parameter)

def candidatesWithin (generator : Generator) (scan : Scan) (names : List String) :
    List Candidate :=
  (generator.classesWithin scan names).flatMap fun type =>
    type.methods.filterMap (generator.madeWithin scan type)

end Generator

namespace Scan.Spans

open Candidate

variable {generator : Generator} {scan : Scan} {names : List String}
  {analysis : Analysis} (spans : scan.Spans generator.config.root names)

include spans

theorem resolve {name : String} (member : name ∈ names) :
    scan.library.resolve name = .ok (scan.library.typeOf name) :=
  Library.resolve_typeOf (spans.near name member)

theorem link {name : String} (member : name ∈ names) :
    scan.library.link (scan.library.typeOf name) = .ok () :=
  Library.link_eq_ok_iff.mpr fun m declared parameter given =>
    ⟨_, Library.resolve_typeOf (spans.parameters name member m declared parameter given)⟩

theorem exists_analysis : ∃ analysis, generator.analyzeScan scan = .ok analysis := by
  refine Generator.exists_analyzeScan (spans.resolve spans.rootListed) spans.rootIsClass
    fun name listed other => ?_
  have member := (spans.listed name).mp listed
  rw [Catalog.examine_of_linked (spans.resolve member) (spans.link member)]
  exact nofun

theorem root_eq (analyzed : generator.analyzeScan scan = .ok analysis) :
    analysis.root = scan.library.typeOf generator.config.root := by
  have resolved := (Generator.finds_of_analyzeScan analyzed).root
  rw [spans.resolve spans.rootListed] at resolved
  exact (Except.ok.inj resolved).symm

theorem mem_classes (analyzed : generator.analyzeScan scan = .ok analysis) {type : ResolvedType} :
    type ∈ analysis.classes ↔ type ∈ generator.classesWithin scan names := by
  rw [(Generator.finds_of_analyzeScan analyzed).classes, spans.root_eq analyzed,
    Generator.classesWithin, List.mem_filter, List.mem_map]
  simp only [spans.listed, Catalog.examine_eq_some_iff]
  constructor
  · rintro ⟨name, member, resolved, eligible, -⟩
    rw [spans.resolve member] at resolved
    obtain rfl := Except.ok.inj resolved
    exact ⟨⟨name, member, rfl⟩, eligible⟩
  · rintro ⟨⟨name, member, rfl⟩, eligible⟩
    exact ⟨name, member, spans.resolve member, eligible, spans.link member⟩

theorem made?_eq {type : ResolvedType} (inside : type ∈ generator.classesWithin scan names)
    {m : Method} (declared : m ∈ type.methods) :
    made? scan.library (scan.library.typeOf generator.config.root) generator.effectiveOracle
      type m = generator.madeWithin scan type m := by
  obtain ⟨name, member, rfl⟩ := List.mem_map.mp (List.mem_filter.mp inside).1
  rw [Candidate.made?_eq, Generator.madeWithin]
  match parameters : m.parameters with
  | [] => rfl
  | parameter :: rest =>
    have near := spans.parameters name member m declared parameter (by simp [parameters])
    simp [Library.resolve_typeOf near, Except.toOption]

theorem mem_candidates (kept : .excluded ∉ generator.overrides.overrides)
    (analyzed : generator.analyzeScan scan = .ok analysis) {c : Candidate} :
    c ∈ analysis.candidates ↔ c ∈ generator.candidatesWithin scan names := by
  rw [(Generator.finds_of_analyzeScan analyzed).candidates, spans.root_eq analyzed,
    Generator.candidatesWithin, List.mem_flatMap]
  simp only [spans.mem_classes analyzed, OverrideTable.excludesClass_eq_false kept,
    OverrideTable.excludesMethod_eq_false kept, true_and, List.mem_filterMap]
  refine exists_congr fun type => and_congr_right fun inside => exists_congr fun m =>
    and_congr_right fun declared => ?_
  rw [← made?_eq_some_iff, spans.made?_eq inside declared]

end Scan.Spans

/-! A widget and a button below it, with a class between them that is there to resolve names only. -/

namespace Gallery

open Sample (setter event)

def touchListenerDecl : ClassDecl :=
  ⟨"com.example.TouchListener", true, ["public"], none, ["java.lang.Runnable", "java.lang.Comparable"],
    [event "onTouch" ["abstract"]]⟩

def widgetDecl : ClassDecl :=
  ⟨"com.example.Widget", false, ["public"], some Java.objectName, [],
    [setter "setLabel" "java.lang.String", setter "setVisible" "boolean",
      { setter "setTitle" "java.lang.String" with deprecated := true },
      setter "setHint" "java.lang.CharSequence", setter "setHint" Java.objectName,
      setter "setHint" "java.lang.String", setter "setSize" "int",
      setter "setSize" "java.lang.Integer", setter "setOnTouch" Java.objectName,
      setter "setOnTouch" "java.lang.Runnable",
      setter "setOnTouchListener" touchListenerDecl.name]⟩

def baseDecl : ClassDecl :=
  ⟨"com.example.Base", false, ["public"], some widgetDecl.name, [],
    [setter "setText" "java.lang.String"]⟩

def buttonDecl : ClassDecl :=
  ⟨"com.example.Button", false, ["public"], some baseDecl.name, [],
    [setter "setLabel" "java.lang.CharSequence", setter "setText" "java.lang.String",
      setter "setTitle" "java.lang.String", setter "setVisible" "boolean",
      setter "setOnTouch" "java.lang.Comparable"]⟩

def archive (path : String) (decls : List ClassDecl) : Archive :=
  ⟨path, decls.map fun decl => (entryName decl.name, decl)⟩

def scan : Scan :=
  .ofArchives [archive "lib.json" [touchListenerDecl, widgetDecl, buttonDecl]]
    [archive "base.json" [baseDecl]]

def generator : Generator :=
  ⟨.ofNames widgetDecl.name "com.example.dsl" "DSL", .empty, some .silent⟩

def names : List String :=
  [touchListenerDecl.name, widgetDecl.name, buttonDecl.name]

theorem spans : scan.Spans generator.config.root names where
  listed := Scan.listed_ofArchives (by decide +kernel)
  rootListed := by decide +kernel
  rootIsClass := by decide +kernel
  near := by decide +kernel
  parameters := by decide +kernel

def widget : ResolvedType := scan.library.typeOf widgetDecl.name

def button : ResolvedType := scan.library.typeOf buttonDecl.name

def candidates : List Candidate := generator.candidatesWithin scan names

theorem classesWithin_eq : generator.classesWithin scan names = [widget, button] := by
  have listenerOut :
      Catalog.isEligible (scan.library.typeOf touchListenerDecl.name) widget = false := by
    decide +kernel
  have widgetIn : Catalog.isEligible widget widget = true := by decide +kernel
  have buttonIn : Catalog.isEligible button widget = true := by decide +kernel
  have listed : generator.classesWithin scan names =
      [scan.library.typeOf touchListenerDecl.name, widget, button].filter
        (Catalog.isEligible · widget) := rfl
  simp [listed, listenerOut, widgetIn, buttonIn]

variable {analysis : Analysis}

theorem root_eq (analyzed : generator.analyzeScan scan = .ok analysis) : analysis.root = widget :=
  spans.root_eq analyzed

theorem mem_classes (analyzed : generator.analyzeScan scan = .ok analysis) {type : ResolvedType} :
    type ∈ analysis.classes ↔ type = widget ∨ type = button := by
  simp [spans.mem_classes analyzed, classesWithin_eq]

theorem mem_candidates (analyzed : generator.analyzeScan scan = .ok analysis) {c : Candidate} :
    c ∈ analysis.candidates ↔ c ∈ candidates :=
  spans.mem_candidates OverrideTable.empty_keeps analyzed

end Gallery

/-! A widget that can be given a label, and a label and a panel below it that tell different things about
the same text. The label declares its title twice. -/

namespace Storefront

open Sample (setter event)

def renderableDecl : ClassDecl :=
  ⟨"org.widgetdsl.Runtime$Renderable", true, ["public"], none, [], [event "view" ["abstract"]]⟩

def annotated (name : String) (m : Method) : Method :=
  { m with parameterAnnotations := [[name]] }

def widgetDecl : ClassDecl :=
  ⟨"com.example.Widget", false, ["public"], some Java.objectName, [],
    [setter "setLabel" renderableDecl.name]⟩

def labelDecl : ClassDecl :=
  ⟨"com.example.Label", false, ["public"], some widgetDecl.name, [],
    [annotated "androidx.annotation.NonNull" (setter "setText" "java.lang.String"),
      { annotated "androidx.annotation.Nullable" (setter "setTitle" "java.lang.String") with
        bridge := true },
      setter "setTitle" "java.lang.String"]⟩

def panelDecl : ClassDecl :=
  ⟨"com.example.Panel", false, ["public"], some widgetDecl.name, [],
    [annotated "androidx.annotation.Nullable" (setter "setText" "java.lang.String")]⟩

def archive : Archive :=
  Gallery.archive "lib.json" [renderableDecl, widgetDecl, labelDecl, panelDecl]

def scan : Scan :=
  .ofArchives [archive] []

def config : Config :=
  { Config.ofNames widgetDecl.name "com.example.dsl" "DSL" with archives := [.ofString "lib.json"] }

def generator : Generator :=
  ⟨config, .empty, none⟩

def names : List String :=
  [widgetDecl.name, labelDecl.name, panelDecl.name]

theorem spans : scan.Spans generator.config.root names where
  listed := Scan.listed_ofArchives (by decide +kernel)
  rootListed := by decide +kernel
  rootIsClass := by decide +kernel
  near := by decide +kernel
  parameters := by decide +kernel

structure Profile where
  name : String
  place : Candidate.Specificity
  method : Method
  isListener : Bool
  isNullable : Bool
  deriving DecidableEq, Repr

def profileOf (c : Candidate) : Profile :=
  ⟨c.name, c.specificity, c.method, c.isListener, c.isNullable⟩

def widgetLabel : Profile :=
  ⟨"label", ⟨0, 1, renderableDecl.name, widgetDecl.name⟩, setter "setLabel" renderableDecl.name, false,
    false⟩

def labelText : Profile :=
  ⟨"text", ⟨1, 2, "java.lang.String", labelDecl.name⟩,
    annotated "androidx.annotation.NonNull" (setter "setText" "java.lang.String"), false, false⟩

def labelTitle : Profile :=
  ⟨"title", ⟨1, 2, "java.lang.String", labelDecl.name⟩, setter "setTitle" "java.lang.String", false,
    false⟩

def panelText : Profile :=
  ⟨"text", ⟨1, 2, "java.lang.String", panelDecl.name⟩,
    annotated "androidx.annotation.Nullable" (setter "setText" "java.lang.String"), false, true⟩

def profiles : List Profile :=
  [widgetLabel, labelText, labelTitle, panelText]

theorem profiles_eq : (generator.candidatesWithin scan names).map profileOf = profiles := by
  decide +kernel

variable {analysis : Analysis}

theorem mem_profiles (analyzed : generator.analyzeScan scan = .ok analysis) {profile : Profile} :
    profile ∈ profiles ↔ ∃ c ∈ analysis.candidates, profileOf c = profile := by
  rw [← profiles_eq, List.mem_map]
  simp only [spans.mem_candidates OverrideTable.empty_keeps analyzed]

theorem unshadowed (analyzed : generator.analyzeScan scan = .ok analysis) {c other : Candidate}
    (member : c ∈ analysis.candidates) (memberToo : other ∈ analysis.candidates) :
    other.shadows c = false := by
  have each : ∀ c ∈ generator.candidatesWithin scan names,
      ∀ other ∈ generator.candidatesWithin scan names, other.shadows c = false := by
    decide +kernel
  exact each c ((spans.mem_candidates OverrideTable.empty_keeps analyzed).mp member) other
    ((spans.mem_candidates OverrideTable.empty_keeps analyzed).mp memberToo)

end Storefront

end WidgetDsl
