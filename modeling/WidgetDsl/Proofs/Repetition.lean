import WidgetDsl.Proofs.Cataloguing
import WidgetDsl.Proofs.Classification
import WidgetDsl.Proofs.FactoryNaming

/-!
Classes that a catalog has more than once. A class is listed as often as scanned entries name it, since
only the entries are told apart. Entries that are spelled as they should be name each class once.
-/

namespace WidgetDsl

theorem filterMap_const {α β : Type} (test : α → Bool) (b : β) (items : List α) :
    (items.filterMap fun a => if test a then some b else none) =
      List.replicate (items.filter test).length b := by
  induction items with
  | nil => rfl
  | cons a rest ih =>
    cases passes : test a with
    | false => simpa [passes] using ih
    | true => simp [passes, ih, List.replicate_succ]

theorem filter_flatMap_of_alike {α β : Type} {make : α → List β} {keep : β → Bool} {test : α → Bool}
    {items : List α} (alike : ∀ a ∈ items, ∀ b ∈ make a, keep b = test a) :
    (items.flatMap make).filter keep = (items.filter test).flatMap make := by
  induction items with
  | nil => rfl
  | cons a rest ih =>
    have others := ih fun other member => alike other (List.mem_cons_of_mem _ member)
    have own := alike a List.mem_cons_self
    rw [List.flatMap_cons, List.filter_append, others]
    cases passes : test a with
    | false =>
      rw [List.filter_eq_nil_iff.mpr (by simpa [passes] using own),
        List.filter_cons_of_neg (by simp [passes]), List.nil_append]
    | true =>
      rw [List.filter_eq_self.mpr (by simpa [passes] using own), List.filter_cons_of_pos passes,
        List.flatMap_cons]

theorem ResolvedType.canonicalName_of_plain {type : ResolvedType} (plain : '$' ∉ type.name.toList) :
    type.canonicalName = type.name :=
  Text.replaceChar_of_not_mem plain

/-- The entries of archives that are for a class, each once. -/
def Archive.entriesFor (archives : List Archive) (name : String) : List String :=
  (archives.flatMap (·.entries.keys)).eraseDups.filter fun entry => binaryName? entry = some name

theorem Archive.entriesFor_nodup (archives : List Archive) (name : String) :
    (entriesFor archives name).Nodup :=
  (Descriptor.nodup_eraseDups _).filter _

theorem Archive.entriesFor_length_le_one {archives : List Archive}
    (spelled : ∀ entry ∈ archives.flatMap (·.entries.keys), ∀ name, binaryName? entry = some name →
      entry = entryName name) (name : String) : (entriesFor archives name).length ≤ 1 := by
  have same : ∀ entry ∈ entriesFor archives name, entry = entryName name := by
    intro entry member
    obtain ⟨key, named⟩ := List.mem_filter.mp member
    exact spelled entry (List.mem_eraseDups.mp key) name (of_decide_eq_true named)
  have distinct := entriesFor_nodup archives name
  rw [List.eq_replicate_of_mem same, List.nodup_replicate] at distinct
  exact distinct

theorem Scan.entriesFor_perm (scanned dependencies : List Archive) (name : String) :
    ((ofArchives scanned dependencies).entries.filter fun entry => binaryName? entry = some name).Perm
      (Archive.entriesFor scanned name) := by
  refine (List.perm_ext_iff_of_nodup ?_ ?_).mpr fun entry => ?_
  · exact (entries_increasing.imp fun {_ _} less => Std.ne_of_lt less).filter _
  · exact Archive.entriesFor_nodup scanned name
  · rw [Archive.entriesFor, List.mem_filter, List.mem_filter, mem_entries,
      Archive.mem_flatMap_classEntries, List.mem_eraseDups]
    refine ⟨fun ⟨⟨key, _⟩, named⟩ => ⟨key, named⟩, fun ⟨key, named⟩ => ⟨⟨key, ?_⟩, named⟩⟩
    rw [of_decide_eq_true named, Option.isSome_some]

namespace Catalog

variable {scanned dependencies : List Archive} {rootName : String} {catalog : Catalog}
  {type other : ResolvedType}

theorem name_of_found? {lib : Library} {root : ResolvedType} {name : String}
    (found : found? lib root name = some type) : type.name = name := by
  obtain ⟨resolved, -⟩ := examine_eq_some_iff.mp (found?_eq_some_iff.mp found)
  exact (Library.builds_iff_resolve.mpr resolved).name_eq

theorem found_of_mem {scan : Scan} (listed : ofScan scan rootName = .ok catalog)
    (member : type ∈ catalog.classes) : '$' ∉ type.name.toList ∧
      found? scan.library catalog.root type.name = some type := by
  obtain ⟨name, counts, examined⟩ := (mem_classes listed).mp member
  have found := found?_eq_some_iff.mpr examined
  rw [← name_of_found? found] at counts found
  exact ⟨(mem_candidateNames.mp counts).1, found⟩

theorem eq_of_canonicalName_eq {scan : Scan} (listed : ofScan scan rootName = .ok catalog)
    (member : type ∈ catalog.classes) (memberToo : other ∈ catalog.classes)
    (same : type.canonicalName = other.canonicalName) : type = other := by
  obtain ⟨plain, found⟩ := found_of_mem listed member
  obtain ⟨plainToo, foundToo⟩ := found_of_mem listed memberToo
  rw [ResolvedType.canonicalName_of_plain plain, ResolvedType.canonicalName_of_plain plainToo] at same
  rw [same, foundToo] at found
  exact (Option.some.inj found).symm

theorem classes_repeated (listed : ofScan (.ofArchives scanned dependencies) rootName = .ok catalog)
    (member : type ∈ catalog.classes) : catalog.classes.filter (·.name = type.name) =
      List.replicate (Archive.entriesFor scanned type.name).length type := by
  obtain ⟨plain, found⟩ := found_of_mem listed member
  obtain ⟨-, -, types, examined, classes⟩ := ofScan_eq_ok_iff.mp listed
  have each (entry : String) : ((nameOf? entry).bind
      (found? (Scan.ofArchives scanned dependencies).library catalog.root)).filter
        (·.name = type.name) =
      if binaryName? entry = some type.name then some type else none := by
    by_cases named : binaryName? entry = some type.name
    · have counts : nameOf? entry = some type.name := by simp [nameOf?, named, plain]
      simp [counts, found, named]
    · rw [if_neg named, Option.filter_eq_none_iff]
      intro other made same
      obtain ⟨name, counts, foundToo⟩ := Option.bind_eq_some_iff.mp made
      have spelled := (Option.filter_eq_some_iff.mp counts).1
      rw [← name_of_found? foundToo, of_decide_eq_true same] at spelled
      exact named spelled
  have unsorted : types.filter (·.name = type.name) =
      List.replicate (Archive.entriesFor scanned type.name).length type := by
    rw [(ofNames_eq examined).1, candidateNames_eq, List.filterMap_filterMap, List.filter_filterMap,
      ← (Scan.entriesFor_perm scanned dependencies type.name).length_eq, ← filterMap_const]
    simp only [each, decide_eq_true_eq]
  rw [classes, ← List.perm_replicate, ← unsorted]
  exact (List.mergeSort_perm types _).filter _

theorem entriesFor_pos (listed : ofScan (.ofArchives scanned dependencies) rootName = .ok catalog)
    (member : type ∈ catalog.classes) : 0 < (Archive.entriesFor scanned type.name).length := by
  have own : type ∈ catalog.classes.filter (·.name = type.name) := by simpa using member
  rw [classes_repeated listed member] at own
  exact Nat.pos_of_ne_zero (List.mem_replicate.mp own).1

theorem increasing_iff (listed : ofScan (.ofArchives scanned dependencies) rootName = .ok catalog) :
    catalog.classes.Pairwise (·.canonicalName < ·.canonicalName) ↔
      ∀ type ∈ catalog.classes, (Archive.entriesFor scanned type.name).length = 1 := by
  constructor
  · intro increasing type member
    have own := increasing.filter (·.name = type.name)
    rw [classes_repeated listed member, List.pairwise_replicate] at own
    have few := own.resolve_right (String.lt_irrefl _)
    have some := entriesFor_pos listed member
    omega
  · intro single
    obtain ⟨-, -, types, -, classes⟩ := ofScan_eq_ok_iff.mp listed
    have sorted : catalog.classes.Pairwise (·.canonicalName ≤ ·.canonicalName) := by
      rw [classes]
      exact Descriptor.pairwise_sortedBy ResolvedType.canonicalName types
    have distinct : catalog.classes.Pairwise (·.canonicalName ≠ ·.canonicalName) := by
      rw [List.pairwise_iff_forall_sublist]
      intro first second inside same
      have member : first ∈ catalog.classes := inside.subset (by simp)
      obtain rfl := eq_of_canonicalName_eq listed member (inside.subset (by simp)) same
      have own := inside.filter (·.name = first.name)
      rw [classes_repeated listed member, single first member] at own
      simpa using own.length_le
    exact sorted.imp₂ (fun _ _ le ne => Std.lt_of_le_of_ne le ne) distinct

end Catalog

namespace Factory

variable {overrides : OverrideTable} {classes : List ResolvedType} {type : ResolvedType}
  {name : String} {count : Nat}

theorem one_lt_iff (own : classes.filter (·.name = type.name) = List.replicate count type) :
    1 < count ↔ ∃ i j : Nat, j < i ∧ classes[j]? = some type ∧ classes[i]? = some type := by
  have apart : count ≤ 1 ↔
      classes.Pairwise fun a b => a.name = type.name → b.name = type.name → False := by
    have own := congrArg (List.Pairwise fun _ _ => False) own
    rw [List.pairwise_filter, List.pairwise_replicate] at own
    simpa using own.to_iff.symm
  have here {i : Nat} {other : ResolvedType} (placed : classes[i]? = some other)
      (same : other.name = type.name) : classes[i]? = some type := by
    have member : other ∈ classes.filter (·.name = type.name) := by
      simpa [same] using List.mem_of_getElem? placed
    rw [own] at member
    rw [placed, (List.mem_replicate.mp member).2]
  rw [← Nat.not_le, apart, List.pairwise_iff_getElem]
  push Not
  constructor
  · rintro ⟨j, i, belowJ, belowI, below, first, second, -⟩
    exact ⟨i, j, below, here (List.getElem?_eq_getElem belowJ) first,
      here (List.getElem?_eq_getElem belowI) second⟩
  · rintro ⟨i, j, below, first, second⟩
    obtain ⟨belowJ, first⟩ := List.getElem?_eq_some_iff.mp first
    obtain ⟨belowI, second⟩ := List.getElem?_eq_some_iff.mp second
    exact ⟨j, i, belowJ, belowI, below, congrArg ResolvedType.name first,
      congrArg ResolvedType.name second, trivial⟩

theorem eq_warned_of_warning? {result : Outcome} {warning : Warning}
    (warns : result.warning? = some warning) : result = .warned warning := by
  cases result with
  | warned other => rw [Option.some.inj warns]
  | made => cases warns
  | leftOut => cases warns

theorem factoryCollision_holder_inj {className holder other : String}
    (same : Warning.factoryCollision name className holder =
      Warning.factoryCollision name className other) : holder = other := by
  simpa [Warning.factoryCollision] using same

/-- A class collides with itself if it is there again after it has been given its name. -/
theorem collides_with_itself_iff
    (told : ∀ a ∈ classes, ∀ b ∈ classes, a.canonicalName = b.canonicalName → a = b)
    (own : classes.filter (·.name = type.name) = List.replicate count type)
    (member : type ∈ classes) (named : nameFor? type overrides = some name) :
    .factoryCollision name type.canonicalName type.canonicalName ∈ (ofClasses classes overrides).2 ↔
      1 < count ∧ Java.isFreeIdentifier name = true ∧ holder? overrides classes name = some type := by
  rw [ofClasses_eq_outcomes, one_lt_iff own]
  constructor
  · intro warned
    obtain ⟨result, listed, warns⟩ := List.mem_filterMap.mp warned
    obtain ⟨i, placed⟩ := List.mem_iff_getElem?.mp listed
    rw [getElem?_outcomes] at placed
    obtain ⟨later, here, rfl⟩ := Option.map_eq_some_iff.mp placed
    have turns := eq_warned_of_warning? warns
    obtain ⟨asked, namedToo, ⟨-, same⟩ | ⟨free, holder, held, same⟩⟩ :=
      outcome_eq_warned_iff.mp turns
    · exact absurd (congrArg Warning.code same) (by simp [Warning.factoryCollision,
        Warning.reservedFactory])
    obtain rfl : type = later := told type member later (List.mem_of_getElem? here)
      (Option.some.inj (congrArg Warning.className same))
    obtain rfl := Option.some.inj (named.symm.trans namedToo)
    obtain ⟨j, below, first, -⟩ := holder?_take_eq_some_iff.mp held
    obtain rfl : type = holder := told type member holder (List.mem_of_getElem? first)
      (factoryCollision_holder_inj same)
    exact ⟨⟨i, j, below, first, here⟩, free, (List.take_prefix i classes).find?_eq_some held⟩
  · rintro ⟨⟨i, j, below, first, here⟩, free, held⟩
    have before : type ∈ classes.take i :=
      List.mem_of_getElem? ((List.getElem?_take_of_lt below).trans first)
    have asked : (holder? overrides (classes.take i) name).isSome = true :=
      List.find?_isSome.mpr ⟨type, before, decide_eq_true named⟩
    obtain ⟨holder, found⟩ := Option.isSome_iff_exists.mp asked
    obtain rfl : type = holder :=
      Option.some.inj (held.symm.trans ((List.take_prefix i classes).find?_eq_some found))
    refine List.mem_filterMap.mpr ⟨.warned _, List.mem_of_getElem? (i := i) ?_, rfl⟩
    rw [getElem?_outcomes, here, Option.map_some, outcome_of_held named free found]

end Factory

namespace Generator

open Candidate

variable {generator : Generator} {scan : Scan} {analysis : Analysis} {type : ResolvedType}

theorem exists_catalog_of_analyzeScan (analyzed : generator.analyzeScan scan = .ok analysis) :
    ∃ catalog, generator.catalog scan = .ok catalog ∧ analysis.classes = catalog.classes := by
  obtain ⟨catalog, listed, result⟩ := bind_eq_ok.mp analyzed
  obtain ⟨_, -, same⟩ := bind_eq_ok.mp (mapError_eq_ok.mp result)
  cases same
  exact ⟨catalog, listed, rfl⟩

def keptOf (generator : Generator) (lib : Library) (root type : ResolvedType) : List Candidate :=
  Analysis.kept generator.overrides type (Analysis.own lib root generator.effectiveOracle type)

theorem keptOf_sublist (generator : Generator) (lib : Library) (root type : ResolvedType) :
    (generator.keptOf lib root type).Sublist
      (Analysis.own lib root generator.effectiveOracle type) := by
  unfold keptOf Analysis.kept
  split
  · exact List.nil_sublist _
  · exact List.filter_sublist

theorem declaring_of_mem_keptOf {lib : Library} {root : ResolvedType} {c : Candidate}
    (member : c ∈ generator.keptOf lib root type) : c.declaring = type := by
  obtain ⟨m, -, made⟩ := List.mem_filterMap.mp ((keptOf_sublist ..).subset member)
  exact (origin_of_made? made).1

theorem keptOf_methods_subperm (generator : Generator) (lib : Library) (root type : ResolvedType) :
    ((generator.keptOf lib root type).map (·.method)).Subperm type.methods := by
  have kept := (keptOf_sublist generator lib root type).map (·.method)
  rw [Analysis.own, map_method_filterMap] at kept
  refine kept.subperm.trans ((List.mergeSort_perm _ _).subperm.trans ?_)
  exact List.filter_sublist.subperm

theorem candidatesOf_eq (analyzed : generator.analyzeScan scan = .ok analysis) {count : Nat}
    (own : analysis.classes.filter (·.name = type.name) = List.replicate count type) :
    analysis.candidatesOf type =
      (List.replicate count (generator.keptOf scan.library analysis.root type)).flatten := by
  have alike : ∀ other ∈ analysis.classes, ∀ c ∈ generator.keptOf scan.library analysis.root other,
      decide (c.declaring.name = type.name) = decide (other.name = type.name) := by
    intro other _ c member
    rw [declaring_of_mem_keptOf member]
  rw [Analysis.candidatesOf, (readOff_of_analyzeScan analyzed).candidates]
  exact (filter_flatMap_of_alike alike).trans (own ▸ List.flatMap_replicate)

/-- What there is of a class that is in a catalog: its candidates are there once for each entry that is
for it, and a second entry makes it collide with itself if the name of its factory is its own. -/
structure Repeats (generator : Generator) (scanned : List Archive) (analysis : Analysis)
    (type : ResolvedType) : Prop where
  listed : analysis.classes.filter (·.name = type.name) =
    List.replicate (Archive.entriesFor scanned type.name).length type
  candidates : ∃ methods : List Method, methods.Subperm type.methods ∧
    (analysis.candidatesOf type).map (·.method) =
      (List.replicate (Archive.entriesFor scanned type.name).length methods).flatten
  collides : ∀ name, Factory.nameFor? type generator.overrides = some name →
    (.factoryCollision name type.canonicalName type.canonicalName ∈
        (Factory.ofClasses analysis.classes generator.overrides).2 ↔
      1 < (Archive.entriesFor scanned type.name).length ∧ Java.isFreeIdentifier name = true ∧
        Factory.holder? generator.overrides analysis.classes name = some type)

/-- Once there is a catalog, each of its classes is there as often as there are scanned entries for it,
and so are its candidates. The canonical names are strictly increasing if no class has two entries, which
is so where entries are spelled as their names say. -/
theorem catalogued_by_entry (generator : Generator) (scanned dependencies : List Archive)
    (catalog : Catalog)
    (listed : generator.catalog (.ofArchives scanned dependencies) = .ok catalog) :
    ∃ analysis, generator.analyzeScan (.ofArchives scanned dependencies) = .ok analysis ∧
      analysis.classes = catalog.classes ∧
      (∀ type ∈ catalog.classes, generator.Repeats scanned analysis type) ∧
      (catalog.classes.Pairwise (·.canonicalName < ·.canonicalName) ↔
        ∀ type ∈ catalog.classes, (Archive.entriesFor scanned type.name).length = 1) ∧
      ((∀ entry ∈ scanned.flatMap (·.entries.keys), ∀ name, binaryName? entry = some name →
          entry = entryName name) →
        catalog.classes.Pairwise (·.canonicalName < ·.canonicalName)) := by
  obtain ⟨analysis, analyzed⟩ := exists_analysis_of_catalog listed
  obtain ⟨other, listedToo, classes⟩ := exists_catalog_of_analyzeScan analyzed
  obtain rfl : catalog = other := Except.ok.inj (listed.symm.trans listedToo)
  have ofScan := mapError_eq_ok.mp listed
  refine ⟨analysis, analyzed, classes, fun type member => ?_, Catalog.increasing_iff ofScan,
    fun spelled => (Catalog.increasing_iff ofScan).mpr fun type member => ?_⟩
  · have own := Catalog.classes_repeated ofScan member
    rw [← classes] at own
    have methods := congrArg (List.map (·.method)) (candidatesOf_eq analyzed own)
    rw [List.map_flatten, List.map_replicate] at methods
    refine ⟨own, ⟨_, keptOf_methods_subperm .., methods⟩, fun name named => ?_⟩
    refine Factory.collides_with_itself_iff (fun a inside b insideToo => ?_) own
      (classes ▸ member) named
    exact Catalog.eq_of_canonicalName_eq ofScan (classes ▸ inside) (classes ▸ insideToo)
  · have some := Catalog.entriesFor_pos ofScan member
    have few := Archive.entriesFor_length_le_one spelled type.name
    omega

end Generator

theorem Storefront.classes_listed_once : ∃ catalog analysis,
    generator.catalog (.ofArchives [archive] []) = .ok catalog ∧
    generator.analyzeScan (.ofArchives [archive] []) = .ok analysis ∧
    catalog.classes.Pairwise (·.canonicalName < ·.canonicalName) ∧
    ∀ type ∈ catalog.classes, generator.Repeats [archive] analysis type ∧
      (Archive.entriesFor [archive] type.name).length = 1 := by
  obtain ⟨_, analyzed⟩ := spans.exists_analysis
  obtain ⟨catalog, listed, -⟩ := Generator.exists_catalog_of_analyzeScan analyzed
  obtain ⟨analysis, analyzed, -, repeats, increasing, spelled⟩ :=
    Generator.catalogued_by_entry generator [archive] [] catalog listed
  have respelled : ∀ entry ∈ [archive].flatMap (·.entries.keys),
      (binaryName? entry).map entryName = some entry := by
    decide +kernel
  have once : catalog.classes.Pairwise (·.canonicalName < ·.canonicalName) :=
    spelled fun entry key name named => by simpa [named, eq_comm] using respelled entry key
  exact ⟨catalog, analysis, listed, analyzed, once, fun type member =>
    ⟨repeats type member, increasing.mp once type member⟩⟩

/-! A button with two entries, one spelled with slashes and one with dots. -/

namespace Twofold

open Sample (setter)

def widgetDecl : ClassDecl :=
  ⟨"com.example.Widget", false, ["public"], some Java.objectName, [], []⟩

def setText : Method :=
  setter "setText" "java.lang.String"

def buttonDecl : ClassDecl :=
  ⟨"com.example.Button", false, ["public"], some widgetDecl.name, [], [setText]⟩

def archive : Archive :=
  ⟨"lib.json", [("com/example/Widget.class", widgetDecl), ("com/example/Button.class", buttonDecl),
    ("com.example.Button.class", buttonDecl)]⟩

def buttonValue : Value :=
  .table [("superclass", .text widgetDecl.name), ("methods", .list [.table [("name", .text "setText"),
    ("parameters", .list [.text "java.lang.String"])]])]

def given : Entries Value :=
  [("com/example/Widget.class", .table []), ("com/example/Button.class", buttonValue),
    ("com.example.Button.class", buttonValue)]

def scan : Scan :=
  .ofArchives [archive] []

def generator : Generator :=
  ⟨.ofNames widgetDecl.name "com.example.dsl" "DSL", .empty, some .silent⟩

def names : List String :=
  [widgetDecl.name, buttonDecl.name]

theorem spans : scan.Spans generator.config.root names where
  listed name := by
    have listed : Catalog.candidateNames ([archive].flatMap fun archive => archive.entries.keys) =
        [widgetDecl.name, buttonDecl.name, buttonDecl.name] := by
      decide +kernel
    rw [scan, Catalog.mem_candidateNames_ofArchives, listed]
    simp [names]
  rootListed := by decide +kernel
  rootIsClass := by decide +kernel
  near := by decide +kernel
  parameters := by decide +kernel

def widget : ResolvedType :=
  scan.library.typeOf widgetDecl.name

def button : ResolvedType :=
  scan.library.typeOf buttonDecl.name

theorem classesWithin_eq : generator.classesWithin scan names = [widget, button] := by
  have eligible : ∀ type ∈ names.map (scan.library.typeOf),
      Catalog.isEligible type (scan.library.typeOf generator.config.root) = true := by
    decide +kernel
  exact List.filter_eq_self.mpr eligible

theorem button_read : button.methods = [setText] ∧
    (generator.madeWithin scan button setText).isSome = true ∧
    (Archive.entriesFor [archive] button.name).length = 2 := by
  decide +kernel

theorem factories_named : Factory.nameFor? widget .empty = some "widget" ∧
    Factory.nameFor? button .empty = some "button" := by
  decide +kernel

variable {analysis : Analysis}

theorem button_mem (analyzed : generator.analyzeScan scan = .ok analysis) :
    button ∈ analysis.classes := by
  simp [spans.mem_classes analyzed, classesWithin_eq]

theorem button_kept (analyzed : generator.analyzeScan scan = .ok analysis) :
    (generator.keptOf scan.library analysis.root button).map (·.method) = [setText] := by
  obtain ⟨methods, made, -⟩ := button_read
  have inside : button ∈ generator.classesWithin scan names := by simp [classesWithin_eq]
  have makes : (Candidate.made? scan.library analysis.root generator.effectiveOracle button
      setText).isSome = true := by
    rw [spans.root_eq analyzed, spans.made?_eq inside (by simp [methods])]
    exact made
  have all : generator.keptOf scan.library analysis.root button =
      Analysis.own scan.library analysis.root generator.effectiveOracle button :=
    Analysis.kept_empty _ _
  rw [all, Analysis.own, Candidate.map_method_filterMap, methods]
  simp [makes, Method.inOrder]

theorem button_holds (analyzed : generator.analyzeScan scan = .ok analysis) :
    Factory.holder? generator.overrides analysis.classes "button" = some button := by
  have asked : (Factory.holder? generator.overrides analysis.classes "button").isSome = true :=
    List.find?_isSome.mpr ⟨button, button_mem analyzed, decide_eq_true factories_named.2⟩
  obtain ⟨holder, found⟩ := Option.isSome_iff_exists.mp asked
  have member := List.mem_of_find?_eq_some found
  have named := List.find?_some found
  rw [spans.mem_classes analyzed, classesWithin_eq] at member
  rcases List.mem_cons.mp member with rfl | member
  · exact absurd (of_decide_eq_true named) (by simp [generator, factories_named.1])
  · rw [found, List.mem_singleton.mp member]

/-- The archive is accepted, and the button is listed twice: its text has two candidates, and its
factory's name is taken by itself. -/
theorem button_listed_twice :
    (given.mapM (Archive.readEntry archive.path)).toOption = some archive.entries ∧
    ∃ catalog analysis, generator.catalog (.ofArchives [archive] []) = .ok catalog ∧
      generator.analyzeScan (.ofArchives [archive] []) = .ok analysis ∧
      ¬ catalog.classes.Pairwise (·.canonicalName < ·.canonicalName) ∧
      button.methods = [setText] ∧
      (analysis.candidatesOf button).map (·.method) = [setText, setText] ∧
      .factoryCollision "button" button.canonicalName button.canonicalName ∈
        (Factory.ofClasses analysis.classes generator.overrides).2 := by
  refine ⟨by decide +kernel, ?_⟩
  obtain ⟨analysis, analyzed⟩ := spans.exists_analysis
  obtain ⟨catalog, listed, classes⟩ := Generator.exists_catalog_of_analyzeScan analyzed
  have ofScan := mapError_eq_ok.mp listed
  have member : button ∈ catalog.classes := classes ▸ button_mem analyzed
  obtain ⟨methods, -, two⟩ := button_read
  have own := Catalog.classes_repeated ofScan member
  rw [← classes, two] at own
  refine ⟨catalog, analysis, listed, analyzed, fun increasing => ?_, methods, ?_, ?_⟩
  · have single := (Catalog.increasing_iff ofScan).mp increasing button member
    rw [two] at single
    cases single
  · rw [Generator.candidatesOf_eq analyzed own, List.map_flatten, List.map_replicate,
      button_kept analyzed]
    rfl
  · refine (Factory.collides_with_itself_iff (fun a inside b insideToo => ?_) own
      (button_mem analyzed) factories_named.2).mpr ⟨by decide, by decide +kernel, button_holds analyzed⟩
    exact Catalog.eq_of_canonicalName_eq ofScan (classes ▸ inside) (classes ▸ insideToo)

end Twofold

end WidgetDsl
