import WidgetDsl.Proofs.Closure
import WidgetDsl.Proofs.EntryPoints
import WidgetDsl.Proofs.Retelling

/-!
What becomes of the entries of a scan. The catalog is made with a loader that keeps what it resolves,
failures too; yet each entry turns out as it would on its own: it is in the catalog, is warned of, or
does not count.
-/

namespace WidgetDsl

open Relation

namespace Loader

/-- As the catalog examines a name, and what is resolved on the way is kept. -/
def examine (loader : Loader) (root : ResolvedType) (name : String) :
    Except ResolveError (Option ResolvedType) × Loader :=
  match loader.resolve name with
  | (.error fault, loader) => (.error fault, loader)
  | (.ok type, loader) =>
    if Catalog.isEligible type root then
      match loader.link type with
      | (.ok (), loader) => (.ok (some type), loader)
      | (.error fault, loader) => (.error fault, loader)
    else (.ok none, loader)

def ofNames (root : ResolvedType) : Loader → List String →
    Except CatalogFault (List ResolvedType × List Warning) × Loader
  | loader, [] => (.ok ([], []), loader)
  | loader, name :: rest =>
    match loader.examine root name with
    | (.error (.cyclic other), loader) => (.error (.cyclic other), loader)
    | (.error (.unresolved _ missing), loader) =>
      let (listed, loader) := ofNames root loader rest
      (listed.map fun (types, warnings) => (types, .unresolvableClass name missing :: warnings), loader)
    | (.ok none, loader) => ofNames root loader rest
    | (.ok (some type), loader) =>
      let (listed, loader) := ofNames root loader rest
      (listed.map fun (types, warnings) => (type :: types, warnings), loader)

def catalog (loader : Loader) (entries : List String) (rootName : String) :
    Except CatalogFault Catalog × Loader :=
  match loader.resolve rootName with
  | (.error (.cyclic name), loader) => (.error (.cyclic name), loader)
  | (.error fault, loader) => (.error (.rootUnresolved rootName fault), loader)
  | (.ok root, loader) =>
    if root.kind = .classType then
      let (listed, loader) := ofNames root loader (Catalog.candidateNames (Descriptor.sorted entries))
      (listed.map fun (types, warnings) =>
        { root, classes := Catalog.inOrder types, warnings }, loader)
    else (.error (.rootNotClass rootName), loader)

variable {lib : Library} {loader : Loader}

theorem examine_idle (idle : Idle lib loader) (root : ResolvedType) (name : String) :
    (loader.examine root name).1 = Catalog.examine lib root name ∧
      Idle lib (loader.examine root name).2 := by
  obtain ⟨resolved, idleAfter⟩ := resolve_idle idle name
  have links (type : ResolvedType) := link_idle idleAfter type
  unfold examine Catalog.examine
  rw [← resolved]
  match loader.resolve name, idleAfter, links with
  | (.error fault, after), idleAfter, _ => exact ⟨rfl, idleAfter⟩
  | (.ok type, after), idleAfter, links =>
    obtain ⟨linked, idleLast⟩ := links type
    simp only [bind, Except.bind]
    split
    · rw [← linked]
      match after.link type, idleLast with
      | (.ok (), last), idleLast => exact ⟨rfl, idleLast⟩
      | (.error fault, last), idleLast => exact ⟨rfl, idleLast⟩
    · exact ⟨rfl, idleAfter⟩

theorem ofNames_idle (idle : Idle lib loader) (root : ResolvedType) (names : List String) :
    (ofNames root loader names).1 = Catalog.ofNames lib root names ∧
      Idle lib (ofNames root loader names).2 := by
  induction names generalizing loader with
  | nil => exact ⟨rfl, idle⟩
  | cons name rest ih =>
    obtain ⟨examined, idleAfter⟩ := examine_idle idle root name
    -- failures that are kept do not count here: the loader is idle again after each name
    obtain ⟨later, idleLast⟩ := ih idleAfter
    rw [Catalog.ofNames, ← examined, ← later, ofNames]
    generalize loader.examine root name = result at idleAfter idleLast ⊢
    rcases result with ⟨(_ | _) | (_ | _), after⟩
    · exact ⟨rfl, idleLast⟩
    · exact ⟨rfl, idleAfter⟩
    · exact ⟨rfl, idleLast⟩
    · exact ⟨rfl, idleLast⟩

/-- Between two calls a loader makes the catalog of the scan, whatever it keeps. -/
theorem catalog_idle (idle : Idle lib loader) (entries : List String) (rootName : String) :
    (loader.catalog entries rootName).1 = Catalog.ofScan ⟨lib, Descriptor.sorted entries⟩ rootName ∧
      Idle lib (loader.catalog entries rootName).2 := by
  obtain ⟨resolved, idleAfter⟩ := resolve_idle idle rootName
  have lists (root : ResolvedType) := ofNames_idle idleAfter root
    (Catalog.candidateNames (Descriptor.sorted entries))
  unfold catalog Catalog.ofScan Catalog.resolveRoot
  rw [← resolved]
  match loader.resolve rootName, idleAfter, lists with
  | (.error (.cyclic name), _), idleAfter, _ => exact ⟨rfl, idleAfter⟩
  | (.error (.unresolved name missing), _), idleAfter, _ => exact ⟨rfl, idleAfter⟩
  | (.ok root, after), idleAfter, lists =>
    obtain ⟨listed, idleLast⟩ := lists root
    by_cases isClass : root.kind = .classType
    · simp only [isClass, if_true, bind, Except.bind, ← listed]
      refine ⟨?_, idleLast⟩
      cases (ofNames root after (Catalog.candidateNames (Descriptor.sorted entries))).1 <;> rfl
    · simp only [isClass, if_false]
      exact ⟨rfl, idleAfter⟩

end Loader

namespace Catalog

variable {lib : Library} {root type : ResolvedType} {name : String}

def nameOf? (entry : String) : Option String :=
  (binaryName? entry).filter fun name => '$' ∉ name.toList

theorem candidateNames_eq (entries : List String) :
    candidateNames entries = entries.filterMap nameOf? := by
  rw [candidateNames, List.filter_filterMap]
  rfl

/-- Whether an entry is left out for want of something: its name does not resolve, or is of an
eligible class with a method that takes what does not. -/
def leavesOut (lib : Library) (root : ResolvedType) (entry : String) : Bool :=
  match nameOf? entry with
  | none => false
  | some name =>
    match lib.resolve name with
    | .error _ => true
    | .ok type => isEligible type root &&
      type.methods.any fun m => m.parameters.any fun parameter => !(lib.resolve parameter).isOk

theorem isEligible_iff (loaded : lib.Loaded type) (rootLoaded : lib.Loaded root) :
    isEligible type root = true ↔ type.kind = .classType ∧ type.isPublic = true ∧
      '$' ∉ type.name.toList ∧ (type = root ∨ TransGen ResolvedType.Under type root) := by
  have named : type.name = root.name ↔ type = root :=
    ⟨fun same => loaded.eq_of_name_eq rootLoaded same, congrArg ResolvedType.name⟩
  simp [isEligible, ResolvedType.isNested, named, Library.isSubtypeOf_iff loaded rootLoaded,
    and_assoc]

theorem isOk_link (lib : Library) (type : ResolvedType) : (lib.link type).isOk =
    type.methods.all fun m => m.parameters.all fun parameter => (lib.resolve parameter).isOk := by
  have isOk {ε α : Type} (result : Except ε α) : result.isOk = true ↔ ∃ a, result = .ok a := by
    cases result <;> simp [Except.isOk, Except.toBool]
  rw [Bool.eq_iff_iff, isOk]
  simp only [List.all_eq_true, isOk, ← Library.link_eq_ok_iff]
  constructor
  · rintro ⟨_, linked⟩
    exact linked
  · intro linked
    exact ⟨(), linked⟩

theorem leavesOut_eq {entry : String} (named : nameOf? entry = some name)
    (acyclic : ∀ again, examine lib root name ≠ .error (.cyclic again)) :
    leavesOut lib root entry = (warning? lib root name).isSome := by
  have links (type : ResolvedType) : (type.methods.any fun m => m.parameters.any fun parameter =>
      !(lib.resolve parameter).isOk) = !(lib.link type).isOk := by
    simp only [isOk_link, List.not_all_eq_any_not]
  -- both go by what resolving and linking answer, except that a warning is not for cycles
  simp only [leavesOut, named, warning?, links]
  simp only [examine] at acyclic ⊢
  generalize lib.resolve name = resolved at acyclic ⊢
  rcases resolved with (_ | again) | type
  · rfl
  · exact absurd rfl (acyclic again)
  · simp only [bind, Except.bind] at acyclic ⊢
    by_cases eligible : isEligible type root = true
    · simp only [eligible, if_true] at acyclic ⊢
      generalize lib.link type = linked at acyclic ⊢
      rcases linked with (_ | again) | _
      · rfl
      · exact absurd rfl (acyclic again)
      · rfl
    · simp only [eligible]
      rfl

theorem forall₂_filterMap {α β : Type} (f : α → Option β) (items : List α) :
    List.Forall₂ (fun a b => f a = some b) (items.filter fun a => (f a).isSome)
      (items.filterMap f) := by
  induction items with
  | nil => exact .nil
  | cons a rest ih =>
    cases found : f a with
    | none => simpa [found] using ih
    | some b => simpa [found] using ih

theorem warnings_forall₂ {entries : List String} {types : List ResolvedType}
    {warnings : List Warning}
    (listed : ofNames lib root (candidateNames entries) = .ok (types, warnings)) :
    List.Forall₂ (fun entry warning => ∃ name missing, nameOf? entry = some name ∧
        warning = .unresolvableClass name missing)
      (entries.filter (leavesOut lib root)) warnings := by
  have acyclic := not_cyclic_of_ofNames listed
  rw [(ofNames_eq listed).2, candidateNames_eq, List.filterMap_filterMap]
  have left : entries.filter (leavesOut lib root) =
      entries.filter fun entry => ((nameOf? entry).bind (warning? lib root)).isSome := by
    refine List.filter_congr fun entry member => ?_
    cases named : nameOf? entry with
    | none => simp [leavesOut, named]
    | some name =>
      refine leavesOut_eq named (acyclic name ?_)
      rw [candidateNames_eq]
      exact List.mem_filterMap.mpr ⟨entry, member, named⟩
  rw [left]
  refine (forall₂_filterMap _ entries).imp fun entry warning warned => ?_
  obtain ⟨name, named, warned⟩ := Option.bind_eq_some_iff.mp warned
  refine ⟨name, ?_⟩
  unfold warning? at warned
  split at warned
  · rename_i missing _
    exact ⟨missing, named, (Option.some.inj warned).symm⟩
  · cases warned

theorem cyclic_of_ofNames {names : List String} {fault : CatalogFault}
    (failed : ofNames lib root names = .error fault) : ∃ again, fault = .cyclic again := by
  induction names with
  | nil => cases failed
  | cons name rest ih =>
    unfold ofNames at failed
    split at failed
    · cases failed
      exact ⟨_, rfl⟩
    · exact ih (map_eq_error.mp failed)
    · exact ih failed
    · exact ih (map_eq_error.mp failed)

variable {scan : Scan} {rootName : String}

theorem fails_iff (acyclic : ∀ again, ofScan scan rootName ≠ .error (.cyclic again)) :
    (∃ fault, ofScan scan rootName = .error fault) ↔
      ¬ ∃ root, scan.library.resolve rootName = .ok root ∧ root.kind = .classType := by
  constructor
  · rintro ⟨fault, failed⟩ ⟨root, rooted⟩
    rcases bind_eq_error.mp failed with unrooted | ⟨found, -, later⟩
    · rw [resolveRoot_eq_ok_iff.mpr rooted] at unrooted
      cases unrooted
    rcases bind_eq_error.mp later with unlisted | ⟨listed, -, made⟩
    · obtain ⟨again, rfl⟩ := cyclic_of_ofNames unlisted
      exact acyclic again failed
    · cases made
  · intro rootless
    cases answer : ofScan scan rootName with
    | error fault => exact ⟨fault, rfl⟩
    | ok catalog =>
      obtain ⟨resolved, isClass, -⟩ := ofScan_eq_ok_iff.mp answer
      exact absurd ⟨catalog.root, resolved, isClass⟩ rootless

theorem mem_classes_iff {catalog : Catalog} (made : ofScan scan rootName = .ok catalog) :
    type ∈ catalog.classes ↔ ∃ entry ∈ scan.entries, ∃ name, binaryName? entry = some name ∧
      '$' ∉ name.toList ∧ scan.library.resolve name = .ok type ∧ type.kind = .classType ∧
      type.isPublic = true ∧ (type = catalog.root ∨ TransGen ResolvedType.Under type catalog.root) ∧
      ∀ m ∈ type.methods, ∀ parameter ∈ m.parameters,
        ∃ found, scan.library.resolve parameter = .ok found := by
  have rootLoaded : scan.library.Loaded catalog.root := ⟨rootName, resolve_root made⟩
  simp only [mem_classes made, examine_eq_some_iff, Library.link_eq_ok_iff, mem_candidateNames]
  constructor
  · rintro ⟨name, ⟨plain, entry, listed, named⟩, resolved, eligible, linked⟩
    obtain ⟨isClass, isPublic, -, within⟩ := (isEligible_iff ⟨name, resolved⟩ rootLoaded).mp eligible
    exact ⟨entry, listed, name, named, plain, resolved, isClass, isPublic, within, linked⟩
  · rintro ⟨entry, listed, name, named, plain, resolved, isClass, isPublic, within, linked⟩
    have spelled : type.name = name := (Library.builds_iff_resolve.mpr resolved).name_eq
    have eligible := (isEligible_iff ⟨name, resolved⟩ rootLoaded).mpr
      ⟨isClass, isPublic, spelled ▸ plain, within⟩
    exact ⟨name, ⟨plain, entry, listed, named⟩, resolved, eligible, linked⟩

end Catalog

namespace Loader

/-- The catalog that a loader makes after it has been called for other things. -/
def catalogAfter (lib : Library) (calls : List Call) (entries : List String) (rootName : String) :
    Except CatalogFault Catalog :=
  (((ofLibrary lib).performAll calls).2.catalog entries rootName).1

theorem catalogAfter_eq (lib : Library) (calls : List Call) (entries : List String)
    (rootName : String) : catalogAfter lib calls entries rootName =
      Catalog.ofScan ⟨lib, Descriptor.sorted entries⟩ rootName :=
  (catalog_idle (performAll_idle (ofLibrary_idle lib) calls).2 entries rootName).1

/-- The catalog of a run is the one that its loader makes of the scanned entries. -/
theorem catalogAfter_ofArchives (scanned dependencies : List Archive) (calls : List Call)
    (rootName : String) :
    catalogAfter (Scan.ofArchives scanned dependencies).library calls
        (Scan.ofArchives scanned dependencies).entries rootName =
      Catalog.ofScan (Scan.ofArchives scanned dependencies) rootName := by
  have again (names : List String) :
      Descriptor.sorted (Descriptor.sorted names) = Descriptor.sorted names :=
    List.mergeSort_of_pairwise (by simpa using Descriptor.sorted_pairwise names)
  rw [catalogAfter_eq, Scan.ofArchives, again]

/-- Unless a cycle ends it, making the catalog of any entries fails only if the root is no class that
resolves. Otherwise each entry turns out on its own, whatever the loader was called for before and
whichever entries come first. -/
theorem catalogued (lib : Library) (calls : List Call) (entries : List String) (rootName : String)
    (acyclic : ∀ again, catalogAfter lib calls entries rootName ≠ .error (.cyclic again)) :
    ((∃ fault, catalogAfter lib calls entries rootName = .error fault) ↔
      ¬ ∃ root, lib.resolve rootName = .ok root ∧ root.kind = .classType) ∧
    ∀ catalog, catalogAfter lib calls entries rootName = .ok catalog →
      lib.resolve rootName = .ok catalog.root ∧
      (∀ type, type ∈ catalog.classes ↔ ∃ entry ∈ entries, ∃ name, binaryName? entry = some name ∧
        '$' ∉ name.toList ∧ lib.resolve name = .ok type ∧ type.kind = .classType ∧
        type.isPublic = true ∧
        (type = catalog.root ∨ TransGen ResolvedType.Under type catalog.root) ∧
        ∀ m ∈ type.methods, ∀ parameter ∈ m.parameters,
          ∃ found, lib.resolve parameter = .ok found) ∧
      catalog.classes.Pairwise (·.canonicalName ≤ ·.canonicalName) ∧
      List.Forall₂ (fun entry warning => ∃ name missing, Catalog.nameOf? entry = some name ∧
          warning = .unresolvableClass name missing)
        ((Descriptor.sorted entries).filter (Catalog.leavesOut lib catalog.root))
        catalog.warnings := by
  rw [catalogAfter_eq] at acyclic ⊢
  refine ⟨Catalog.fails_iff acyclic, fun catalog made => ?_⟩
  obtain ⟨resolved, -, types, listed, classes⟩ := Catalog.ofScan_eq_ok_iff.mp made
  refine ⟨resolved, fun type => ?_, ?_, Catalog.warnings_forall₂ listed⟩
  · simpa only [(Descriptor.sorted_perm entries).mem_iff] using Catalog.mem_classes_iff made
  · rw [classes]
    exact Descriptor.pairwise_sortedBy ResolvedType.canonicalName types

end Loader

/-! A widget, a button that takes an icon that is not there, and a class below one that is not there. -/

namespace Attic

def widgetDecl : ClassDecl :=
  ⟨"com.example.Widget", false, ["public"], some Java.objectName, [], []⟩

def buttonDecl : ClassDecl :=
  ⟨"com.example.Button", false, ["public"], some widgetDecl.name, [],
    [Sample.setter "setIcon" "com.example.Icon"]⟩

def orphanDecl : ClassDecl :=
  ⟨"com.example.Orphan", false, ["public"], some "com.example.Base", [], []⟩

def archive : Archive :=
  Gallery.archive "lib.json" [orphanDecl, widgetDecl, buttonDecl]

def library : Library :=
  ⟨[archive]⟩

structure Read (decl : ClassDecl) : Prop where
  known : library.isNear decl.name = true
  isClass : (library.typeOf decl.name).kind = .classType
  isPublic : (library.typeOf decl.name).isPublic = true
  eligible : Catalog.isEligible (library.typeOf decl.name) (library.typeOf widgetDecl.name) = true
  methods : (library.typeOf decl.name).methods = decl.methods
  named : Catalog.nameOf? (entryName decl.name) = some decl.name

theorem typeOf_read : ∀ decl ∈ [widgetDecl, buttonDecl], Read decl := by
  have all : ∀ decl ∈ [widgetDecl, buttonDecl], library.isNear decl.name = true ∧
      (library.typeOf decl.name).kind = .classType ∧ (library.typeOf decl.name).isPublic = true ∧
      Catalog.isEligible (library.typeOf decl.name) (library.typeOf widgetDecl.name) = true ∧
      (library.typeOf decl.name).methods = decl.methods ∧
      Catalog.nameOf? (entryName decl.name) = some decl.name := by
    decide +kernel
  intro decl member
  obtain ⟨known, isClass, isPublic, eligible, methods, named⟩ := all decl member
  exact { known, isClass, isPublic, eligible, methods, named }

theorem resolve_typeOf {decl : ClassDecl} (declared : decl ∈ [widgetDecl, buttonDecl]) :
    library.resolve decl.name = .ok (library.typeOf decl.name) :=
  Library.resolve_typeOf (typeOf_read decl declared).known

theorem archive_read : library.define? "com.example.Icon" = none ∧
    library.define? "com.example.Base" = none ∧
    library.define? orphanDecl.name = some (.declared orphanDecl "lib.json") ∧
    Catalog.candidateNames archive.entries.keys =
      [orphanDecl.name, widgetDecl.name, buttonDecl.name] := by
  decide +kernel

theorem icon_unresolved :
    ∃ missing, library.resolve "com.example.Icon" = .error (.unresolved "com.example.Icon" missing) := by
  obtain ⟨missing, failed, -⟩ := Library.resolve_of_undefined .refl archive_read.1
  exact ⟨missing, failed⟩

theorem orphan_unresolved :
    ∃ missing, library.resolve orphanDecl.name = .error (.unresolved orphanDecl.name missing) := by
  have lacks := (Library.Lacks.undefined archive_read.2.1).not_buildable
  have first : library.FirstLacking orphanDecl.name "com.example.Base" :=
    ⟨_, [], [], archive_read.2.2.1, rfl, nofun, lacks⟩
  obtain ⟨missing, failed, -⟩ := Library.resolve_of_undefined (.single first) archive_read.2.1
  exact ⟨missing, failed⟩

theorem examine_acyclic {name : String} (again : String)
    (member : name ∈ [orphanDecl.name, widgetDecl.name, buttonDecl.name]) :
    Catalog.examine library (library.typeOf widgetDecl.name) name ≠ .error (.cyclic again) := by
  simp only [List.mem_cons, List.not_mem_nil, or_false] at member
  rcases member with rfl | rfl | rfl
  · obtain ⟨missing, failed⟩ := orphan_unresolved
    simp [Catalog.examine, failed, bind, Except.bind]
  · have linked : library.link (library.typeOf widgetDecl.name) = .ok () := by
      rw [Library.link, (typeOf_read widgetDecl (by simp)).methods]
      rfl
    rw [Catalog.examine_of_linked (resolve_typeOf (by simp)) linked]
    simp
  · obtain ⟨missing, failed⟩ := icon_unresolved
    have parameters : (library.typeOf buttonDecl.name).methods.flatMap (·.parameters) =
        ["com.example.Icon"] := by
      rw [(typeOf_read buttonDecl (by simp)).methods]
      rfl
    have resolved : library.resolve buttonDecl.name = .ok (library.typeOf buttonDecl.name) :=
      resolve_typeOf (by simp)
    have eligible := (typeOf_read buttonDecl (by simp)).eligible
    simp [Catalog.examine, resolved, eligible, Library.link, parameters, Library.linkAll, failed,
      bind, Except.bind, ResolveError.ofMissing]

theorem exists_catalog (calls : List Loader.Call) : ∃ catalog,
    Loader.catalogAfter library calls archive.entries.keys widgetDecl.name = .ok catalog := by
  have acyclic : ∀ name ∈ Catalog.candidateNames (Descriptor.sorted archive.entries.keys),
      ∀ again, Catalog.examine library (library.typeOf widgetDecl.name) name ≠
        .error (.cyclic again) := by
    intro name member again
    have listed : name ∈ Catalog.candidateNames archive.entries.keys := by
      simpa only [Catalog.mem_candidateNames, (Descriptor.sorted_perm _).mem_iff] using member
    rw [archive_read.2.2.2] at listed
    exact examine_acyclic again listed
  have resolved : library.resolve widgetDecl.name = .ok (library.typeOf widgetDecl.name) :=
    resolve_typeOf (by simp)
  have isClass := (typeOf_read widgetDecl (by simp)).isClass
  rw [Loader.catalogAfter_eq]
  exact Catalog.exists_ofScan resolved isClass acyclic

theorem button_leftOut :
    Catalog.leavesOut library (library.typeOf widgetDecl.name) (entryName buttonDecl.name) = true := by
  have read := typeOf_read buttonDecl (by simp)
  have resolved : library.resolve buttonDecl.name = .ok (library.typeOf buttonDecl.name) :=
    resolve_typeOf (by simp)
  obtain ⟨missing, failed⟩ := icon_unresolved
  have lacking : (buttonDecl.methods.any fun m => m.parameters.any fun parameter =>
      !(library.resolve parameter).isOk) = true := by
    simp [buttonDecl, Sample.setter, failed, Except.isOk, Except.toBool]
  simp only [Catalog.leavesOut, read.named, resolved, read.eligible, read.methods, lacking,
    Bool.and_self]

theorem button_warned :
    (∀ again, Loader.catalogAfter library [.resolve orphanDecl.name] archive.entries.keys
      widgetDecl.name ≠ .error (.cyclic again)) ∧
    ∃ catalog, Loader.catalogAfter library [.resolve orphanDecl.name] archive.entries.keys
        widgetDecl.name = .ok catalog ∧
      library.typeOf widgetDecl.name ∈ catalog.classes ∧
      ∃ missing, .unresolvableClass buttonDecl.name missing ∈ catalog.warnings := by
  obtain ⟨catalog, made⟩ := exists_catalog [.resolve orphanDecl.name]
  have acyclic : ∀ again, Loader.catalogAfter library [.resolve orphanDecl.name] archive.entries.keys
      widgetDecl.name ≠ .error (.cyclic again) := by
    simp [made]
  obtain ⟨resolved, classes, -, warned⟩ := (Loader.catalogued library [.resolve orphanDecl.name]
    archive.entries.keys widgetDecl.name acyclic).2 catalog made
  have read := typeOf_read widgetDecl (by simp)
  rw [resolve_typeOf (by simp)] at resolved
  obtain ⟨named, plain⟩ := Option.filter_eq_some_iff.mp read.named
  refine ⟨acyclic, catalog, made, (classes _).mpr ⟨entryName widgetDecl.name, ?_, widgetDecl.name,
    named, by simpa using plain, resolve_typeOf (by simp), read.isClass, read.isPublic,
    .inl (Except.ok.inj resolved), ?_⟩, ?_⟩
  · simp [archive, Gallery.archive, Entries.keys]
  · intro m declared
    rw [read.methods] at declared
    simp [widgetDecl] at declared
  · rw [← Except.ok.inj resolved] at warned
    have entry : entryName buttonDecl.name ∈ (Descriptor.sorted archive.entries.keys).filter
        (Catalog.leavesOut library (library.typeOf widgetDecl.name)) := by
      rw [List.mem_filter, (Descriptor.sorted_perm _).mem_iff]
      exact ⟨by simp [archive, Gallery.archive, Entries.keys], button_leftOut⟩
    obtain ⟨warning, listed, name, missing, same, rfl⟩ := exists_left_of_forall₂ warned.flip entry
    rw [(typeOf_read buttonDecl (by simp)).named] at same
    cases same
    exact ⟨missing, listed⟩

end Attic

end WidgetDsl
