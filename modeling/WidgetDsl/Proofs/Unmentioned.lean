import WidgetDsl.Proofs.FullDescriptors
import WidgetDsl.Proofs.Retelling

/-!
Classes that nothing mentions. An entry that is added for such a class takes part in nothing but the
catalog: if its class is not among those there, it leaves no trace but a warning where it lacks
something.
-/

namespace WidgetDsl

namespace Java

variable {name component : String}

theorem elementOf_component (array : componentName? name = some component) :
    (elementOf component).1 = (elementOf name).1 := by
  unfold componentName? at array
  split at array
  · rename_i rest reversed
    cases array
    simp [elementOf, reversed, stripArrays]
  · cases array

theorem elementOf_of_plain (plain : componentName? name = none) : (elementOf name).1 = name := by
  unfold componentName? at plain
  split at plain
  · cases plain
  · rename_i different
    rw [elementOf, stripArrays.eq_2 _ different]
    simp

end Java

namespace Archive

/-- The class entries hold the classes that they say. -/
def WellNamed (archive : Archive) : Prop :=
  ∀ entry ∈ archive.entries, ∀ name ∈ binaryName? entry.1, entry.2.name = name

instance (archive : Archive) : Decidable archive.WellNamed :=
  inferInstanceAs (Decidable (∀ entry ∈ archive.entries, ∀ name ∈ binaryName? entry.1,
    entry.2.name = name))

theorem wellNamed_of_read {store : Store} {path : Path} {archive : Archive}
    (result : read store path = .ok archive) : archive.WellNamed := by
  obtain ⟨given, each⟩ : ∃ given : Entries Value,
      given.mapM (readEntry path.toString) = .ok archive.entries := by
    unfold read at result
    dsimp only at result
    split at result
    all_goals
      obtain ⟨given, -, result⟩ := bind_eq_ok.mp result
      obtain ⟨entries, each, same⟩ := bind_eq_ok.mp result
      cases same
      exact ⟨given, each⟩
  intro entry listed name isClass
  obtain ⟨⟨key, value⟩, -, made⟩ := (mem_of_mapM_eq_ok each).mp listed
  unfold readEntry at made
  split at made
  · rename_i decl described
    cases made
    exact (Descriptor.proper_of_read described).agrees name isClass
  · cases made

def Gain (archives others : List Archive) (entry : String × ClassDecl) : Prop :=
  ∃ fore path front back aft, archives = fore ++ ⟨path, front ++ back⟩ :: aft ∧
    others = fore ++ ⟨path, front ++ entry :: back⟩ :: aft

variable {archives others : List Archive} {entry : String × ClassDecl}

theorem Gain.append (gain : Gain archives others entry) (later : List Archive) :
    Gain (archives ++ later) (others ++ later) entry := by
  obtain ⟨fore, path, front, back, aft, rfl, rfl⟩ := gain
  exact ⟨fore, path, front, back, aft ++ later, by simp, by simp⟩

theorem Gain.prepend (gain : Gain archives others entry) (earlier : List Archive) :
    Gain (earlier ++ archives) (earlier ++ others) entry := by
  obtain ⟨fore, path, front, back, aft, rfl, rfl⟩ := gain
  exact ⟨earlier ++ fore, path, front, back, aft, by simp, by simp⟩

theorem Gain.keys_perm (gain : Gain archives others entry) :
    (others.flatMap (·.entries.keys)).Perm (entry.1 :: archives.flatMap (·.entries.keys)) := by
  obtain ⟨fore, path, front, back, aft, rfl, rfl⟩ := gain
  simp only [List.flatMap_append, List.flatMap_cons, Entries.keys, List.map_append, List.map_cons,
    List.append_assoc, List.cons_append]
  rw [← List.append_assoc, ← List.append_assoc]
  exact List.perm_middle

theorem Gain.mem_classEntries (gain : Gain archives others entry) {other : String} :
    other ∈ others.flatMap classEntries ↔
      other = entry.1 ∧ (binaryName? entry.1).isSome = true ∨
        other ∈ archives.flatMap classEntries := by
  rw [mem_flatMap_classEntries, mem_flatMap_classEntries, gain.keys_perm.mem_iff, List.mem_cons,
    or_and_right]
  apply or_congr_left
  apply and_congr_right
  rintro rfl
  rfl

end Archive

def ClassDecl.mentions (decl : ClassDecl) : List String :=
  decl.superclassName?.toList ++ decl.interfaces ++ decl.methods.flatMap (·.parameters)

namespace Library

open ResolvedType

/-- The second library is the first with one declaration more, of a name that stands for nothing in the
first and that no declaration there mentions, be it as the element of an array. -/
structure GainsStray (lib other : Library) (decl : ClassDecl) : Prop where
  gains : ∃ entry, Archive.Gain lib.archives other.archives (entry, decl)
  undefined : lib.define? decl.name = none
  unmentioned : ∀ found ∈ lib.declared, ∀ mention ∈ found.mentions,
    (Java.elementOf mention).1 ≠ decl.name

variable {lib other : Library} {decl : ClassDecl} {name : String} {type : ResolvedType}

theorem define?_eq_none_iff : lib.define? name = none ↔
    builtin? name = none ∧ ∀ found ∈ lib.declarations, found.1.name ≠ name := by
  rw [define?_eq, Option.or_eq_none_iff, Option.map_eq_none_iff, List.find?_eq_none]
  simp only [decide_eq_true_eq, ne_eq]

theorem componentName?_eq_none (undefined : builtin? name = none) :
    Java.componentName? name = none := by
  unfold builtin? at undefined
  split at undefined
  · cases undefined
  split at undefined
  · cases undefined
  · exact Option.map_eq_none_iff.mp undefined

theorem componentName?_of_array {component : String}
    (defined : lib.define? name = some (.array component)) :
    Java.componentName? name = some component := by
  unfold define? at defined
  split at defined
  · cases defined
  split at defined
  · cases defined
  split at defined
  · rename_i found
    cases defined
    exact found
  · obtain ⟨found, -, same⟩ := Option.map_eq_some_iff.mp defined
    cases same

theorem mem_declarations_of_define? {found : ClassDecl} {origin : String}
    (defined : lib.define? name = some (.declared found origin)) :
    (found, origin) ∈ lib.declarations := by
  rw [define?_eq, Option.or_eq_some_iff] at defined
  rcases defined with builtin | ⟨-, declared⟩
  · exact absurd builtin builtin?_ne_declared
  · obtain ⟨pair, first, same⟩ := Option.map_eq_some_iff.mp declared
    cases same
    exact List.mem_of_find?_eq_some first

theorem exists_declaration_of_methodsOf {m : Method} (listed : m ∈ lib.methodsOf name) :
    ∃ found origin, (found, origin) ∈ lib.declarations ∧ m ∈ found.methods := by
  unfold methodsOf at listed
  split at listed
  · rename_i found origin defined
    exact ⟨found, origin, mem_declarations_of_define? defined, listed⟩
  · cases listed

namespace GainsStray

variable (stray : lib.GainsStray other decl)

include stray

theorem name_ne {found : ClassDecl} {origin : String} (listed : (found, origin) ∈ lib.declarations) :
    found.name ≠ decl.name :=
  (define?_eq_none_iff.mp stray.undefined).2 _ listed

theorem elementOf_name : (Java.elementOf decl.name).1 = decl.name :=
  Java.elementOf_of_plain (componentName?_eq_none (define?_eq_none_iff.mp stray.undefined).1)

theorem declared_ne {found : ClassDecl} (listed : found ∈ lib.declared) :
    found.name ≠ decl.name := by
  have member : found ∈ lib.declarations.map (·.1) := by
    rw [map_declarations]
    exact List.mem_append_left _ listed
  obtain ⟨⟨_, origin⟩, declared, rfl⟩ := List.mem_map.mp member
  exact stray.name_ne declared

theorem platform_ne {name : String} (known : name ∈ platformClasses.map (·.name)) :
    name ≠ decl.name := by
  obtain ⟨found, listed, rfl⟩ := List.mem_map.mp known
  have declared : (found, platformOrigin) ∈ lib.declarations := by
    simp [declarations, listed]
  exact stray.name_ne declared

theorem mention_ne {found : ClassDecl} {origin mention : String}
    (listed : (found, origin) ∈ lib.declarations) (mentioned : mention ∈ found.mentions) :
    (Java.elementOf mention).1 ≠ decl.name := by
  have member := List.mem_map_of_mem (f := (·.1)) listed
  rw [map_declarations, List.mem_append] at member
  rcases member with inArchive | inPlatform
  · exact stray.unmentioned found inArchive mention mentioned
  · have known : ∀ found ∈ platformClasses, ∀ mention ∈ found.mentions,
        (Java.elementOf mention).1 ∈ platformClasses.map (·.name) := by
      decide +kernel
    exact stray.platform_ne (known found inPlatform mention mentioned)

theorem define?_other (different : name ≠ decl.name) : other.define? name = lib.define? name := by
  obtain ⟨entry, fore, path, front, back, aft, holds, holdsToo⟩ := stray.gains
  have found : other.declarations.find? (·.1.name = name) =
      lib.declarations.find? (·.1.name = name) := by
    simp [declarations, holds, holdsToo, Ne.symm different]
  rw [define?_eq, define?_eq, found]

theorem methodsOf_other (different : name ≠ decl.name) :
    other.methodsOf name = lib.methodsOf name := by
  rw [methodsOf, methodsOf, stray.define?_other different]

theorem ne_of_element (apart : (Java.elementOf name).1 ≠ decl.name) : name ≠ decl.name := by
  rintro rfl
  exact apart stray.elementOf_name

theorem retells : lib.Retells other .whole fun name => (Java.elementOf name).1 ≠ decl.name where
  defined := by
    intro name apart
    rw [stray.define?_other (stray.ne_of_element apart)]
  closed := by
    intro name apart needed ⟨definition, defined, depends⟩
    cases definition with
    | void => cases depends
    | primitive => cases depends
    | array component =>
      simp only [Definition.dependencies, List.mem_cons, List.not_mem_nil, or_false] at depends
      rcases depends with rfl | rfl
      · rwa [Java.elementOf_component (componentName?_of_array defined)]
      · exact stray.platform_ne (by decide +kernel)
    | declared found origin =>
      have mentioned : needed ∈ found.mentions := List.mem_append_left _ depends
      exact stray.mention_ne (mem_declarations_of_define? defined) mentioned
  offered := by
    intro name apart signature
    rw [stray.methodsOf_other (stray.ne_of_element apart)]
  mentioned := by
    intro name _ m listed parameter given
    obtain ⟨found, origin, declared, own⟩ := exists_declaration_of_methodsOf listed
    have mentioned : parameter ∈ found.mentions :=
      List.mem_append_right _ (List.mem_flatMap.mpr ⟨m, own, given⟩)
    exact stray.mention_ne declared mentioned

theorem resolve_eq (apart : (Java.elementOf name).1 ≠ decl.name) :
    other.resolve name = lib.resolve name := by
  have whole (answer : Except ResolveError ResolvedType) :
      answer.map (·.through .whole) = answer := by
    cases answer <;> simp [Except.map, through_whole]
  have same := stray.retells.resolve apart
  rwa [whole, whole] at same

theorem link_eq (resolved : lib.resolve name = .ok type)
    (apart : (Java.elementOf name).1 ≠ decl.name) : other.link type = lib.link type := by
  have all : ∀ parameter ∈ type.methods.flatMap (·.parameters),
      (other.resolve parameter).map (·.through .whole) =
        (lib.resolve parameter).map (·.through .whole) := by
    intro parameter given
    obtain ⟨m, listed, mentioned⟩ := List.mem_flatMap.mp given
    rw [methods_of_resolve resolved] at listed
    exact stray.retells.resolve (stray.retells.mentioned name apart m listed parameter mentioned)
  exact linkAll_congr type.name all

theorem examine_eq {root root' : ResolvedType} (rootNamed : root.name = root'.name)
    (apart : (Java.elementOf name).1 ≠ decl.name) :
    Catalog.examine other root' name = Catalog.examine lib root name := by
  simp only [Catalog.examine, stray.resolve_eq apart]
  cases resolved : lib.resolve name with
  | error fault => rfl
  | ok type =>
    have looks : type.through .whole = type.through .whole := rfl
    have eligible := Catalog.isEligible_eq looks rootNamed.symm
    simp only [bind, Except.bind, eligible, stray.link_eq resolved apart]

end GainsStray

end Library

/-- A list with names in strict order that has one name more than another such list has it somewhere
between the names of the other one. -/
theorem Descriptor.split_of_mem_iff {names more : List String} {name : String}
    (increasing : names.Pairwise (· < ·)) (increasingToo : more.Pairwise (· < ·))
    (fresh : name ∉ names) (mem : ∀ other, other ∈ more ↔ other = name ∨ other ∈ names) :
    ∃ before after, names = before ++ after ∧ more = before ++ name :: after := by
  obtain ⟨before, after, rfl⟩ := List.append_of_mem ((mem name).mpr (.inl rfl))
  have rest : (before ++ after).Pairwise (· < ·) :=
    increasingToo.sublist ((List.sublist_cons_self name after).append_left before)
  have distinct : (before ++ name :: after).Nodup := increasingToo.nodup
  have once : name ∉ before ++ after := (List.nodup_middle.mp distinct).notMem
  refine ⟨before, after, ?_, rfl⟩
  apply increasing.eq_of_mem_iff rest
  intro other
  constructor
  · intro member
    have inside := (mem other).mpr (.inr member)
    rw [List.perm_middle.mem_iff, List.mem_cons] at inside
    rcases inside with rfl | inside
    · exact absurd member fresh
    · exact inside
  · intro inside
    have member := (mem other).mp (List.perm_middle.mem_iff.mpr (List.mem_cons_of_mem name inside))
    rcases member with rfl | member
    · exact absurd inside once
    · exact member

namespace Scan

/-- The second scan is of the first one's archives with one entry more, in one that is scanned or in
one that is there to resolve names only. -/
structure GainsStray (scanned dependencies scanned' dependencies' : List Archive) (entry : String)
    (decl : ClassDecl) : Prop where
  gains : Archive.Gain scanned scanned' (entry, decl) ∧ dependencies' = dependencies ∨
    scanned' = scanned ∧ Archive.Gain dependencies dependencies' (entry, decl)
  named : ∀ name ∈ binaryName? entry, decl.name = name
  wellNamed : ∀ archive ∈ scanned, archive.WellNamed
  plain : ∀ found ∈ Library.declared ⟨scanned ++ dependencies⟩,
    Java.componentName? found.name = none
  undefined : Library.define? ⟨scanned ++ dependencies⟩ decl.name = none
  unmentioned : ∀ found ∈ Library.declared ⟨scanned ++ dependencies⟩,
    ∀ mention ∈ found.mentions, (Java.elementOf mention).1 ≠ decl.name

namespace GainsStray

variable {scanned dependencies scanned' dependencies' : List Archive} {entry : String}
  {decl : ClassDecl} (stray : GainsStray scanned dependencies scanned' dependencies' entry decl)

include stray

theorem library : (ofArchives scanned dependencies).library.GainsStray
    (ofArchives scanned' dependencies').library decl where
  gains := by
    refine ⟨entry, ?_⟩
    rcases stray.gains with ⟨gain, rfl⟩ | ⟨rfl, gain⟩
    · exact gain.append dependencies'
    · exact gain.prepend scanned'
  undefined := stray.undefined
  unmentioned := stray.unmentioned

theorem exists_declared {other name : String} (listed : other ∈ scanned.flatMap Archive.classEntries)
    (isClass : binaryName? other = some name) :
    ∃ found ∈ Library.declared ⟨scanned ++ dependencies⟩, found.name = name := by
  obtain ⟨inside, -⟩ := Archive.mem_flatMap_classEntries.mp listed
  obtain ⟨archive, member, key⟩ := List.mem_flatMap.mp inside
  obtain ⟨⟨_, found⟩, stored, rfl⟩ := List.mem_map.mp key
  refine ⟨found, ?_, stray.wellNamed archive member _ stored name isClass⟩
  exact List.mem_flatMap.mpr ⟨archive, by simp [member], List.mem_map.mpr ⟨_, stored, rfl⟩⟩

theorem apart {name : String}
    (member : name ∈ Catalog.candidateNames (ofArchives scanned dependencies).entries) :
    (Java.elementOf name).1 ≠ decl.name := by
  obtain ⟨-, other, listed, isClass⟩ := Catalog.mem_candidateNames.mp member
  obtain ⟨found, declared, rfl⟩ := stray.exists_declared (mem_entries.mp listed) isClass
  rw [Java.elementOf_of_plain (stray.plain found declared)]
  exact stray.library.declared_ne declared

theorem names : Catalog.candidateNames (ofArchives scanned' dependencies').entries =
      Catalog.candidateNames (ofArchives scanned dependencies).entries ∨
    ∃ before after, Catalog.candidateNames (ofArchives scanned dependencies).entries =
        before ++ after ∧
      Catalog.candidateNames (ofArchives scanned' dependencies').entries =
        before ++ decl.name :: after := by
  rcases stray.gains with ⟨gain, -⟩ | ⟨rfl, -⟩
  swap
  · exact .inl rfl
  cases isClass : binaryName? entry with
  | none =>
    left
    congr 1
    apply entries_ofArchives_eq
    intro other
    simp [gain.mem_classEntries, isClass]
  | some name =>
    obtain rfl := stray.named name isClass
    have fresh : entry ∉ (ofArchives scanned dependencies).entries := by
      intro listed
      obtain ⟨found, declared, same⟩ := stray.exists_declared (mem_entries.mp listed) isClass
      exact stray.library.declared_ne declared same
    have mem (other : String) : other ∈ (ofArchives scanned' dependencies').entries ↔
        other = entry ∨ other ∈ (ofArchives scanned dependencies).entries := by
      rw [mem_entries, mem_entries, gain.mem_classEntries]
      simp [isClass]
    obtain ⟨before, after, split, splitToo⟩ :=
      Descriptor.split_of_mem_iff entries_increasing entries_increasing fresh mem
    have names (before after : List String) : Catalog.candidateNames (before ++ after) =
        Catalog.candidateNames before ++ Catalog.candidateNames after := by
      simp [Catalog.candidateNames]
    rw [split, splitToo, ← List.singleton_append, names, names, names]
    by_cases nested : '$' ∈ decl.name.toList
    · left
      simp [Catalog.candidateNames, isClass, nested]
    · right
      refine ⟨_, _, rfl, ?_⟩
      simp [Catalog.candidateNames, isClass, nested]

theorem mem_names {name : String}
    (member : name ∈ Catalog.candidateNames (ofArchives scanned' dependencies').entries) :
    name = decl.name ∨
      name ∈ Catalog.candidateNames (ofArchives scanned dependencies).entries := by
  rcases stray.names with same | ⟨before, after, split, splitToo⟩
  · rw [same] at member
    exact .inr member
  · rw [splitToo, List.perm_middle.mem_iff, List.mem_cons] at member
    rwa [split]

end GainsStray

end Scan

theorem Catalog.warning?_cases (lib : Library) (root : ResolvedType) (name : String) :
    warning? lib root name = none ∨
      ∃ missing, warning? lib root name = some (.unresolvableClass name missing) := by
  unfold warning?
  split
  · rename_i missing _
    exact .inr ⟨missing, rfl⟩
  · exact .inl rfl

namespace Generator

open Candidate

variable {generator : Generator} {scanned dependencies scanned' dependencies' : List Archive}
  {entry : String} {decl : ClassDecl} {first second : Analysis}
  (stray : Scan.GainsStray scanned dependencies scanned' dependencies' entry decl)
  (analyzed : generator.analyzeScan (.ofArchives scanned dependencies) = .ok first)
  (analyzedToo : generator.analyzeScan (.ofArchives scanned' dependencies') = .ok second)

include stray analyzed analyzedToo

theorem alike_of_stray (out : ∀ type ∈ second.classes, type.name ≠ decl.name) :
    generator.Alike (.ofArchives scanned dependencies) (.ofArchives scanned' dependencies') .whole
      first second := by
  have retells := stray.library.retells
  have finds := finds_of_analyzeScan analyzed
  have findsToo := finds_of_analyzeScan analyzedToo
  have rootNamed : first.root.name = second.root.name :=
    finds.rootName_eq.trans findsToo.rootName_eq.symm
  have apart : ∀ type ∈ first.classes, (Java.elementOf type.name).1 ≠ decl.name := by
    intro type member
    obtain ⟨name, listed, examined⟩ := (finds.classes type).mp member
    have resolved := (Catalog.examine_eq_some_iff.mp examined).1
    rw [(Library.builds_iff_resolve.mpr resolved).name_eq]
    exact stray.apart listed
  have classes : first.classes.map (·.through .whole) = second.classes.map (·.through .whole) := by
    apply classes_alike retells.toAgreeOn analyzed analyzedToo fun _ => stray.apart
    · intro name member type type' resolved resolvedToo
      have again := stray.library.resolve_eq (stray.apart member)
      obtain rfl := Except.ok.inj (resolvedToo.symm.trans (again.trans resolved))
      have linked := stray.library.link_eq resolved (stray.apart member)
      rw [linked]
    · rcases stray.names with same | ⟨before, after, split, splitToo⟩
      · rw [same]
      · have left : Catalog.found? (Scan.ofArchives scanned' dependencies').library second.root
            decl.name = none := by
          apply Option.eq_none_iff_forall_ne_some.mpr
          intro type found
          have examined := Catalog.found?_eq_some_iff.mp found
          have named := (Library.builds_iff_resolve.mpr
            (Catalog.examine_eq_some_iff.mp examined).1).name_eq
          have member : type ∈ second.classes :=
            (findsToo.classes type).mpr ⟨decl.name, by simp [splitToo], examined⟩
          exact out type member named
        rw [split, splitToo]
        simp [left]
  have equal {type type' : ResolvedType} (same : type.through .whole = type'.through .whole) :
      type = type' := by
    rwa [ResolvedType.through_whole, ResolvedType.through_whole] at same
  apply alike_of_retells retells analyzed analyzedToo apart classes
  · intro type member type' memberToo same
    apply Analysis.own_alike retells (finds.class_loaded member) (apart type member) same
    · rw [equal same]
    · intro m
      apply isRedundant_eq same rootNamed
      intro above _ above' _ looks
      rw [equal looks]
  · intro c _ type' _ same
    rw [equal same]
  · intro c _ d _ same
    rw [Candidate.through_whole, Candidate.through_whole] at same
    rw [same]

theorem warnings_of_stray : second.warnings = first.warnings ∨
    ∃ missing before after, first.warnings = before ++ after ∧
      second.warnings = before ++ .unresolvableClass decl.name missing :: after := by
  have rootNamed : first.root.name = second.root.name :=
    (finds_of_analyzeScan analyzed).rootName_eq.trans
      (finds_of_analyzeScan analyzedToo).rootName_eq.symm
  have each : ∀ name ∈ Catalog.candidateNames (Scan.ofArchives scanned dependencies).entries,
      Catalog.warning? (Scan.ofArchives scanned' dependencies').library second.root name =
        Catalog.warning? (Scan.ofArchives scanned dependencies).library first.root name := by
    intro name member
    rw [Catalog.warning?, Catalog.warning?,
      stray.library.examine_eq rootNamed (stray.apart member)]
  rw [(readOff_of_analyzeScan analyzed).warnings, (readOff_of_analyzeScan analyzedToo).warnings]
  rcases stray.names with same | ⟨before, after, split, splitToo⟩
  · left
    rw [same]
    exact List.filterMap_congr each
  · rw [split] at each
    have early := List.filterMap_congr fun name member =>
      each name (List.mem_append_left after member)
    have late := List.filterMap_congr fun name member =>
      each name (List.mem_append_right before member)
    rw [split, splitToo, List.filterMap_append, List.filterMap_append]
    rcases Catalog.warning?_cases (Scan.ofArchives scanned' dependencies').library second.root
      decl.name with quiet | ⟨missing, warned⟩
    · left
      rw [List.filterMap_cons_none quiet]
      exact congrArg₂ _ early late
    · right
      rw [List.filterMap_cons_some warned]
      exact ⟨missing, _, _, rfl, congrArg₂ _ early (congrArg _ late)⟩

omit stray analyzed analyzedToo

/-- An added entry for a class that nothing mentions makes no difference to the source unless the
class is one of the catalog, nor to the warnings but for one that says what the class lacks. -/
theorem unmentioned_inert (generator : Generator)
    (scanned dependencies scanned' dependencies' : List Archive) (entry : String) (decl : ClassDecl)
    (stray : Scan.GainsStray scanned dependencies scanned' dependencies' entry decl)
    (draft again : Draft)
    (ran : generator.draftScan (.ofArchives scanned dependencies) = .ok draft)
    (ranToo : generator.draftScan (.ofArchives scanned' dependencies') = .ok again)
    (out : ∀ type ∈ again.analysis.classes, type.name ≠ decl.name) :
    again.source = draft.source ∧
      (again.analysis.warnings = draft.analysis.warnings ∨
        ∃ missing before after, draft.analysis.warnings = before ++ after ∧
          again.analysis.warnings = before ++ .unresolvableClass decl.name missing :: after) := by
  obtain ⟨first, analyzed, -⟩ := classes_of_draftScan ran
  obtain ⟨second, analyzedToo, classes⟩ := classes_of_draftScan ranToo
  rw [classes] at out
  obtain ⟨draftToo, later, ranAgain, same, warned, warnedToo⟩ := draftScan_alike analyzed analyzedToo
    (alike_of_stray stray analyzed analyzedToo out) ran
  obtain rfl := Except.ok.inj (ranToo.symm.trans ranAgain)
  refine ⟨same, ?_⟩
  rw [warned, warnedToo]
  rcases warnings_of_stray stray analyzed analyzedToo with
    equal | ⟨missing, before, after, split, added⟩
  · rw [equal]
    exact .inl rfl
  · rw [split, added]
    exact .inr ⟨missing, before, after ++ later, by simp, by simp⟩

end Generator

namespace Gallery

def orphanDecl : ClassDecl :=
  ⟨"com.example.Orphan", false, ["public"], some "com.example.Missing", [], []⟩

def strayed : Scan :=
  .ofArchives [archive "lib.json" [touchListenerDecl, orphanDecl, widgetDecl, buttonDecl]]
    [archive "base.json" [baseDecl]]

theorem strayed_gains : Scan.GainsStray
    [archive "lib.json" [touchListenerDecl, widgetDecl, buttonDecl]] [archive "base.json" [baseDecl]]
    [archive "lib.json" [touchListenerDecl, orphanDecl, widgetDecl, buttonDecl]]
    [archive "base.json" [baseDecl]] (entryName orphanDecl.name) orphanDecl where
  gains := .inl ⟨⟨[], "lib.json", (archive "lib.json" [touchListenerDecl]).entries,
    (archive "lib.json" [widgetDecl, buttonDecl]).entries, [], rfl, rfl⟩, rfl⟩
  named := by decide +kernel
  wellNamed := by decide +kernel
  plain := by decide +kernel
  undefined := by decide +kernel
  unmentioned := by decide +kernel

theorem orphan_unresolved : strayed.library.resolve orphanDecl.name =
    .error (.unresolved orphanDecl.name "com.example.Missing") := by
  have absent : strayed.library.define? "com.example.Missing" = none := by decide +kernel
  have defined : strayed.library.define? orphanDecl.name = some (.declared orphanDecl "lib.json") := by
    decide +kernel
  have first : strayed.library.FirstLacking orphanDecl.name "com.example.Missing" :=
    ⟨_, [], [], defined, rfl, nofun, (Library.Lacks.undefined absent).not_buildable⟩
  have answers : strayed.library.Answers [] orphanDecl.name
      (.error (.ofMissing orphanDecl.name "com.example.Missing")) :=
    ⟨_, .through first (.undefined absent), rfl⟩
  exact (Library.resolve_answers _ _).unique answers

theorem strayed_analysis : ∃ analysis, generator.analyzeScan strayed = .ok analysis := by
  have stray : scan.library.GainsStray strayed.library orphanDecl := strayed_gains.library
  have resolved : strayed.library.resolve generator.config.root = .ok widget :=
    (stray.resolve_eq (by decide +kernel)).trans (spans.resolve spans.rootListed)
  refine Generator.exists_analyzeScan resolved (by decide +kernel) ?_
  intro name member again
  rcases strayed_gains.mem_names member with rfl | member
  · simp [Catalog.examine, orphan_unresolved, bind, Except.bind]
  · have member : name ∈ Catalog.candidateNames scan.entries := member
    have counted := (spans.listed name).mp member
    rw [stray.examine_eq rfl (strayed_gains.apart member),
      Catalog.examine_of_linked (spans.resolve counted) (spans.link counted)]
    simp

theorem strayed_alike : ∃ draft again, generator.draftScan scan = .ok draft ∧
    generator.draftScan strayed = .ok again ∧ again.source = draft.source ∧
      (again.analysis.warnings = draft.analysis.warnings ∨
        ∃ missing before after, draft.analysis.warnings = before ++ after ∧
          again.analysis.warnings =
            before ++ .unresolvableClass orphanDecl.name missing :: after) := by
  obtain ⟨analysis, analyzed⟩ := spans.exists_analysis
  obtain ⟨draft, ran⟩ := Generator.exists_draft analyzed (Dispatch.replaces_empty _)
  obtain ⟨second, analyzedToo⟩ := strayed_analysis
  obtain ⟨again, ranToo⟩ := Generator.exists_draft analyzedToo (Dispatch.replaces_empty _)
  obtain ⟨third, analyzedAgain, classes⟩ := Generator.classes_of_draftScan ranToo
  have out : ∀ type ∈ again.analysis.classes, type.name ≠ orphanDecl.name := by
    intro type member named
    rw [classes] at member
    have resolved := ((Generator.finds_of_analyzeScan analyzedAgain).class_loaded member).resolve
    rw [named, orphan_unresolved] at resolved
    cases resolved
  exact ⟨draft, again, ran, ranToo, Generator.unmentioned_inert generator _ _ _ _ _ _ strayed_gains
    draft again ran ranToo out⟩

end Gallery

end WidgetDsl
