import WidgetDsl.Config.Load
import WidgetDsl.Proofs.Spelling
import WidgetDsl.Proofs.Writing

/-!
Where a checked configuration puts the generated source: in its output directory, one directory down
to each segment of the package, so that no path of another package or class is the same.
-/

namespace WidgetDsl

namespace Path

/-- Whether a text is one part of a path, which leads to something in the directory that it is in. -/
structure IsPart (s : String) : Prop where
  named : s ≠ ""
  slashless : '/' ∉ s.toList
  notHere : s ≠ "."
  notUp : s ≠ ".."

theorem ofString_of_isPart {s : String} (part : IsPart s) : ofString s = ⟨"", [s]⟩ := by
  have relative : s.toList.takeWhile (· == '/') = [] := by
    have slashless := part.slashless
    cases chars : s.toList with
    | nil => rfl
    | cons c rest =>
      rw [chars] at slashless
      have other : c ≠ '/' := fun same => slashless (same ▸ List.mem_cons_self)
      simp [other]
  have whole : Text.segments '/' s = [s] := by
    simp [Text.segments, List.splitOn_eq_singleton part.slashless]
  simp [ofString, relative, whole, part.named, part.notHere]

theorem joinAll_of_isPart (base : Path) {names : List String} (parts : ∀ s ∈ names, IsPart s) :
    base.joinAll names = { base with parts := base.parts ++ names } := by
  induction names generalizing base with
  | nil => simp [joinAll]
  | cons s rest ih =>
    have here : base.join (ofString s) = { base with parts := base.parts ++ [s] } := by
      simp [ofString_of_isPart (parts s (by simp)), join]
    have later := ih { base with parts := base.parts ++ [s] } fun other member =>
      parts other (List.mem_cons_of_mem s member)
    rw [joinAll, List.foldl_cons, here]
    simpa [joinAll] using later

end Path

namespace Java

theorem isPart_of_isIdentifier {s : String} (identifier : isIdentifier s = true) : Path.IsPart s := by
  have dot : '.' ∉ s.toList := (not_mem_of_isPlain (isPlain_of_isIdentifier identifier)).1
  refine ⟨?_, not_mem_of_isIdentifier identifier (by decide) (by decide +kernel), ?_, ?_⟩
  · rintro rfl
    simp [isIdentifier, isIdentifierText] at identifier
  · rintro rfl
    simp at dot
  · rintro rfl
    simp at dot

theorem isPart_append {s ending : String} (identifier : isIdentifier s = true)
    (slashless : '/' ∉ ending.toList) : Path.IsPart (s ++ ending) := by
  obtain ⟨named, noSlash, -, -⟩ := isPart_of_isIdentifier identifier
  have dot : '.' ∉ s.toList := (not_mem_of_isPlain (isPlain_of_isIdentifier identifier)).1
  obtain ⟨c, rest, chars⟩ : ∃ c rest, s.toList = c :: rest :=
    List.exists_cons_of_ne_nil (by simpa using named)
  have other : c ≠ '.' := by
    rintro rfl
    exact dot (by simp [chars])
  have headed {t : String} (same : s ++ ending = t) : t.toList.head? = some c := by
    simp [← same, chars]
  refine ⟨fun same => ?_, by simp [noSlash, slashless], fun same => ?_, fun same => ?_⟩
  · simpa using headed same
  · exact other (by simpa using (headed same).symm)
  · exact other (by simpa using (headed same).symm)

end Java

namespace Store

variable {store : Store} {location base : Location} {path : Path} {parts : List String}

theorem eq_append_of_walk (down : ∀ part ∈ parts, part ≠ "..")
    (found : store.walk base parts = .ok location) : location = base ++ parts := by
  induction parts generalizing base with
  | nil =>
    cases found
    simp
  | cons part rest ih =>
    have later : ∀ other ∈ rest, other ≠ ".." := fun other member =>
      down other (List.mem_cons_of_mem part member)
    unfold walk at found
    split at found
    · cases found
    · cases found
    · rw [if_neg (down part (by simp))] at found
      split at found
      · cases found
      · simpa using ih later found

theorem Usable.above (usable : Usable { path with parts := path.parts ++ parts }) : Usable path := by
  constructor
  · have noNull := usable.noNull
    rw [Path.mem_toString (by decide) (by decide)] at noNull ⊢
    rintro (root | ⟨part, inside, null⟩)
    · exact noNull (.inl root)
    · exact noNull (.inr ⟨part, List.mem_append_left _ inside, null⟩)
  · have short := usable.short
    by_cases same : parts = []
    · simpa [same] using short
    unfold Path.toString at short ⊢
    split
    · decide
    rw [if_neg (by simp [same])] at short
    dsimp only at short
    rw [String.utf8ByteSize_append] at short ⊢
    by_cases top : path.parts = []
    · simp only [top, String.intercalate_nil, String.utf8ByteSize_empty]
      omega
    · rw [String.intercalate_append_of_ne_nil top same, String.utf8ByteSize_append,
        String.utf8ByteSize_append] at short
      omega

/-- What lies so many parts down from a path lies below what the path leads to. -/
theorem locate_below (down : ∀ part ∈ parts, part ≠ "..")
    (found : store.locate { path with parts := path.parts ++ parts } = .ok location) :
    ∃ base, store.locate path = .ok base ∧ location = base ++ parts := by
  obtain ⟨usable, walked⟩ := locate_eq_ok.mp found
  obtain ⟨base, first, later⟩ := (walk_append_eq_ok path.parts).mp walked
  exact ⟨base, locate_eq_ok.mpr ⟨usable.above, first⟩, eq_append_of_walk down later⟩

end Store

namespace Settings

theorem shape_of_name {shape : String → Bool} {label s : String} {value : Value}
    (checked : name shape label value = .ok s) : shape s = true := by
  unfold name at checked
  split at checked
  · split at checked
    · cases checked
      assumption
    · cases checked
  · cases checked

theorem names_of_toConfig {settings : Settings} {config : Config}
    (made : settings.toConfig = .ok config) :
    Java.isQualifiedName config.package = true ∧ Java.isIdentifier config.className = true := by
  unfold toConfig at made
  dsimp only at made
  split at made
  case isFalse => cases made
  obtain ⟨archives, -, made⟩ := bind_eq_ok.mp made
  obtain ⟨root, -, made⟩ := bind_eq_ok.mp made
  obtain ⟨package, packaged, made⟩ := bind_eq_ok.mp made
  obtain ⟨runtimePackage, -, made⟩ := bind_eq_ok.mp made
  obtain ⟨nullable, -, made⟩ := bind_eq_ok.mp made
  obtain ⟨nonNull, -, made⟩ := bind_eq_ok.mp made
  obtain ⟨className, named, made⟩ := bind_eq_ok.mp made
  obtain ⟨runtimeClass, -, made⟩ := bind_eq_ok.mp made
  obtain ⟨dslClass, -, made⟩ := bind_eq_ok.mp made
  obtain ⟨superclass, -, made⟩ := bind_eq_ok.mp made
  obtain ⟨overrides, -, made⟩ := bind_eq_ok.mp made
  obtain ⟨dependencies, -, made⟩ := bind_eq_ok.mp made
  cases made
  exact ⟨shape_of_name packaged, shape_of_name named⟩

end Settings

namespace Config

structure Named (config : Config) : Prop where
  package : ∀ s ∈ Text.segments '.' config.package, Java.isIdentifier s = true
  className : Java.isIdentifier config.className = true

variable {config other : Config} {store : Store} {path : Option Path} {given : Entries GivenSetting}

theorem named_of_load (loaded : load store path given = .ok config) : config.Named := by
  have made : ∃ settings : Settings, settings.toConfig = .ok config := by
    unfold load at loaded
    split at loaded
    all_goals
      obtain ⟨_, -, loaded⟩ := bind_eq_ok.mp loaded
      obtain ⟨settings, -, made⟩ := bind_eq_ok.mp loaded
      exact ⟨settings, made⟩
  obtain ⟨settings, made⟩ := made
  obtain ⟨qualified, identifier⟩ := Settings.names_of_toConfig made
  exact ⟨List.all_eq_true.mp qualified, identifier⟩

/-- The directories of the package, and the file in the last of them. -/
def placeParts (config : Config) : List String :=
  Text.segments '.' config.package ++ [config.className ++ ".java"]

namespace Named

theorem isPart_placeParts (named : config.Named) : ∀ s ∈ config.placeParts, Path.IsPart s := by
  intro s member
  rcases List.mem_append.mp member with segment | file
  · exact Java.isPart_of_isIdentifier (named.package s segment)
  · obtain rfl := List.mem_singleton.mp file
    exact Java.isPart_append named.className (by decide)

theorem outputPath_eq (named : config.Named) : config.outputPath =
    { config.outputDir with parts := config.outputDir.parts ++ config.placeParts } :=
  Path.joinAll_of_isPart config.outputDir named.isPart_placeParts

theorem names_eq (named : config.Named) (namedToo : other.Named)
    (directory : config.outputDir = other.outputDir) (same : config.outputPath = other.outputPath) :
    config.package = other.package ∧ config.className = other.className := by
  rw [named.outputPath_eq, namedToo.outputPath_eq, directory] at same
  have parts : config.placeParts = other.placeParts :=
    List.append_cancel_left (congrArg Path.parts same)
  obtain ⟨segments, file⟩ := List.append_inj' parts rfl
  have className : config.className.toList ++ ".java".toList =
      other.className.toList ++ ".java".toList := by
    simpa only [String.toList_append] using congrArg String.toList (List.singleton_inj.mp file)
  exact ⟨Text.segments_injective segments,
    String.toList_inj.mp (List.append_cancel_right className)⟩

end Named

/-- The path of a configuration that is accepted goes down from its output directory, by directories
that are the segments of the package, to a file that the class names. So whatever the path leads to
lies below what the output directory leads to, and configurations with one output directory have
different paths if they have different packages or class names. -/
theorem load_placed (store : Store) (path : Option Path) (given : Entries GivenSetting)
    (config : Config) (loaded : load store path given = .ok config) :
    (∀ s ∈ Text.segments '.' config.package, Path.IsPart s) ∧ Path.IsPart config.className ∧
    config.outputPath.root = config.outputDir.root ∧
    config.outputPath.parts = config.outputDir.parts ++
      Text.segments '.' config.package ++ [config.className ++ ".java"] ∧
    (∀ (files : Store) (location : Location), files.locate config.outputPath = .ok location →
      ∃ base, files.locate config.outputDir = .ok base ∧
        location = base ++ Text.segments '.' config.package ++ [config.className ++ ".java"]) ∧
    ∀ (store : Store) (path : Option Path) (given : Entries GivenSetting) (other : Config),
      load store path given = .ok other → config.outputDir = other.outputDir →
      config.outputPath = other.outputPath →
      config.package = other.package ∧ config.className = other.className := by
  have named := named_of_load loaded
  have parts := named.isPart_placeParts
  refine ⟨fun s member => parts s (List.mem_append_left _ member),
    Java.isPart_of_isIdentifier named.className, ?_, ?_, ?_, ?_⟩
  · rw [named.outputPath_eq]
  · rw [named.outputPath_eq, placeParts, List.append_assoc]
  · intro files location found
    rw [named.outputPath_eq] at found
    obtain ⟨base, above, below⟩ := Store.locate_below (fun s member => (parts s member).notUp) found
    exact ⟨base, above, by rw [below, placeParts, List.append_assoc]⟩
  · intro store path given other loadedToo
    exact named.names_eq (named_of_load loadedToo)

def someSettings : Entries GivenSetting :=
  [("root", .plain (.text "com.example.Widget")), ("package", .plain (.text "com.example.dsl_é")),
    ("class_name", .plain (.text "DSL$")), ("archives", .paths [.ofString "lib.json"]),
    ("output_dir", .path (.ofString "../out"))]

theorem someSettings_placed : ∃ config, load [] none someSettings = .ok config ∧
    config.outputPath.parts = ["..", "out", "com", "example", "dsl_é", "DSL$.java"] := by
  have names : (load [] none someSettings).toOption.map
      (fun config => (config.package, config.className, config.outputDir)) =
      some ("com.example.dsl_é", "DSL$", ⟨"", ["..", "out"]⟩) := by
    decide +kernel
  obtain ⟨config, accepted, same⟩ := Option.map_eq_some_iff.mp names
  simp only [Prod.mk.injEq] at same
  have loaded := toOption_eq_some.mp accepted
  obtain ⟨-, -, -, parts, -⟩ := load_placed [] none someSettings config loaded
  refine ⟨config, loaded, ?_⟩
  rw [parts, same.1, same.2.1, same.2.2]
  decide +kernel

end Config

end WidgetDsl
