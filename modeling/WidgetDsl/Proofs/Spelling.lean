import WidgetDsl.Java.Imports
import WidgetDsl.Proofs.SortedNames
import WidgetDsl.Proofs.TestedTypes

/-!
How a unit spells types. A spelling is cut at its dots and at its brackets, and what the pieces are
tells whether they begin with a package; so no two types are spelled alike.
-/

namespace WidgetDsl

namespace Text

theorem segments_intercalate {pieces : List String} (some : pieces ≠ [])
    (dotless : ∀ piece ∈ pieces, '.' ∉ piece.toList) :
    segments '.' (String.intercalate "." pieces) = pieces := by
  have cut : ((['.'] : List Char).intercalate (pieces.map String.toList)).splitOn '.' =
      pieces.map String.toList := by
    apply List.splitOn_intercalate
    · intro chars member
      obtain ⟨piece, listed, rfl⟩ := List.mem_map.mp member
      exact dotless piece listed
    · simpa using some
  calc
    segments '.' (String.intercalate "." pieces)
      = (((['.'] : List Char).intercalate (pieces.map String.toList)).splitOn '.').map
          String.ofList := by rw [segments, String.toList_intercalate]; rfl
    _ = (pieces.map String.toList).map String.ofList := by rw [cut]
    _ = pieces := by simp

theorem afterLast_dot (s : String) {t : String} (dotless : '.' ∉ t.toList) :
    afterLast '.' (s ++ "." ++ t) = t := by
  have passes := passes_of_not_mem (mt List.mem_reverse.mp dotless)
  have taken : (s ++ "." ++ t).toList.reverse.takeWhile (· != '.') = t.toList.reverse := by
    simp [List.takeWhile_append_of_pos passes]
  rw [afterLast, taken, List.reverse_reverse, String.ofList_toList]

end Text

namespace Java

/-- Whether a text can stand between dots and in front of brackets, as identifiers can. -/
def isPlain (s : String) : Bool :=
  s.toList.all fun c => c != '.' && c != '['

theorem not_mem_of_isPlain {s : String} (plain : isPlain s = true) :
    '.' ∉ s.toList ∧ '[' ∉ s.toList := by
  have each := List.all_eq_true.mp plain
  constructor
  · intro member
    simpa using each '.' member
  · intro member
    simpa using each '[' member

theorem bracketless {pieces : List String} (plain : ∀ piece ∈ pieces, isPlain piece = true) :
    '[' ∉ (String.intercalate "." pieces).toList := by
  induction pieces with
  | nil => simp
  | cons piece rest ih =>
    have first := (not_mem_of_isPlain (plain piece (by simp))).2
    have later := ih fun other member => plain other (List.mem_cons_of_mem piece member)
    cases rest with
    | nil => simpa using first
    | cons second more =>
      rw [String.intercalate_cons_cons, String.toList_append, String.toList_append]
      have dot : '[' ∉ ".".toList := by decide
      simp only [List.mem_append, first, dot, later, or_self, not_false_eq_true]

theorem isPlain_of_isIdentifier {s : String} (identifier : isIdentifier s = true) :
    isPlain s = true := by
  have dot : '.' ∉ s.toList := not_mem_of_isIdentifier identifier (by decide) (by decide +kernel)
  have bracket : '[' ∉ s.toList := not_mem_of_isIdentifier identifier (by decide) (by decide +kernel)
  rw [isPlain, List.all_eq_true]
  intro c member
  have notDot : c ≠ '.' := fun same => dot (same ▸ member)
  have notBracket : c ≠ '[' := fun same => bracket (same ▸ member)
  simp [notDot, notBracket]

namespace TypeName

theorem eq_of_append_brackets {s t : String} {n m : Nat} (plain : '[' ∉ s.toList)
    (plainToo : '[' ∉ t.toList) (same : s ++ brackets n = t ++ brackets m) : s = t ∧ n = m := by
  have cut (u : String) (k : Nat) (plain : '[' ∉ u.toList) :
      (u ++ brackets k).toList.takeWhile (· != '[') = u.toList := by
    rw [String.toList_append, List.takeWhile_append_of_pos (Text.passes_of_not_mem plain),
      toList_brackets]
    cases k <;> simp [List.replicate_succ]
  have texts : s = t := by
    apply String.toList_inj.mp
    rw [← cut s n plain, same, cut t m plainToo]
  subst texts
  have lengths := congrArg (fun u : String => u.toList.length) same
  simp [toList_brackets] at lengths
  exact ⟨rfl, by omega⟩

theorem eq_of_spelled_eq {a b : List String} {n m : Nat} (some : a ≠ []) (someToo : b ≠ [])
    (plain : ∀ piece ∈ a, isPlain piece = true) (plainToo : ∀ piece ∈ b, isPlain piece = true)
    (same : String.intercalate "." a ++ brackets n = String.intercalate "." b ++ brackets m) :
    a = b ∧ n = m := by
  obtain ⟨texts, depths⟩ := eq_of_append_brackets (bracketless plain) (bracketless plainToo) same
  have cut := Text.segments_intercalate some fun piece inside =>
    (not_mem_of_isPlain (plain piece inside)).1
  have cutToo := Text.segments_intercalate someToo fun piece inside =>
    (not_mem_of_isPlain (plainToo piece inside)).1
  rw [texts, cutToo] at cut
  exact ⟨cut.symm, depths⟩

def packageSegments (type : TypeName) : List String :=
  if type.package = "" then [] else Text.segments '.' type.package

theorem segments_ne_nil (s : String) : Text.segments '.' s ≠ [] := by
  simp [Text.segments]

theorem canonical_eq {type : TypeName} (named : type.names ≠ []) : type.canonical =
    String.intercalate "." (type.packageSegments ++ type.names) ++ brackets type.arrayDepth := by
  rw [canonical, packageSegments]
  by_cases none : type.package = ""
  · simp [none]
  · rw [if_neg none, if_neg none,
      String.intercalate_append_of_ne_nil (segments_ne_nil type.package) named,
      Text.intercalate_segments '.' '.' rfl, Text.replaceChar_self]

theorem package_eq_of_packageSegments {a b : TypeName}
    (same : a.packageSegments = b.packageSegments) : a.package = b.package := by
  unfold packageSegments at same
  split at same <;> rename_i none <;> split at same <;> rename_i noneToo
  · rw [none, noneToo]
  · exact absurd same.symm (segments_ne_nil b.package)
  · exact absurd same (segments_ne_nil a.package)
  · exact Text.segments_injective same

theorem packageSegments_eq_nil_iff {type : TypeName} :
    type.packageSegments = [] ↔ type.package = "" := by
  unfold packageSegments
  split <;> simp [segments_ne_nil, *]

@[simp] theorem outermost_topLevel (type : TypeName) : type.topLevel.outermost = type.outermost := by
  cases names : type.names <;> simp [outermost, topLevel, names]

@[simp] theorem package_topLevel (type : TypeName) : type.topLevel.package = type.package := rfl

end TypeName

/-- Types that can be spelled apart: all pieces of their names are plain, only builtin types go by the
names of such, and no piece of a package is the name of a top-level type. -/
structure Spellable (types : List TypeName) : Prop where
  named : ∀ t ∈ types, t.names ≠ []
  plain : ∀ t ∈ types, ∀ piece ∈ t.packageSegments ++ t.names, isPlain piece = true
  unreserved : ∀ t ∈ types, t.isBuiltin = false →
    isPrimitive t.outermost = false ∧ t.outermost ≠ "void"
  apart : ∀ t ∈ types, ∀ u ∈ types, u.outermost ∉ t.packageSegments

def IsOnly (types : List TypeName) (type : TypeName) : Prop :=
  ∀ other ∈ types, other.isBuiltin = false → other.outermost = type.outermost →
    other.topLevel = type.topLevel

namespace ImportTable

variable {package className : String} {types : List TypeName} {t u : TypeName}

theorem mem_topLevels {top : TypeName} :
    top ∈ topLevels types ↔ ∃ t ∈ types, t.isBuiltin = false ∧ t.topLevel = top := by
  simp [topLevels, and_assoc]

theorem length_eq_one_iff (member : t ∈ types) (imported : t.isBuiltin = false) :
    ((topLevels types).filter (·.outermost = t.outermost)).length = 1 ↔ IsOnly types t := by
  have listed {other : TypeName} (inside : other ∈ types) (imported : other.isBuiltin = false)
      (named : other.outermost = t.outermost) :
      other.topLevel ∈ (topLevels types).filter (·.outermost = t.outermost) :=
    List.mem_filter.mpr ⟨mem_topLevels.mpr ⟨other, inside, imported, rfl⟩, by simp [named]⟩
  constructor
  · intro single other inside importedToo named
    obtain ⟨only, shape⟩ := List.length_eq_one_iff.mp single
    have first := listed member imported rfl
    have second := listed inside importedToo named
    rw [shape, List.mem_singleton] at first second
    rw [first, second]
  · intro only
    have same : ∀ top ∈ (topLevels types).filter (·.outermost = t.outermost), top = t.topLevel := by
      intro top inside
      obtain ⟨found, named⟩ := List.mem_filter.mp inside
      obtain ⟨other, member, importedToo, rfl⟩ := mem_topLevels.mp found
      exact only other member importedToo (by simpa using named)
    have distinct : ((topLevels types).filter (·.outermost = t.outermost)).Nodup :=
      (Descriptor.nodup_eraseDups _).filter _
    rw [List.eq_replicate_of_mem same, List.nodup_replicate] at distinct
    have atLeast := List.length_pos_of_mem (listed member imported rfl)
    omega

theorem mem_short (member : t ∈ types) (imported : t.isBuiltin = false) :
    t.topLevel ∈ (ofTypes package className types).short ↔
      IsOnly types t ∧ t.outermost ≠ className ∧ (t.package ≠ "" ∨ package = "") := by
  have listed : t.topLevel ∈ topLevels types := mem_topLevels.mpr ⟨t, member, imported, rfl⟩
  have single := length_eq_one_iff member imported
  simp only [ofTypes, List.mem_filter, listed, Bool.and_eq_true, Bool.or_eq_true,
    decide_eq_true_eq, TypeName.outermost_topLevel, single]
  rw [TypeName.package_topLevel]
  tauto

theorem topLevel_eq_of_short (first : t ∈ types) (imported : t.isBuiltin = false)
    (short : t.topLevel ∈ (ofTypes package className types).short) (second : u ∈ types)
    (importedToo : u.isBuiltin = false) (same : u.outermost = t.outermost) :
    u.topLevel = t.topLevel :=
  ((mem_short first imported).mp short).1 u second importedToo same

def prefixSegments (table : ImportTable) (type : TypeName) : List String :=
  if type.isBuiltin || table.short.contains type.topLevel then [] else type.packageSegments

theorem spell_eq (table : ImportTable) (named : t.names ≠ []) : table.spell t =
    String.intercalate "." (table.prefixSegments t ++ t.names) ++ TypeName.brackets t.arrayDepth := by
  unfold spell prefixSegments
  dsimp only
  split
  · rfl
  · have bare : ({ t with arrayDepth := 0 } : TypeName).canonical =
        String.intercalate "." (t.packageSegments ++ t.names) ++ TypeName.brackets 0 :=
      TypeName.canonical_eq named
    have none : TypeName.brackets 0 = "" := rfl
    rw [bare, none, String.append_empty]

theorem prefixSegments_subset (table : ImportTable) (t : TypeName) :
    table.prefixSegments t ⊆ t.packageSegments := by
  unfold prefixSegments
  split
  · exact List.nil_subset _
  · exact List.Subset.refl _

theorem plain_spelled (spellable : Spellable types) (table : ImportTable) (member : t ∈ types) :
    ∀ piece ∈ table.prefixSegments t ++ t.names, isPlain piece = true := by
  intro piece inside
  apply spellable.plain t member piece
  rcases List.mem_append.mp inside with located | named
  · exact List.mem_append_left _ (prefixSegments_subset table t located)
  · exact List.mem_append_right _ named

theorem eq_of_append_eq {a b c d : List String} (same : a ++ b = c ++ d) (some : b ≠ [])
    (someToo : d ≠ []) (apart : b.headD "" ∉ c) (apartToo : d.headD "" ∉ a) : a = c ∧ b = d := by
  rcases List.append_eq_append_iff.mp same with ⟨more, rfl, rfl⟩ | ⟨more, rfl, rfl⟩
  · cases more with
    | nil => simp
    | cons first rest => simp at apart
  · cases more with
    | nil => simp
    | cons first rest => simp at apartToo

theorem isBuiltin_of_outermost (spellable : Spellable types) (second : u ∈ types)
    (same : t.outermost = u.outermost) (builtin : t.isBuiltin = true) : u.isBuiltin = true := by
  by_contra imported
  have unreserved := spellable.unreserved u second (Bool.eq_false_iff.mpr imported)
  simp [TypeName.isBuiltin, same, unreserved] at builtin

/-- Of all types that are listed, those are the same that have the same spelling and are among types
that can be spelled apart. -/
theorem eq_of_spell_eq_within {few : List TypeName} (spellable : Spellable few) (first : t ∈ few)
    (second : u ∈ few) (listed : t ∈ types) (listedToo : u ∈ types)
    (same : (ofTypes package className types).spell t = (ofTypes package className types).spell u) :
    t = u := by
  let table := ofTypes package className types
  have named := spellable.named t first
  have namedToo := spellable.named u second
  rw [spell_eq _ named, spell_eq _ namedToo] at same
  obtain ⟨pieces, depths⟩ := TypeName.eq_of_spelled_eq (by simp [named]) (by simp [namedToo])
    (plain_spelled spellable table first) (plain_spelled spellable table second) same
  obtain ⟨prefixes, names⟩ := eq_of_append_eq pieces named namedToo
    (fun inside => spellable.apart u second t first (prefixSegments_subset table u inside))
    (fun inside => spellable.apart t first u second (prefixSegments_subset table t inside))
  have outermost : t.outermost = u.outermost := congrArg (List.headD · "") names
  have packages : t.package = u.package := by
    cases builtin : t.isBuiltin with
    | true =>
      have builtinToo := isBuiltin_of_outermost spellable second outermost builtin
      simp only [TypeName.isBuiltin, Bool.and_eq_true, decide_eq_true_eq] at builtin builtinToo
      rw [builtin.1, builtinToo.1]
    | false =>
      have importedToo : u.isBuiltin = false := by
        by_contra builtinToo
        rw [isBuiltin_of_outermost spellable first outermost.symm (by simpa using builtinToo)]
          at builtin
        cases builtin
      by_cases short : t.topLevel ∈ table.short
      · have tops := topLevel_eq_of_short listed builtin short listedToo importedToo outermost.symm
        simpa using congrArg TypeName.package tops.symm
      by_cases shortToo : u.topLevel ∈ table.short
      · have tops := topLevel_eq_of_short listedToo importedToo shortToo listed builtin outermost
        simpa using congrArg TypeName.package tops
      · apply TypeName.package_eq_of_packageSegments
        simpa [prefixSegments, table, builtin, importedToo, short, shortToo] using prefixes
  calc
    t = ⟨t.package, t.names, t.arrayDepth⟩ := rfl
    _ = ⟨u.package, u.names, u.arrayDepth⟩ := by rw [packages, names, depths]
    _ = u := rfl

theorem eq_of_spell_eq (spellable : Spellable types) (first : t ∈ types) (second : u ∈ types)
    (same : (ofTypes package className types).spell t = (ofTypes package className types).spell u) :
    t = u :=
  eq_of_spell_eq_within spellable first second first second same

theorem isBuiltin_of_package (packaged : t.package ≠ "") : t.isBuiltin = false := by
  simp [TypeName.isBuiltin, packaged]

theorem prefixSegments_eq_nil_iff (member : t ∈ types) (packaged : t.package ≠ "") :
    (ofTypes package className types).prefixSegments t = [] ↔
      IsOnly types t ∧ t.outermost ≠ className := by
  have imported := isBuiltin_of_package packaged
  have short : t.topLevel ∈ (ofTypes package className types).short ↔ _ :=
    mem_short member imported
  have located : t.packageSegments ≠ [] := fun none =>
    packaged (TypeName.packageSegments_eq_nil_iff.mp none)
  simp only [packaged, ne_eq, not_false_eq_true, true_or, and_true] at short
  by_cases inside : t.topLevel ∈ (ofTypes package className types).short
  · simp [prefixSegments, imported, inside, short.mp inside]
  · have qualified := mt short.mpr inside
    simp [prefixSegments, imported, inside, located, qualified]

theorem spell_eq_bare_iff (spellable : Spellable types) (table : ImportTable) (member : t ∈ types) :
    table.spell t = ({ t with package := "" } : TypeName).canonical ↔
      table.prefixSegments t = [] := by
  have named := spellable.named t member
  have plain := plain_spelled spellable table member
  have bare : ({ t with package := "" } : TypeName).canonical =
      String.intercalate "." t.names ++ TypeName.brackets t.arrayDepth := TypeName.canonical_eq named
  rw [bare, spell_eq table named]
  constructor
  · intro same
    have pieces := TypeName.eq_of_spelled_eq (by simp [named]) named plain
      (fun piece inside => plain piece (List.mem_append_right _ inside)) same
    simpa using pieces.1
  · intro none
    rw [none, List.nil_append]

theorem spell_cases (spellable : Spellable types) (table : ImportTable) (member : t ∈ types) :
    table.spell t = ({ t with package := "" } : TypeName).canonical ∨
      table.spell t = t.canonical := by
  have named := spellable.named t member
  rw [spell_eq_bare_iff spellable table member, spell_eq table named, TypeName.canonical_eq named]
  unfold prefixSegments
  split
  · exact .inl rfl
  · exact .inr rfl

theorem canonical_topLevel (named : t.names ≠ []) (packaged : t.package ≠ "") :
    t.topLevel.canonical = t.package ++ "." ++ t.outermost := by
  obtain ⟨first, inner, names⟩ := List.exists_cons_of_ne_nil named
  simp [TypeName.canonical, TypeName.topLevel, TypeName.outermost, TypeName.brackets, names, packaged]

theorem afterLast_canonical (spellable : Spellable types) (member : t ∈ types)
    (packaged : t.package ≠ "") : Text.afterLast '.' t.topLevel.canonical = t.outermost := by
  have named := spellable.named t member
  have inside : t.outermost ∈ t.names := by
    obtain ⟨first, inner, names⟩ := List.exists_cons_of_ne_nil named
    simp [TypeName.outermost, names]
  have plain := spellable.plain t member t.outermost (List.mem_append_right _ inside)
  rw [canonical_topLevel named packaged, Text.afterLast_dot _ (not_mem_of_isPlain plain).1]

def importedTypes (table : ImportTable) : List TypeName :=
  table.short.filter fun top => top.package ≠ "java.lang" && top.package ≠ table.package

theorem imports_perm (table : ImportTable) :
    table.imports.Perm (table.importedTypes.map TypeName.canonical) :=
  List.mergeSort_perm _ _

theorem of_mem_importedTypes {top : TypeName}
    (member : top ∈ (ofTypes package className types).importedTypes) :
    ∃ t ∈ types, t.topLevel = top ∧ t.package ≠ "" ∧ IsOnly types t ∧ t.outermost ≠ className := by
  obtain ⟨short, away⟩ := List.mem_filter.mp member
  obtain ⟨t, inside, imported, rfl⟩ := mem_topLevels.mp (List.mem_of_mem_filter short)
  obtain ⟨only, other, located⟩ := (mem_short inside imported).mp short
  refine ⟨t, inside, rfl, fun none => ?_, only, other⟩
  -- a type without package is named so only in a unit without one, and there it is not imported
  have home : package = "" := located.resolve_left fun packaged => packaged none
  simp [ofTypes, none, home] at away

theorem importedTypes_names (spellable : Spellable types) :
    ((ofTypes package className types).importedTypes.map TypeName.canonical).map
        (Text.afterLast '.') =
      (ofTypes package className types).importedTypes.map TypeName.outermost := by
  rw [List.map_map]
  apply List.map_congr_left
  intro top member
  obtain ⟨t, inside, rfl, packaged, -⟩ := of_mem_importedTypes member
  simpa using afterLast_canonical spellable inside packaged

theorem importedTypes_distinct :
    ((ofTypes package className types).importedTypes.map TypeName.outermost).Nodup := by
  have distinct : (ofTypes package className types).importedTypes.Nodup :=
    ((Descriptor.nodup_eraseDups _).filter _).filter _
  apply distinct.map_on
  intro top member other memberToo same
  obtain ⟨t, inside, rfl, packaged, only, -⟩ := of_mem_importedTypes member
  obtain ⟨u, insideToo, rfl, packagedToo, -⟩ := of_mem_importedTypes memberToo
  exact (only u insideToo (isBuiltin_of_package packagedToo) (by simpa using same.symm)).symm

theorem mem_imports_iff (spellable : Spellable types) (member : t ∈ types) (packaged : t.package ≠ "")
    (only : IsOnly types t) (other : t.outermost ≠ className) :
    t.topLevel.canonical ∈ (ofTypes package className types).imports ↔
      t.package ≠ "java.lang" ∧ t.package ≠ package := by
  have imported := isBuiltin_of_package packaged
  have short : t.topLevel ∈ (ofTypes package className types).short :=
    (mem_short member imported).mpr ⟨only, other, .inl packaged⟩
  have listed : t.topLevel ∈ (ofTypes package className types).importedTypes ↔
      t.package ≠ "java.lang" ∧ t.package ≠ package := by
    have home : (ofTypes package className types).package = package := rfl
    simp only [importedTypes, List.mem_filter, short, true_and, Bool.and_eq_true, decide_eq_true_eq,
      home]
    rw [TypeName.package_topLevel]
  rw [(imports_perm _).mem_iff, ← listed]
  constructor
  · intro inside
    obtain ⟨top, found, same⟩ := List.mem_map.mp inside
    obtain ⟨u, insideToo, rfl, packagedToo, -⟩ := of_mem_importedTypes found
    have outermost : u.outermost = t.outermost := by
      rw [← afterLast_canonical spellable insideToo packagedToo, same,
        afterLast_canonical spellable member packaged]
    rwa [only u insideToo (isBuiltin_of_package packagedToo) outermost] at found
  · exact List.mem_map_of_mem

/-- What makes the spelling of types in a unit sound: it tells them apart, imports are sorted and bring
in names that differ from each other and from the class, and the package of a type is left out just
where its name is unambiguous. -/
structure IsSound (table : ImportTable) (className : String) (types : List TypeName) : Prop where
  distinct : ∀ t ∈ types, ∀ u ∈ types, table.spell t = table.spell u → t = u
  increasing : table.imports.Pairwise (· < ·)
  apart : (table.imports.map (Text.afterLast '.')).Nodup
  foreign : className ∉ table.imports.map (Text.afterLast '.')
  qualified : ∀ t ∈ types, t.package ≠ "" → table.spell t = { t with package := "" }.canonical ∨
    table.spell t = t.canonical
  short : ∀ t ∈ types, t.package ≠ "" → (table.spell t = { t with package := "" }.canonical ↔
    IsOnly types t ∧ t.outermost ≠ className)
  imported : ∀ t ∈ types, t.package ≠ "" → IsOnly types t → t.outermost ≠ className →
    (t.topLevel.canonical ∈ table.imports ↔ t.package ≠ "java.lang" ∧ t.package ≠ table.package)

/-- Spelling is sound for types that can be spelled apart, in every unit. -/
theorem ofTypes_sound (package className : String) (types : List TypeName)
    (spellable : Spellable types) : (ofTypes package className types).IsSound className types := by
  let table := ofTypes package className types
  have lasts : (table.imports.map (Text.afterLast '.')).Perm
      (table.importedTypes.map TypeName.outermost) := by
    rw [← importedTypes_names spellable]
    exact (imports_perm table).map _
  have apart : (table.imports.map (Text.afterLast '.')).Nodup :=
    lasts.nodup_iff.mpr importedTypes_distinct
  refine ⟨fun t first u second => eq_of_spell_eq spellable first second, ?_, apart, ?_, ?_, ?_, ?_⟩
  · exact (Descriptor.sorted_pairwise _).imp₂ (fun _ _ le ne => Std.lt_of_le_of_ne le ne)
      (List.Nodup.of_map _ apart)
  · intro inside
    obtain ⟨top, member, same⟩ := List.mem_map.mp (lasts.mem_iff.mp inside)
    obtain ⟨t, -, rfl, -, -, other⟩ := of_mem_importedTypes member
    exact other (by simpa using same)
  · intro t member _
    exact spell_cases spellable table member
  · intro t member packaged
    rw [spell_eq_bare_iff spellable _ member, prefixSegments_eq_nil_iff member packaged]
  · intro t member packaged only other
    exact mem_imports_iff spellable member packaged only other

def shapes : List TypeName :=
  [⟨"", ["int"], 1⟩, ⟨"", ["Stray"], 0⟩, ⟨"java.lang", ["String"], 0⟩, ⟨"java.util", ["Map"], 0⟩,
    ⟨"java.util", ["Map", "Entry"], 2⟩, ⟨"com.example.widget", ["View"], 0⟩,
    ⟨"com.example.other", ["View", "Listener"], 0⟩, ⟨"com.example.dsl", ["Widgets"], 0⟩]

theorem shapes_sound : Spellable shapes ∧
    (ofTypes "com.example.dsl" "Widgets" shapes).IsSound "Widgets" shapes := by
  have identifiers : ∀ t ∈ shapes, ∀ piece ∈ t.packageSegments ++ t.names,
      isIdentifier piece = true := by
    decide +kernel
  have spellable : Spellable shapes := by
    refine ⟨by decide, fun t member piece inside => ?_, by decide +kernel, by decide +kernel⟩
    exact isPlain_of_isIdentifier (identifiers t member piece inside)
  exact ⟨spellable, ofTypes_sound "com.example.dsl" "Widgets" shapes spellable⟩

end ImportTable

end Java

end WidgetDsl
