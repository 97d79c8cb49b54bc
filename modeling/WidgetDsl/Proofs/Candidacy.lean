import Mathlib.Data.List.ReduceOption
import WidgetDsl.Generator
import WidgetDsl.Proofs.SortedNames
import WidgetDsl.Proofs.Supertypes

/-!
What an analysis holds. Its classes are eligible types of the library that are linked, and its
candidates are the methods of these classes that pass all tests.
-/

namespace WidgetDsl

section Results

variable {ε ε' α β : Type}

theorem bind_eq_ok {result : Except ε α} {next : α → Except ε β} {b : β} :
    (result >>= next) = .ok b ↔ ∃ a, result = .ok a ∧ next a = .ok b := by
  cases result <;> simp [bind, Except.bind]

theorem map_eq_ok {result : Except ε α} {f : α → β} {b : β} :
    result.map f = .ok b ↔ ∃ a, result = .ok a ∧ f a = b := by
  cases result <;> simp [Except.map]

theorem mapError_eq_ok {result : Except ε α} {f : ε → ε'} {a : α} :
    result.mapError f = .ok a ↔ result = .ok a := by
  cases result with
  | ok b =>
    constructor <;> intro same <;> cases same <;> rfl
  | error e => exact ⟨nofun, nofun⟩

theorem toOption_eq_some {result : Except ε α} {a : α} :
    result.toOption = some a ↔ result = .ok a := by
  cases result <;> simp [Except.toOption]

theorem bind_eq_error {result : Except ε α} {next : α → Except ε β} {e : ε} :
    (result >>= next) = .error e ↔
      result = .error e ∨ ∃ a, result = .ok a ∧ next a = .error e := by
  cases result <;> simp [bind, Except.bind]

theorem map_eq_error {result : Except ε α} {f : α → β} {e : ε} :
    result.map f = .error e ↔ result = .error e := by
  cases result <;> simp [Except.map]

theorem mapError_eq_error {result : Except ε α} {f : ε → ε'} {e : ε'} :
    result.mapError f = .error e ↔ ∃ cause, result = .error cause ∧ f cause = e := by
  cases result <;> simp [Except.mapError]

theorem mapError_of_ok {result : Except ε α} {f : ε → ε'} {a : α} (ended : result = .ok a) :
    result.mapError f = .ok a :=
  mapError_eq_ok.mpr ended

theorem mapM_eq_ok {f : α → Except ε β} {as : List α} {bs : List β} :
    as.mapM f = .ok bs ↔ as.map f = bs.map .ok := by
  induction as generalizing bs with
  | nil => simp [pure, Except.pure, eq_comm]
  | cons a rest ih =>
    simp only [List.mapM_cons, bind_eq_ok, ih, pure, Except.pure, Except.ok.injEq, List.map_cons]
    constructor
    · rintro ⟨b, first, others, later, rfl⟩
      simp [first, later]
    · intro same
      obtain ⟨b, others, rfl, first, later⟩ := List.map_eq_cons_iff.mp same.symm
      exact ⟨b, first.symm, others, later.symm, rfl⟩

theorem mem_of_mapM_eq_ok {f : α → Except ε β} {as : List α} {bs : List β}
    (result : as.mapM f = .ok bs) {b : β} : b ∈ bs ↔ ∃ a ∈ as, f a = .ok b := by
  have inside : b ∈ bs ↔ Except.ok b ∈ bs.map (Except.ok (ε := ε)) := by simp
  rw [inside, ← mapM_eq_ok.mp result, List.mem_map]

theorem mapM_eq_error {f : α → Except ε β} {as : List α} {e : ε} :
    as.mapM f = .error e ↔ ∃ before a after, as = before ++ a :: after ∧
      (∀ b ∈ before, ∃ c, f b = .ok c) ∧ f a = .error e := by
  induction as with
  | nil =>
    refine ⟨nofun, ?_⟩
    rintro ⟨before, a, after, split, -⟩
    simp at split
  | cons first rest ih =>
    have head : (first :: rest).mapM f = .error e ↔
        f first = .error e ∨ ∃ c, f first = .ok c ∧ rest.mapM f = .error e := by
      simp [List.mapM_cons, bind_eq_error, pure, Except.pure]
    rw [head, ih]
    constructor
    · rintro (failed | ⟨c, passed, before, a, after, rfl, others, failed⟩)
      · exact ⟨[], first, rest, rfl, nofun, failed⟩
      · refine ⟨first :: before, a, after, rfl, fun b member => ?_, failed⟩
        rcases List.mem_cons.mp member with rfl | later
        · exact ⟨c, passed⟩
        · exact others b later
    · rintro ⟨before, a, after, split, passed, failed⟩
      cases before with
      | nil =>
        obtain ⟨rfl, rfl⟩ := List.cons.inj split
        exact .inl failed
      | cons other before =>
        obtain ⟨rfl, rfl⟩ := List.cons.inj split
        obtain ⟨c, made⟩ := passed first List.mem_cons_self
        exact .inr ⟨c, made, before, a, after, rfl,
          fun b member => passed b (List.mem_cons_of_mem _ member), failed⟩

theorem exists_of_mapM_eq_error {f : α → Except ε β} {as : List α} {e : ε}
    (failed : as.mapM f = .error e) : ∃ a ∈ as, f a = .error e := by
  obtain ⟨before, a, after, rfl, -, stopped⟩ := mapM_eq_error.mp failed
  exact ⟨a, by simp, stopped⟩

theorem exists_mapM_eq_ok {f : α → Except ε β} {as : List α}
    (each : ∀ a ∈ as, ∃ b, f a = .ok b) : ∃ bs, as.mapM f = .ok bs := by
  induction as with
  | nil => exact ⟨[], rfl⟩
  | cons a rest ih =>
    obtain ⟨b, first⟩ := each a (by simp)
    obtain ⟨bs, others⟩ := ih fun other member => each other (by simp [member])
    exact ⟨b :: bs, by simp [first, others, bind, Except.bind, pure, Except.pure]⟩

end Results

namespace Library

theorem linkAll_eq_ok_iff {lib : Library} {type : String} {names : List String} :
    lib.linkAll type names = .ok () ↔ ∀ name ∈ names, ∃ found, lib.resolve name = .ok found := by
  induction names with
  | nil => simp [linkAll]
  | cons name rest ih =>
    unfold linkAll
    split
    · rename_i found resolved
      simp [ih, resolved]
    · rename_i failed
      simp [failed]
    · rename_i failed
      simp [failed]

theorem link_eq_ok_iff {lib : Library} {type : ResolvedType} : lib.link type = .ok () ↔
    ∀ m ∈ type.methods, ∀ parameter ∈ m.parameters, ∃ found, lib.resolve parameter = .ok found := by
  simp only [link, linkAll_eq_ok_iff, List.mem_flatMap, forall_exists_index, and_imp]
  exact ⟨fun all m declared parameter member => all parameter m declared member,
    fun all parameter m declared member => all m declared parameter member⟩

end Library

namespace Candidate

variable {lib : Library} {root declaring valueType : ResolvedType} {oracle : NullabilityOracle}
  {m : Method} {derived : AttributeName} {c : Candidate}

/-- What a method has to be for a candidate, except that it must not be redundant. -/
structure Admits (lib : Library) (m : Method) (valueType : ResolvedType)
    (derived : AttributeName) : Prop where
  isPublic : m.isPublic = true
  notSynthetic : m.synthetic = false
  notBridge : m.bridge = false
  notDeprecated : m.isDeprecated = false
  resolves : ∃ parameter, m.parameters = [parameter] ∧ lib.resolve parameter = .ok valueType
  valuePublic : valueType.isPublic = true
  named : AttributeName.ofMethod? m.name m.parameters.length = some derived
  callback : derived.isListener = true → isCallback valueType = true

def ofAdmitted (oracle : NullabilityOracle) (declaring : ResolvedType) (m : Method)
    (valueType : ResolvedType) (derived : AttributeName) : Candidate :=
  { name := derived.name
    valueType, declaring
    method := m
    isListener := derived.isListener
    isNullable := derived.isListener ||
      (!valueType.isPrimitive && oracle.ofParameter m 0 = .nullable) }

theorem ofResolved?_eq_some_iff : ofResolved? root oracle declaring m valueType = some c ↔
    ∃ derived, valueType.isPublic = true ∧ m.isDeprecated = false ∧
      AttributeName.ofMethod? m.name m.parameters.length = some derived ∧
      (derived.isListener = true → isCallback valueType = true) ∧
      isRedundant root declaring m = false ∧
      c = ofAdmitted oracle declaring m valueType derived := by
  unfold ofResolved?
  constructor
  · intro result
    split at result
    · cases result
    rename_i shown
    split at result
    · cases result
    rename_i name isListener named
    split at result
    · cases result
    rename_i callback
    split at result
    · cases result
    rename_i fresh
    simp only [Bool.or_eq_true, Bool.not_eq_true', not_or, Bool.not_eq_false,
      Bool.not_eq_true] at shown
    exact ⟨⟨name, isListener⟩, shown.1, shown.2, named, by simpa using callback,
      Bool.eq_false_iff.mpr fresh, (Option.some.inj result).symm⟩
  · rintro ⟨⟨name, isListener⟩, valuePublic, current, named, callback, fresh, rfl⟩
    have callback : (isListener && !isCallback valueType) = false := by
      cases isListener
      · rfl
      · simp [callback rfl]
    simp [valuePublic, current, named, callback, fresh, ofAdmitted]

theorem one_parameter (named : AttributeName.ofMethod? m.name m.parameters.length = some derived) :
    ∃ parameter, m.parameters = [parameter] := by
  refine List.length_eq_one_iff.mp ?_
  by_contra other
  simp [AttributeName.ofMethod?, other] at named

theorem ofMethod?_eq_some_iff : ofMethod? lib root oracle declaring m = .ok (some c) ↔
    ∃ valueType derived, Admits lib m valueType derived ∧
      isRedundant root declaring m = false ∧
      c = ofAdmitted oracle declaring m valueType derived := by
  unfold ofMethod?
  constructor
  · intro result
    split at result
    · cases result
    rename_i shown
    split at result
    · cases result
    rename_i parameter rest parameters
    split at result
    · cases result
    · cases result
    rename_i valueType resolved
    obtain ⟨derived, valuePublic, current, named, callback, fresh, same⟩ :=
      ofResolved?_eq_some_iff.mp (Except.ok.inj result)
    obtain ⟨only, single⟩ := one_parameter named
    obtain ⟨rfl, rfl⟩ := List.cons.inj (parameters.symm.trans single)
    simp only [Bool.or_eq_true, Bool.not_eq_true', not_or, Bool.not_eq_false,
      Bool.not_eq_true] at shown
    exact ⟨valueType, derived, ⟨shown.1.1, shown.1.2, shown.2, current, ⟨_, single, resolved⟩,
      valuePublic, named, callback⟩, fresh, same⟩
  · rintro ⟨valueType, derived, admits, fresh, same⟩
    obtain ⟨parameter, single, resolved⟩ := admits.resolves
    have made : ofResolved? root oracle declaring m valueType = some c :=
      ofResolved?_eq_some_iff.mpr ⟨derived, admits.valuePublic, admits.notDeprecated, admits.named,
        admits.callback, fresh, same⟩
    simp [admits.isPublic, admits.notSynthetic, admits.notBridge, single, resolved, made]

/-- The candidate that a method makes, if it does and nothing goes wrong. -/
def made? (lib : Library) (root : ResolvedType) (oracle : NullabilityOracle)
    (declaring : ResolvedType) (m : Method) : Option Candidate :=
  (ofMethod? lib root oracle declaring m).toOption.join

theorem made?_eq (lib : Library) (root : ResolvedType) (oracle : NullabilityOracle)
    (declaring : ResolvedType) (m : Method) : made? lib root oracle declaring m =
      if !m.isPublic || m.synthetic || m.bridge then none
      else m.parameters.head?.bind fun parameter =>
        (lib.resolve parameter).toOption.bind (ofResolved? root oracle declaring m) := by
  unfold made? ofMethod?
  split
  · rfl
  cases m.parameters with
  | nil => rfl
  | cons parameter rest =>
    simp only [List.head?_cons, Option.bind_some]
    split <;> rename_i result <;> simp [result, Except.toOption]

theorem made?_eq_some_iff {c : Candidate} : made? lib root oracle declaring m = some c ↔
    ofMethod? lib root oracle declaring m = .ok (some c) := by
  unfold made?
  cases ofMethod? lib root oracle declaring m <;> simp [Except.toOption]

theorem mem_ofClass_iff {candidates : List Candidate}
    (result : ofClass lib root oracle declaring = .ok candidates) :
    c ∈ candidates ↔
      ∃ m ∈ declaring.methods, ofMethod? lib root oracle declaring m = .ok (some c) := by
  obtain ⟨made, each, rfl⟩ := map_eq_ok.mp result
  rw [List.reduceOption_mem_iff, mem_of_mapM_eq_ok each]
  simp only [List.mem_mergeSort]

theorem exists_ofMethod? (root : ResolvedType) (oracle : NullabilityOracle)
    (linked : lib.link declaring = .ok ()) (declared : m ∈ declaring.methods) :
    ∃ made, ofMethod? lib root oracle declaring m = .ok made := by
  unfold ofMethod?
  split
  · exact ⟨_, rfl⟩
  split
  · exact ⟨_, rfl⟩
  rename_i parameter rest parameters
  obtain ⟨found, resolved⟩ :=
    Library.link_eq_ok_iff.mp linked m declared parameter (by simp [parameters])
  simp [resolved]

theorem exists_ofClass (root : ResolvedType) (oracle : NullabilityOracle)
    (linked : lib.link declaring = .ok ()) :
    ∃ candidates, ofClass lib root oracle declaring = .ok candidates := by
  obtain ⟨made, each⟩ := exists_mapM_eq_ok fun m member =>
    exists_ofMethod? root oracle linked (List.mem_mergeSort.mp member)
  exact ⟨_, map_eq_ok.mpr ⟨made, each, rfl⟩⟩

end Candidate

namespace Catalog

variable {lib : Library} {root type : ResolvedType} {name : String}

theorem examine_eq_some_iff : examine lib root name = .ok (some type) ↔
    lib.resolve name = .ok type ∧ isEligible type root = true ∧ lib.link type = .ok () := by
  simp only [examine, bind_eq_ok]
  constructor
  · rintro ⟨found, resolved, result⟩
    split at result
    · rename_i eligible
      obtain ⟨done, linked, same⟩ := bind_eq_ok.mp result
      obtain rfl := Option.some.inj (Except.ok.inj same)
      exact ⟨resolved, eligible, linked⟩
    · cases result
  · rintro ⟨resolved, eligible, linked⟩
    exact ⟨type, resolved, by simp [eligible, linked, bind, Except.bind, pure, Except.pure]⟩

theorem examine_of_linked (resolved : lib.resolve name = .ok type)
    (linked : lib.link type = .ok ()) :
    examine lib root name = .ok (if isEligible type root then some type else none) := by
  simp only [examine, resolved, linked, bind, Except.bind]
  split <;> rfl

theorem mem_candidateNames {entries : List String} : name ∈ candidateNames entries ↔
    '$' ∉ name.toList ∧ ∃ entry ∈ entries, binaryName? entry = some name := by
  simp [candidateNames, and_comm]

theorem mem_candidateNames_ofArchives {scanned dependencies : List Archive} :
    name ∈ candidateNames (Scan.ofArchives scanned dependencies).entries ↔
      name ∈ candidateNames (scanned.flatMap fun archive => archive.entries.keys) := by
  simp only [mem_candidateNames, Scan.ofArchives, (Descriptor.sorted_perm _).mem_iff,
    List.mem_eraseDups, List.mem_flatMap, Archive.classEntries, List.mem_filter]
  refine and_congr_right fun _ => exists_congr fun entry => and_congr_left fun named => ?_
  simp [named]

theorem mem_ofNames {names : List String} {types : List ResolvedType} {warnings : List Warning}
    (result : ofNames lib root names = .ok (types, warnings)) :
    type ∈ types ↔ ∃ name ∈ names, examine lib root name = .ok (some type) := by
  induction names generalizing types warnings with
  | nil =>
    cases result
    simp
  | cons name rest ih =>
    unfold ofNames at result
    split at result
    · cases result
    · rename_i failed
      obtain ⟨⟨others, more⟩, later, same⟩ := map_eq_ok.mp result
      cases same
      simp [ih later, failed]
    · rename_i left
      simp [ih result, left]
    · rename_i found examined
      obtain ⟨⟨others, more⟩, later, same⟩ := map_eq_ok.mp result
      cases same
      simp [ih later, examined, eq_comm]

theorem resolveRoot_eq_ok_iff {rootName : String} : resolveRoot lib rootName = .ok root ↔
    lib.resolve rootName = .ok root ∧ root.kind = .classType := by
  unfold resolveRoot
  cases lib.resolve rootName with
  | error fault => cases fault <;> simp
  | ok found =>
    by_cases isClass : found.kind = .classType
    · simp only [isClass, if_true, Except.ok.injEq]
      exact ⟨fun same => ⟨same, same ▸ isClass⟩, And.left⟩
    · simp only [isClass, if_false, Except.ok.injEq]
      exact ⟨nofun, fun ⟨same, rootIsClass⟩ => absurd (same ▸ rootIsClass) isClass⟩

/-- What a catalog is made of: its root is a class, and its types and warnings are those of the names
among the entries. -/
theorem ofScan_eq_ok_iff {scan : Scan} {catalog : Catalog} {rootName : String} :
    ofScan scan rootName = .ok catalog ↔
      scan.library.resolve rootName = .ok catalog.root ∧ catalog.root.kind = .classType ∧
      ∃ types, ofNames scan.library catalog.root (candidateNames scan.entries) =
          .ok (types, catalog.warnings) ∧ catalog.classes = inOrder types := by
  obtain ⟨root, classes, warnings⟩ := catalog
  simp only [ofScan, bind_eq_ok, resolveRoot_eq_ok_iff, pure, Except.pure, Except.ok.injEq,
    mk.injEq, Prod.exists]
  constructor
  · rintro ⟨root, ⟨resolved, isClass⟩, types, warnings, listed, rfl, rfl, rfl⟩
    exact ⟨resolved, isClass, types, listed, rfl⟩
  · rintro ⟨resolved, isClass, types, listed, rfl⟩
    exact ⟨root, ⟨resolved, isClass⟩, types, warnings, listed, rfl, rfl, rfl⟩

theorem mem_classes {scan : Scan} {catalog : Catalog} {rootName : String}
    (result : ofScan scan rootName = .ok catalog) :
    type ∈ catalog.classes ↔ ∃ name ∈ candidateNames scan.entries,
      examine scan.library catalog.root name = .ok (some type) := by
  obtain ⟨-, -, types, listed, classes⟩ := ofScan_eq_ok_iff.mp result
  rw [← mem_ofNames listed, classes, inOrder, List.mem_mergeSort]

theorem resolve_root {scan : Scan} {catalog : Catalog} {rootName : String}
    (result : ofScan scan rootName = .ok catalog) :
    scan.library.resolve rootName = .ok catalog.root :=
  (ofScan_eq_ok_iff.mp result).1

theorem exists_ofNames {names : List String}
    (acyclic : ∀ name ∈ names, ∀ other, examine lib root name ≠ .error (.cyclic other)) :
    ∃ types warnings, ofNames lib root names = .ok (types, warnings) := by
  induction names with
  | nil => exact ⟨[], [], rfl⟩
  | cons name rest ih =>
    obtain ⟨types, warnings, later⟩ := ih fun other member => acyclic other (by simp [member])
    unfold ofNames
    split
    · rename_i failed
      exact absurd failed (acyclic name (by simp) _)
    all_goals exact ⟨_, _, by simp only [later]; rfl⟩

theorem exists_ofScan {scan : Scan} {rootName : String}
    (resolved : scan.library.resolve rootName = .ok root)
    (isClass : root.kind = .classType)
    (acyclic : ∀ name ∈ candidateNames scan.entries, ∀ other,
      examine scan.library root name ≠ .error (.cyclic other)) :
    ∃ catalog, ofScan scan rootName = .ok catalog := by
  obtain ⟨types, warnings, listed⟩ := exists_ofNames acyclic
  exact ⟨⟨root, inOrder types, warnings⟩,
    ofScan_eq_ok_iff.mpr ⟨resolved, isClass, types, listed, rfl⟩⟩

end Catalog

theorem Entries.mem_of_get? {α : Type} {entries : Entries α} {name : String} {value : α}
    (found : entries.get? name = some value) : (name, value) ∈ entries := by
  obtain ⟨before, after, split, -⟩ := List.lookup_eq_some_iff.mp found
  rw [split]
  simp

namespace OverrideTable

variable {table : OverrideTable} {c : Candidate}

def overrides (table : OverrideTable) : List Override :=
  table.classes.flatMap fun entry => entry.2.map (·.2)

theorem mem_overrides_of_get? {className key : String} {override : Override}
    (keyed : (table.ofClass className).get? key = some override) : override ∈ table.overrides := by
  have inside := Entries.mem_of_get? keyed
  unfold ofClass at inside
  cases entry : table.classes.get? className with
  | none => simp [entry] at inside
  | some own =>
    rw [entry] at inside
    exact List.mem_flatMap.mpr ⟨_, Entries.mem_of_get? entry, List.mem_map.mpr ⟨_, inside, rfl⟩⟩

theorem mem_overrides_of_lookup {override : Override} (found : table.lookup c = some override) :
    override ∈ table.overrides := by
  obtain ⟨key, -, keyed⟩ := List.exists_of_findSome?_eq_some found
  exact mem_overrides_of_get? keyed

theorem excludesClass_eq_false (kept : .excluded ∉ table.overrides) (className : String) :
    table.excludesClass className = false := by
  unfold excludesClass classAlias
  split
  · simp
  · rename_i keyed
    exact absurd (mem_overrides_of_get? keyed) kept
  · simp

theorem excludesMethod_eq_false (kept : .excluded ∉ table.overrides) (c : Candidate) :
    table.excludesMethod c = false := by
  unfold excludesMethod
  split
  · rename_i found
    exact absurd (mem_overrides_of_lookup found) kept
  · rfl

theorem empty_keeps : .excluded ∉ empty.overrides :=
  List.not_mem_nil

end OverrideTable

namespace Analysis

variable {lib : Library} {root : ResolvedType} {overrides : OverrideTable}
  {oracle : NullabilityOracle} {c : Candidate}

theorem mem_collect {types : List ResolvedType} {candidates : List Candidate}
    {excluded : List String}
    (result : collect lib root overrides oracle types = .ok (candidates, excluded)) :
    c ∈ candidates ↔ ∃ type ∈ types, overrides.excludesClass type.canonicalName = false ∧
      overrides.excludesMethod c = false ∧
      ∃ m ∈ type.methods, Candidate.ofMethod? lib root oracle type m = .ok (some c) := by
  induction types generalizing candidates excluded with
  | nil =>
    cases result
    simp
  | cons type rest ih =>
    unfold collect at result
    split at result
    · rename_i out
      obtain ⟨⟨others, more⟩, later, same⟩ := map_eq_ok.mp result
      cases same
      simp [ih later, out]
    · rename_i kept
      obtain ⟨own, classified, result⟩ := bind_eq_ok.mp result
      obtain ⟨⟨others, more⟩, later, same⟩ := bind_eq_ok.mp result
      cases same
      simp [ih later, Candidate.mem_ofClass_iff classified, kept, and_comm]

theorem exists_collect (root : ResolvedType) (overrides : OverrideTable)
    (oracle : NullabilityOracle) {types : List ResolvedType}
    (linked : ∀ type ∈ types, lib.link type = .ok ()) :
    ∃ candidates excluded, collect lib root overrides oracle types = .ok (candidates, excluded) := by
  induction types with
  | nil => exact ⟨[], [], rfl⟩
  | cons type rest ih =>
    obtain ⟨candidates, excluded, later⟩ := ih fun other member => linked other (by simp [member])
    obtain ⟨own, classified⟩ := Candidate.exists_ofClass root oracle (linked type (by simp))
    unfold collect
    split
    · exact ⟨_, _, map_eq_ok.mpr ⟨_, later, rfl⟩⟩
    · exact ⟨_, _, bind_eq_ok.mpr ⟨own, classified, bind_eq_ok.mpr ⟨_, later, rfl⟩⟩⟩

end Analysis

namespace Generator

variable {generator : Generator} {scan : Scan} {analysis : Analysis}

/-- What an analysis of a scan holds. -/
structure Finds (generator : Generator) (scan : Scan) (analysis : Analysis) : Prop where
  root : scan.library.resolve generator.config.root = .ok analysis.root
  classes : ∀ type, type ∈ analysis.classes ↔ ∃ name ∈ Catalog.candidateNames scan.entries,
    Catalog.examine scan.library analysis.root name = .ok (some type)
  candidates : ∀ c, c ∈ analysis.candidates ↔ ∃ type ∈ analysis.classes,
    generator.overrides.excludesClass type.canonicalName = false ∧
      generator.overrides.excludesMethod c = false ∧
      ∃ m ∈ type.methods, Candidate.ofMethod? scan.library analysis.root
        generator.effectiveOracle type m = .ok (some c)
  groups : analysis.groups = Group.ofAll analysis.candidates

theorem finds_of_analyzeScan (analyzed : generator.analyzeScan scan = .ok analysis) :
    generator.Finds scan analysis := by
  obtain ⟨catalog, listed, result⟩ := bind_eq_ok.mp analyzed
  have listed := mapError_eq_ok.mp listed
  obtain ⟨⟨candidates, excluded⟩, collected, result⟩ := bind_eq_ok.mp (mapError_eq_ok.mp result)
  cases result
  exact ⟨Catalog.resolve_root listed, fun type => Catalog.mem_classes listed,
    fun c => Analysis.mem_collect collected, rfl⟩

theorem catalog_linked {catalog : Catalog} (listed : generator.catalog scan = .ok catalog) :
    ∀ type ∈ catalog.classes, scan.library.link type = .ok () := by
  intro type member
  obtain ⟨name, -, examined⟩ := (Catalog.mem_classes (mapError_eq_ok.mp listed)).mp member
  exact (Catalog.examine_eq_some_iff.mp examined).2.2

/-- What is classified is linked, so that an analysis cannot fail once the catalog is there. -/
theorem exists_analysis_of_catalog {catalog : Catalog}
    (listed : generator.catalog scan = .ok catalog) :
    ∃ analysis, generator.analyzeScan scan = .ok analysis := by
  obtain ⟨candidates, excluded, collected⟩ := Analysis.exists_collect catalog.root
    generator.overrides generator.effectiveOracle (catalog_linked listed)
  exact ⟨_, bind_eq_ok.mpr ⟨catalog, listed, mapError_eq_ok.mpr <|
    bind_eq_ok.mpr ⟨_, collected, rfl⟩⟩⟩

theorem exists_analyzeScan {root : ResolvedType}
    (resolved : scan.library.resolve generator.config.root = .ok root)
    (isClass : root.kind = .classType)
    (acyclic : ∀ name ∈ Catalog.candidateNames scan.entries, ∀ other,
      Catalog.examine scan.library root name ≠ .error (.cyclic other)) :
    ∃ analysis, generator.analyzeScan scan = .ok analysis := by
  obtain ⟨catalog, listed⟩ := Catalog.exists_ofScan resolved isClass acyclic
  exact exists_analysis_of_catalog (mapError_eq_ok.mpr listed)

namespace Finds

variable {type : ResolvedType} {c : Candidate}

theorem root_loaded (finds : generator.Finds scan analysis) : scan.library.Loaded analysis.root :=
  ⟨_, finds.root⟩

theorem class_loaded (finds : generator.Finds scan analysis) (member : type ∈ analysis.classes) :
    scan.library.Loaded type := by
  obtain ⟨name, -, examined⟩ := (finds.classes type).mp member
  exact ⟨name, (Catalog.examine_eq_some_iff.mp examined).1⟩

theorem class_below (finds : generator.Finds scan analysis) (member : type ∈ analysis.classes) :
    type.name = analysis.root.name ∨ type.isSubtypeOf analysis.root = true := by
  obtain ⟨name, -, examined⟩ := (finds.classes type).mp member
  have eligible := (Catalog.examine_eq_some_iff.mp examined).2.1
  simp only [Catalog.isEligible, Bool.and_eq_true, Bool.or_eq_true, decide_eq_true_eq] at eligible
  exact eligible.2

theorem candidate (finds : generator.Finds scan analysis) (member : c ∈ analysis.candidates) :
    c.declaring ∈ analysis.classes ∧ c.method ∈ c.declaring.methods ∧
      ∃ derived, Candidate.Admits scan.library c.method c.valueType derived ∧
        Candidate.isRedundant analysis.root c.declaring c.method = false ∧
        c.name = derived.name ∧ c.isListener = derived.isListener := by
  obtain ⟨type, inside, -, -, m, declared, makes⟩ := (finds.candidates c).mp member
  obtain ⟨valueType, derived, admits, fresh, rfl⟩ := Candidate.ofMethod?_eq_some_iff.mp makes
  exact ⟨inside, declared, derived, admits, fresh, rfl, rfl⟩

end Finds

end Generator

end WidgetDsl
