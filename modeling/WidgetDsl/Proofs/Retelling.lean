import WidgetDsl.Proofs.InterfaceWalk
import WidgetDsl.Proofs.Redundancy
import WidgetDsl.Proofs.SameSource

/-!
Analyses of libraries that define the same names alike. Classes and candidates are read off the names
and methods one by one, so that two analyses look alike if they do so name by name and method by
method.
-/

namespace WidgetDsl

open Relation

namespace Library

open ResolvedType

variable {lib other : Library} {view : View} {inside : String → Prop} {type above : ResolvedType}

def declared (lib : Library) : List ClassDecl :=
  lib.archives.flatMap fun archive => archive.entries.map (·.2)

theorem map_declarations (lib : Library) :
    lib.declarations.map (·.1) = lib.declared ++ platformClasses := by
  simp [declared, declarations, List.map_flatMap, Function.comp_def]

def methodsOf (lib : Library) (name : String) : List Method :=
  match lib.define? name with
  | some (.declared decl _) => decl.methods
  | _ => []

def builtin? (name : String) : Option Definition :=
  if name = "void" then some .void
  else if Java.isPrimitive name then some .primitive
  else (Java.componentName? name).map .array

theorem define?_eq (lib : Library) (name : String) : lib.define? name =
    (builtin? name).or ((lib.declarations.find? (·.1.name = name)).map fun found =>
      .declared found.1 found.2) := by
  unfold define? builtin?
  split
  · rfl
  split
  · rfl
  cases Java.componentName? name <;> simp

theorem builtin?_ne_declared {name origin : String} {decl : ClassDecl} :
    builtin? name ≠ some (.declared decl origin) := by
  unfold builtin?
  split
  · simp
  split
  · simp
  · cases Java.componentName? name <;> simp

theorem methodsOf_eq (lib : Library) (name : String) : lib.methodsOf name =
    (builtin? name).elim ((lib.declarations.find? (·.1.name = name)).elim []
      fun found => found.1.methods) fun _ => [] := by
  unfold methodsOf
  rw [define?_eq]
  cases builtin : builtin? name with
  | none => cases lib.declarations.find? (·.1.name = name) <;> rfl
  | some definition =>
    cases definition with
    | declared decl origin => exact absurd builtin builtin?_ne_declared
    | _ => rfl

theorem methods_of_resolve {name : String} (resolved : lib.resolve name = .ok type) :
    type.methods = lib.methodsOf name := by
  cases builds_iff_resolve.mpr resolved with
  | @intro _ definition types defined parts =>
    unfold methodsOf
    rw [defined]
    cases definition <;> rfl

theorem Loaded.resolve (loaded : lib.Loaded type) : lib.resolve type.name = .ok type :=
  builds_iff_resolve.mp loaded.builds

theorem Loaded.needs (loaded : lib.Loaded type) (under : type.Under above) :
    lib.Needs type.name above.name := by
  obtain ⟨name, resolved⟩ := loaded
  have built := builds_iff_resolve.mpr resolved
  rw [built.name_eq]
  cases built with
  | @intro _ definition types defined parts =>
    obtain ⟨needed, depends, rfl⟩ := List.mem_map.mp (Definition.mem_of_under_assemble under)
    rw [(parts needed depends).name_eq]
    exact ⟨definition, defined, depends⟩

theorem AgreeOn.inside_above (agree : lib.AgreeOn other view inside) (loaded : lib.Loaded type)
    (member : inside type.name) (up : ReflTransGen Under type above) : inside above.name := by
  induction up with
  | refl => exact member
  | tail before under ih => exact agree.closed _ ih _ ((loaded.above before).needs under)

theorem AgreeOn.exists_resolve (agree : lib.AgreeOn other view inside) {name : String}
    (member : inside name) (resolved : lib.resolve name = .ok type) :
    ∃ type', other.resolve name = .ok type' ∧ type'.through view = type.through view := by
  have same := agree.resolve member
  rw [resolved] at same
  exact map_eq_ok.mp same

theorem linkAll_congr {view : View} {names : List String} (typeName : String)
    (same : ∀ name ∈ names, (other.resolve name).map (·.through view) =
      (lib.resolve name).map (·.through view)) :
    other.linkAll typeName names = lib.linkAll typeName names := by
  induction names with
  | nil => rfl
  | cons name rest ih =>
    have first := same name (by simp)
    have later := ih fun other member => same other (List.mem_cons_of_mem name member)
    rw [linkAll, linkAll, later]
    cases resolved : lib.resolve name <;> cases resolvedToo : other.resolve name <;>
      simp [resolved, resolvedToo, Except.map] at first ⊢
    rw [first]

/-- Two libraries that agree on the names of a set, on what their methods leave to be implemented, and
whose methods mention only names of the set. -/
structure Retells (lib other : Library) (view : View) (inside : String → Prop) : Prop extends
    lib.AgreeOn other view inside where
  offered : ∀ name, inside name → ∀ signature,
    ((lib.methodsOf name).filter (·.isOpen)).find? (·.signature = signature) =
      ((other.methodsOf name).filter (·.isOpen)).find? (·.signature = signature)
  mentioned : ∀ name, inside name → ∀ m ∈ lib.methodsOf name, ∀ parameter ∈ m.parameters,
    inside parameter

end Library

namespace ResolvedType

theorem above_of_mem_interfaceClosure {type other : ResolvedType}
    (member : other ∈ type.interfaceClosure) : ReflTransGen Under type other :=
  ReflTransGen.mono (fun _ _ => Lists.under) _ _ (reaches_of_mem_interfaceClosure member)

theorem find?_offered (type : ResolvedType) (signature : Signature) :
    type.offered.find? (·.signature = signature) = (type.interfaceClosure.map fun interface =>
      (interface.methods.filter (·.isOpen)).find? (·.signature = signature)).findSome? id := by
  have own : type.offered =
      type.interfaceClosure.flatMap fun interface => interface.methods.filter (·.isOpen) := by
    simp only [offered, List.map_flatMap, ownAbstractMethods, List.map_map]
    congr 1
    funext interface
    exact List.map_id _
  rw [own, List.find?_flatMap, List.findSome?_map]
  rfl

end ResolvedType

namespace Library

open ResolvedType

variable {lib other : Library} {view : View} {inside : String → Prop} {type type' : ResolvedType}

theorem Retells.required_eq (retells : lib.Retells other view inside) (loaded : lib.Loaded type)
    (loadedToo : other.Loaded type') (alike : type.through view = type'.through view)
    (member : inside type.name) : type.required = type'.required := by
  apply required_eq_of_find?
  intro signature
  have closures : type.interfaceClosure.map (·.through view) =
      type'.interfaceClosure.map (·.through view) := by
    simpa using congrArg interfaceClosure alike
  rw [find?_offered, find?_offered]
  congr 1
  apply map_eq_of_alike closures
  intro interface reached interface' reachedToo same
  have up := above_of_mem_interfaceClosure reached
  have upToo := above_of_mem_interfaceClosure reachedToo
  have named : interface.name = interface'.name := by simpa using congrArg ResolvedType.name same
  rw [methods_of_resolve (loaded.above up).resolve, methods_of_resolve (loadedToo.above upToo).resolve,
    ← named]
  exact retells.offered _ (retells.inside_above loaded member up) signature

end Library

namespace Candidate

variable {lib other : Library} {view : View} {inside : String → Prop}
  {root root' declaring declaring' above : ResolvedType} {oracle : NullabilityOracle} {m : Method}

theorem ofClass_eq {candidates : List Candidate}
    (result : ofClass lib root oracle declaring = .ok candidates) :
    candidates = (Method.inOrder declaring.methods).filterMap (made? lib root oracle declaring) := by
  obtain ⟨made, each, rfl⟩ := map_eq_ok.mp result
  have all : (Method.inOrder declaring.methods).map (made? lib root oracle declaring) = made := by
    have same := congrArg (List.map fun answer => answer.toOption.join) (mapM_eq_ok.mp each)
    rw [List.map_map, List.map_map] at same
    exact same.trans (List.map_id made)
  rw [← all, List.reduceOption, List.filterMap_map]
  rfl

theorem origin_of_made? {c : Candidate} (made : made? lib root oracle declaring m = some c) :
    c.declaring = declaring ∧ c.method = m := by
  obtain ⟨valueType, derived, -, -, rfl⟩ := ofMethod?_eq_some_iff.mp (made?_eq_some_iff.mp made)
  exact ⟨rfl, rfl⟩

theorem upTo_through (name : String) (types : List ResolvedType) :
    upTo name (types.map (·.through view)) = (upTo name types).map (·.through view) := by
  induction types with
  | nil => rfl
  | cons type rest ih =>
    simp only [List.map_cons, upTo, ResolvedType.through_name, ih]
    split <;> rfl

theorem mem_superclasses_of_walked (walked : above ∈ redundancyWalk root declaring) :
    above ∈ declaring.superclasses := by
  unfold redundancyWalk at walked
  split at walked
  · cases walked
  · exact mem_of_mem_upTo walked

theorem loaded_of_walked (loaded : lib.Loaded declaring)
    (walked : above ∈ redundancyWalk root declaring) : lib.Loaded above :=
  loaded.above
    (ResolvedType.above_of_mem_superclasses (mem_superclasses_of_walked walked)).to_reflTransGen

theorem redundancyWalk_alike (alike : declaring.through view = declaring'.through view)
    (named : root.name = root'.name) : (redundancyWalk root declaring).map (·.through view) =
      (redundancyWalk root' declaring').map (·.through view) := by
  have names : declaring.name = declaring'.name := by
    simpa using congrArg ResolvedType.name alike
  have above : declaring.superclasses.map (·.through view) =
      declaring'.superclasses.map (·.through view) := by
    simpa using congrArg ResolvedType.superclasses alike
  unfold redundancyWalk
  rw [names, named]
  split
  · rfl
  · rw [← upTo_through, ← upTo_through, above]

/-- Whether an attribute's method is redundant is the same for classes that are alike, if those above
them declare its signature alike. -/
theorem isRedundant_eq (alike : declaring.through view = declaring'.through view)
    (named : root.name = root'.name)
    (declares : ∀ above ∈ redundancyWalk root declaring, ∀ above' ∈ redundancyWalk root' declaring',
      above.through view = above'.through view →
        above.declares m.signature = above'.declares m.signature) :
    isRedundant root declaring m = isRedundant root' declaring' m := by
  have each := map_eq_of_alike (redundancyWalk_alike alike named) declares
  have any (types : List ResolvedType) : types.any (·.declares m.signature) =
      (types.map (·.declares m.signature)).any id := by
    simp
  rw [isRedundant_eq_any, isRedundant_eq_any, any, any, each]

theorem ofResolved?_alike {valueType valueType' : ResolvedType}
    (alike : declaring.through view = declaring'.through view)
    (redundant : isRedundant root declaring m = isRedundant root' declaring' m)
    (values : valueType.through view = valueType'.through view)
    (required : valueType.required = valueType'.required) :
    (ofResolved? root oracle declaring m valueType).map (·.through view) =
      (ofResolved? root' oracle declaring' m valueType').map (·.through view) := by
  have kinds : valueType.kind = valueType'.kind := by simpa using congrArg ResolvedType.kind values
  have isPublic : valueType.isPublic = valueType'.isPublic := by
    simpa [ResolvedType.isPublic] using congrArg ResolvedType.isPublic values
  have callback : isCallback valueType = isCallback valueType' := by
    have empty := congrArg List.isEmpty required
    simp only [ResolvedType.required, List.isEmpty_map] at empty
    simp only [isCallback, ResolvedType.isInterface, kinds, empty]
  have isPrimitive : valueType.isPrimitive = valueType'.isPrimitive := by
    simp only [ResolvedType.isPrimitive, kinds]
  unfold ofResolved?
  rw [isPublic, redundant]
  split
  · rfl
  split
  · rfl
  rw [callback]
  split
  · rfl
  split
  · rfl
  simp [through, values, alike, isPrimitive]

theorem made?_alike (retells : lib.Retells other view inside)
    (alike : declaring.through view = declaring'.through view)
    (redundant : isRedundant root declaring m = isRedundant root' declaring' m)
    (mentioned : ∀ parameter ∈ m.parameters, inside parameter) :
    (made? lib root oracle declaring m).map (·.through view) =
      (made? other root' oracle declaring' m).map (·.through view) := by
  rw [made?_eq, made?_eq]
  split
  · rfl
  match parameters : m.parameters with
  | [] => rfl
  | parameter :: rest =>
    have member : inside parameter := mentioned parameter (by simp [parameters])
    have same := retells.resolve member
    simp only [List.head?_cons, Option.bind_some]
    cases resolved : lib.resolve parameter with
    | error fault =>
      cases resolvedToo : other.resolve parameter with
      | error => rfl
      | ok valueType => simp [resolved, resolvedToo, Except.map] at same
    | ok valueType =>
      obtain ⟨valueType', resolvedToo, values⟩ := retells.exists_resolve member resolved
      have named := (Library.builds_iff_resolve.mpr resolved).name_eq
      have required := retells.required_eq ⟨_, resolved⟩ ⟨_, resolvedToo⟩ values.symm
        (named ▸ member)
      rw [resolvedToo]
      exact ofResolved?_alike alike redundant values.symm required

end Candidate

namespace Catalog

variable {lib other : Library} {view : View} {inside : String → Prop}
  {root root' type : ResolvedType} {name : String}

def found? (lib : Library) (root : ResolvedType) (name : String) : Option ResolvedType :=
  (examine lib root name).toOption.join

def warning? (lib : Library) (root : ResolvedType) (name : String) : Option Warning :=
  match examine lib root name with
  | .error (.unresolved _ missing) => some (.unresolvableClass name missing)
  | _ => none

theorem found?_eq (lib : Library) (root : ResolvedType) (name : String) : found? lib root name =
    (lib.resolve name).toOption.filter fun type =>
      isEligible type root && (lib.link type).isOk := by
  simp only [found?, examine]
  cases lib.resolve name with
  | error fault => rfl
  | ok type =>
    by_cases eligible : isEligible type root = true
    · cases linked : lib.link type <;>
        simp [eligible, linked, bind, Except.bind, pure, Except.pure, Except.toOption, Except.isOk,
          Except.toBool, Option.filter_some]
    · simp [eligible, bind, Except.bind, pure, Except.pure, Except.toOption, Option.filter_some]

theorem found?_eq_some_iff : found? lib root name = some type ↔
    examine lib root name = .ok (some type) := by
  unfold found?
  cases examine lib root name <;> simp [Except.toOption]

theorem ofNames_eq {names : List String} {types : List ResolvedType} {warnings : List Warning}
    (result : ofNames lib root names = .ok (types, warnings)) :
    types = names.filterMap (found? lib root) ∧ warnings = names.filterMap (warning? lib root) := by
  induction names generalizing types warnings with
  | nil =>
    cases result
    exact ⟨rfl, rfl⟩
  | cons name rest ih =>
    unfold ofNames at result
    split at result
    · cases result
    · rename_i missing failed
      obtain ⟨⟨others, more⟩, later, same⟩ := map_eq_ok.mp result
      cases same
      obtain ⟨laterTypes, laterWarnings⟩ := ih later
      have found : found? lib root name = none := by simp [found?, failed, Except.toOption]
      have warned : warning? lib root name = some (.unresolvableClass name missing) := by
        simp [warning?, failed]
      rw [List.filterMap_cons_none found, List.filterMap_cons_some warned, ← laterTypes,
        ← laterWarnings]
      exact ⟨rfl, rfl⟩
    · rename_i left
      obtain ⟨laterTypes, laterWarnings⟩ := ih result
      have found : found? lib root name = none := by simp [found?, left, Except.toOption]
      have quiet : warning? lib root name = none := by simp [warning?, left]
      rw [List.filterMap_cons_none found, List.filterMap_cons_none quiet]
      exact ⟨laterTypes, laterWarnings⟩
    · rename_i type examined
      obtain ⟨⟨others, more⟩, later, same⟩ := map_eq_ok.mp result
      cases same
      obtain ⟨laterTypes, laterWarnings⟩ := ih later
      have found : found? lib root name = some type := by simp [found?, examined, Except.toOption]
      have quiet : warning? lib root name = none := by simp [warning?, examined]
      rw [List.filterMap_cons_some found, List.filterMap_cons_none quiet, ← laterTypes,
        ← laterWarnings]
      exact ⟨rfl, rfl⟩

theorem not_cyclic_of_ofNames {names : List String} {result : List ResolvedType × List Warning}
    (listed : ofNames lib root names = .ok result) :
    ∀ name ∈ names, ∀ again, examine lib root name ≠ .error (.cyclic again) := by
  induction names generalizing result with
  | nil => simp
  | cons name rest ih =>
    intro other member again
    have later : ∃ result, ofNames lib root rest = .ok result := by
      unfold ofNames at listed
      split at listed
      · cases listed
      · obtain ⟨result, later, -⟩ := map_eq_ok.mp listed
        exact ⟨result, later⟩
      · exact ⟨result, listed⟩
      · obtain ⟨result, later, -⟩ := map_eq_ok.mp listed
        exact ⟨result, later⟩
    rcases List.mem_cons.mp member with rfl | inside
    · intro cyclic
      simp [ofNames, cyclic] at listed
    · obtain ⟨result, later⟩ := later
      exact ih later other inside again

theorem isEligible_eq {type' : ResolvedType} (alike : type.through view = type'.through view)
    (named : root.name = root'.name) : isEligible type root = isEligible type' root' := by
  have through (type root : ResolvedType) :
      isEligible (type.through view) root = isEligible type root := by
    simp [isEligible, ResolvedType.isPublic, ResolvedType.isNested, ResolvedType.isSubtypeOf]
  rw [← through type, alike, through]
  simp only [isEligible, ResolvedType.isSubtypeOf, named]

theorem found?_alike (agree : lib.AgreeOn other view inside) (named : root.name = root'.name)
    (member : inside name)
    (linked : ∀ type type', lib.resolve name = .ok type → other.resolve name = .ok type' →
      (lib.link type = .ok () ↔ other.link type' = .ok ())) :
    (found? lib root name).map (·.through view) = (found? other root' name).map (·.through view) := by
  have same := agree.resolve member
  rw [found?_eq, found?_eq]
  cases resolved : lib.resolve name with
  | error fault =>
    cases resolvedToo : other.resolve name with
    | error => rfl
    | ok type => simp [resolved, resolvedToo, Except.map] at same
  | ok type =>
    obtain ⟨type', resolvedToo, alike⟩ := agree.exists_resolve member resolved
    have eligible := isEligible_eq alike.symm named
    have links : (lib.link type).isOk = (other.link type').isOk := by
      have iff := linked type type' resolved resolvedToo
      cases linking : lib.link type <;> cases linkingToo : other.link type' <;>
        simp [linking, linkingToo, Except.isOk, Except.toBool] at iff ⊢
    rw [resolvedToo]
    simp only [Except.toOption, Option.filter_some, eligible, links]
    split
    · exact congrArg some alike.symm
    · rfl

theorem inOrder_through (types : List ResolvedType) :
    (inOrder types).map (·.through view) = inOrder (types.map (·.through view)) := by
  apply List.map_mergeSort
  intro a _ b _
  rw [ResolvedType.canonicalName_through, ResolvedType.canonicalName_through]

end Catalog

namespace Analysis

variable {lib : Library} {root : ResolvedType} {overrides : OverrideTable}
  {oracle : NullabilityOracle}

def kept (overrides : OverrideTable) (type : ResolvedType) (own : List Candidate) :
    List Candidate :=
  if overrides.excludesClass type.canonicalName then []
  else own.filter fun candidate => !overrides.excludesMethod candidate

def own (lib : Library) (root : ResolvedType) (oracle : NullabilityOracle) (type : ResolvedType) :
    List Candidate :=
  (Method.inOrder type.methods).filterMap (Candidate.made? lib root oracle type)

theorem collect_eq {types : List ResolvedType} {candidates : List Candidate}
    {excluded : List String}
    (result : collect lib root overrides oracle types = .ok (candidates, excluded)) :
    candidates = types.flatMap fun type => kept overrides type (own lib root oracle type) := by
  induction types generalizing candidates excluded with
  | nil =>
    cases result
    rfl
  | cons type rest ih =>
    rw [List.flatMap_cons]
    unfold collect at result
    split at result
    · rename_i out
      obtain ⟨⟨others, more⟩, later, same⟩ := map_eq_ok.mp result
      cases same
      rw [kept, if_pos out, ← ih later]
      rfl
    · rename_i counts
      obtain ⟨made, classified, result⟩ := bind_eq_ok.mp result
      obtain ⟨⟨others, more⟩, later, same⟩ := bind_eq_ok.mp result
      cases same
      rw [kept, if_neg counts, ← ih later, Candidate.ofClass_eq classified]
      rfl

theorem own_alike {other : Library} {view : View} {inside : String → Prop}
    {root' type type' : ResolvedType} (retells : lib.Retells other view inside)
    (loaded : lib.Loaded type) (known : inside type.name)
    (alike : type.through view = type'.through view)
    (methods : Method.inOrder type.methods = Method.inOrder type'.methods)
    (redundant : ∀ m, Candidate.isRedundant root type m = Candidate.isRedundant root' type' m) :
    (own lib root oracle type).map (·.through view) =
      (own other root' oracle type').map (·.through view) := by
  rw [own, own, ← methods, List.map_filterMap, List.map_filterMap]
  apply List.filterMap_congr
  intro m member
  apply Candidate.made?_alike retells alike (redundant m)
  have listed := List.mem_mergeSort.mp member
  rw [Library.methods_of_resolve loaded.resolve] at listed
  exact retells.mentioned type.name known m listed

theorem kept_alike {view : View} {type type' : ResolvedType} {cs ds : List Candidate}
    (named : type.name = type'.name)
    (alike : cs.map (·.through view) = ds.map (·.through view)) :
    (kept overrides type cs).map (·.through view) =
      (kept overrides type' ds).map (·.through view) := by
  have excludes (c : Candidate) :
      overrides.excludesMethod (c.through view) = overrides.excludesMethod c := by
    simp [OverrideTable.excludesMethod, OverrideTable.lookup, OverrideTable.candidateKeys]
  have keep (cs : List Candidate) : (cs.filter fun c => !overrides.excludesMethod c).map
      (·.through view) =
      (cs.map (·.through view)).filter fun c => !overrides.excludesMethod c := by
    simp [List.filter_map, Function.comp_def, excludes]
  have names : type.canonicalName = type'.canonicalName := by
    simp only [ResolvedType.canonicalName, named]
  rw [kept, kept, names]
  split
  · rfl
  · rw [keep, keep, alike]

end Analysis

theorem Archive.mem_flatMap_classEntries {archives : List Archive} {entry : String} :
    entry ∈ archives.flatMap Archive.classEntries ↔
      entry ∈ archives.flatMap (·.entries.keys) ∧ (binaryName? entry).isSome = true := by
  simp only [classEntries, List.mem_flatMap, (Descriptor.sorted_perm _).mem_iff, List.mem_filter]
  constructor
  · rintro ⟨archive, member, key, isClass⟩
    exact ⟨⟨archive, member, key⟩, isClass⟩
  · rintro ⟨⟨archive, member, key⟩, isClass⟩
    exact ⟨archive, member, key, isClass⟩

namespace Scan

variable {scanned dependencies scanned' dependencies' : List Archive} {entry : String}

theorem entries_increasing : (ofArchives scanned dependencies).entries.Pairwise (· < ·) :=
  Descriptor.sorted_eraseDups_increasing _

theorem mem_entries : entry ∈ (ofArchives scanned dependencies).entries ↔
    entry ∈ scanned.flatMap Archive.classEntries :=
  Descriptor.mem_sorted_eraseDups

theorem entries_ofArchives_eq (entries : ∀ entry, entry ∈ scanned.flatMap Archive.classEntries ↔
      entry ∈ scanned'.flatMap Archive.classEntries) :
    (ofArchives scanned dependencies).entries = (ofArchives scanned' dependencies').entries := by
  apply entries_increasing.eq_of_mem_iff entries_increasing
  intro entry
  rw [mem_entries, mem_entries, entries]

end Scan

theorem OverrideTable.replacement_eq {overrides : OverrideTable} {view : View} {c d : Candidate}
    (alike : c.through view = d.through view)
    (functions : ∀ f, .computed f ∈ overrides.overrides → f c = f d) :
    overrides.replacement c = overrides.replacement d := by
  have named : c.declaring.canonicalName = d.declaring.canonicalName := by
    simp only [ResolvedType.canonicalName, Candidate.declaringName_eq alike]
  have found : overrides.lookup c = overrides.lookup d := by
    simp only [lookup, candidateKeys, ResolvedType.canonicalName, ResolvedType.simpleName,
      Candidate.method_eq alike, Candidate.valueName_eq alike, Candidate.declaringName_eq alike]
  have results (given : Given) : resultCode c given = resultCode d given := by
    simp only [resultCode, named, Candidate.method_eq alike]
  unfold replacement
  rw [found]
  split
  all_goals try rfl
  rename_i result hit
  rw [functions result (mem_overrides_of_lookup hit), results]

namespace Generator

variable {generator : Generator} {scan : Scan} {analysis : Analysis}

/-- An analysis read off the names of its scan. -/
structure ReadOff (generator : Generator) (scan : Scan) (analysis : Analysis) : Prop where
  rootIsClass : analysis.root.kind = .classType
  acyclic : ∀ name ∈ Catalog.candidateNames scan.entries, ∀ again,
    Catalog.examine scan.library analysis.root name ≠ .error (.cyclic again)
  classes : analysis.classes = Catalog.inOrder
    ((Catalog.candidateNames scan.entries).filterMap (Catalog.found? scan.library analysis.root))
  warnings : analysis.warnings =
    (Catalog.candidateNames scan.entries).filterMap (Catalog.warning? scan.library analysis.root)
  candidates : analysis.candidates = analysis.classes.flatMap fun type =>
    Analysis.kept generator.overrides type
      (Analysis.own scan.library analysis.root generator.effectiveOracle type)

theorem readOff_of_analyzeScan (analyzed : generator.analyzeScan scan = .ok analysis) :
    generator.ReadOff scan analysis := by
  obtain ⟨catalog, listed, result⟩ := bind_eq_ok.mp analyzed
  obtain ⟨-, isClass, types, found, classes⟩ :=
    Catalog.ofScan_eq_ok_iff.mp (mapError_eq_ok.mp listed)
  obtain ⟨⟨candidates, excluded⟩, collected, same⟩ := bind_eq_ok.mp (mapError_eq_ok.mp result)
  cases same
  obtain ⟨typesEq, warningsEq⟩ := Catalog.ofNames_eq found
  exact {
    rootIsClass := isClass
    acyclic := Catalog.not_cyclic_of_ofNames found
    classes := classes.trans (congrArg Catalog.inOrder typesEq)
    warnings := warningsEq
    candidates := Analysis.collect_eq collected }

theorem classes_of_draftScan {draft : Draft} (ran : generator.draftScan scan = .ok draft) :
    ∃ analysis, generator.analyzeScan scan = .ok analysis ∧
      draft.analysis.classes = analysis.classes := by
  obtain ⟨analysis, analyzed, rest⟩ := bind_eq_ok.mp ran
  obtain ⟨table, tabled, rest⟩ := bind_eq_ok.mp rest
  obtain ⟨source, rendered, same⟩ := bind_eq_ok.mp rest
  cases same
  exact ⟨analysis, analyzed, rfl⟩

theorem Finds.rootName_eq (finds : generator.Finds scan analysis) :
    analysis.root.name = generator.config.root :=
  (Library.builds_iff_resolve.mpr finds.root).name_eq

theorem Finds.candidate_parameter (finds : generator.Finds scan analysis) {c : Candidate}
    (member : c ∈ analysis.candidates) : c.method.parameters = [c.valueType.name] ∧
      scan.library.resolve c.valueType.name = .ok c.valueType := by
  obtain ⟨-, -, _, admits, -⟩ := finds.candidate member
  obtain ⟨parameter, single, resolved⟩ := admits.resolves
  have named := (Library.builds_iff_resolve.mpr resolved).name_eq
  rw [named]
  exact ⟨single, resolved⟩

variable {other : Scan} {first second : Analysis} {view : View} {inside : String → Prop}

/-- Classes are alike if the names that count have types that can be linked in both libraries or in
neither. Other names may count in one of them, as long as they have no class there. -/
theorem classes_alike (agree : scan.library.AgreeOn other.library view inside)
    (analyzed : generator.analyzeScan scan = .ok first)
    (analyzedToo : generator.analyzeScan other = .ok second)
    (known : ∀ name ∈ Catalog.candidateNames scan.entries, inside name)
    (linked : ∀ name ∈ Catalog.candidateNames scan.entries, ∀ type type',
      scan.library.resolve name = .ok type → other.library.resolve name = .ok type' →
        (scan.library.link type = .ok () ↔ other.library.link type' = .ok ()))
    (names : (Catalog.candidateNames other.entries).filterMap
        (Catalog.found? other.library second.root) =
      (Catalog.candidateNames scan.entries).filterMap (Catalog.found? other.library second.root)) :
    first.classes.map (·.through view) = second.classes.map (·.through view) := by
  have named : first.root.name = second.root.name :=
    (finds_of_analyzeScan analyzed).rootName_eq.trans
      (finds_of_analyzeScan analyzedToo).rootName_eq.symm
  rw [(readOff_of_analyzeScan analyzed).classes, (readOff_of_analyzeScan analyzedToo).classes, names,
    Catalog.inOrder_through, Catalog.inOrder_through, List.map_filterMap, List.map_filterMap]
  congr 1
  apply List.filterMap_congr
  intro name member
  exact Catalog.found?_alike agree named (known name member) (linked name member)

theorem nullability_alike (finds : generator.Finds scan first) (findsToo : generator.Finds other second)
    (oracle : NullabilityOracle) {c d : Candidate} (member : c ∈ first.candidates)
    (memberToo : d ∈ second.candidates) (alike : c.through view = d.through view)
    (declared : c.declaring.methods.find? (·.signature = c.method.signature) =
      d.declaring.methods.find? (·.signature = c.method.signature)) :
    oracle.ofMethod scan.library c.declaring.name c.method.name c.valueType.name =
      oracle.ofMethod other.library d.declaring.name d.method.name d.valueType.name := by
  have resolved := (finds.candidate_loaded member).2.resolve
  have resolvedToo := (findsToo.candidate_loaded memberToo).2.resolve
  have signature : c.method.signature = ⟨c.method.name, [c.valueType.name]⟩ := by
    rw [← (finds.candidate_parameter member).1, Method.signature]
  have test (methods : List Method) :
      (methods.find? fun m => m.name = c.method.name && m.parameters = [c.valueType.name]) =
        methods.find? (·.signature = c.method.signature) := by
    rw [signature]
    simp [Method.signature]
  rw [← Candidate.method_eq alike, ← Candidate.valueName_eq alike]
  cases oracle with
  | silent => rfl
  | annotations nullable nonNull =>
    simp only [NullabilityOracle.ofMethod, resolved, resolvedToo, test, declared]

/-- Two analyses are alike if their classes are, if classes that are alike make candidates that are
alike and declare the methods of these alike, and if overrides replace such candidates alike. -/
theorem alike_of_retells (retells : scan.library.Retells other.library view inside)
    (analyzed : generator.analyzeScan scan = .ok first)
    (analyzedToo : generator.analyzeScan other = .ok second)
    (known : ∀ type ∈ first.classes, inside type.name)
    (classes : first.classes.map (·.through view) = second.classes.map (·.through view))
    (own : ∀ type ∈ first.classes, ∀ type' ∈ second.classes,
      type.through view = type'.through view →
        (Analysis.own scan.library first.root generator.effectiveOracle type).map (·.through view) =
          (Analysis.own other.library second.root generator.effectiveOracle type').map
            (·.through view))
    (declared : ∀ c ∈ first.candidates, ∀ type' ∈ second.classes,
      c.declaring.through view = type'.through view →
        c.declaring.methods.find? (·.signature = c.method.signature) =
          type'.methods.find? (·.signature = c.method.signature))
    (replaced : ∀ c ∈ first.candidates, ∀ d ∈ second.candidates,
      c.through view = d.through view →
        generator.overrides.replacement c = generator.overrides.replacement d) :
    generator.Alike scan other view first second := by
  have finds := finds_of_analyzeScan analyzed
  have findsToo := finds_of_analyzeScan analyzedToo
  refine ⟨finds.rootName_eq.trans findsToo.rootName_eq.symm, classes, ?_, ?_⟩
  · rw [(readOff_of_analyzeScan analyzed).candidates, (readOff_of_analyzeScan analyzedToo).candidates,
      List.map_flatMap, List.map_flatMap, List.flatMap_def, List.flatMap_def]
    congr 1
    apply map_eq_of_alike classes
    intro type member type' memberToo alike
    have named : type.name = type'.name := by simpa using congrArg ResolvedType.name alike
    exact Analysis.kept_alike named (own type member type' memberToo alike)
  · intro c member d memberToo alike
    have declaring := (finds.candidate member).1
    have declaringToo := (findsToo.candidate memberToo).1
    obtain ⟨single, resolved⟩ := finds.candidate_parameter member
    obtain ⟨-, resolvedToo⟩ := findsToo.candidate_parameter memberToo
    have listed : c.method ∈ scan.library.methodsOf c.declaring.name := by
      rw [← Library.methods_of_resolve (finds.candidate_loaded member).2.resolve]
      exact (finds.candidate member).2.1
    have mentioned : inside c.valueType.name :=
      retells.mentioned _ (known c.declaring declaring) c.method listed _ (by simp [single])
    exact {
      replaced := replaced c member d memberToo alike
      required := retells.required_eq ⟨_, resolved⟩ ⟨_, resolvedToo⟩ (Candidate.valueType_eq alike)
        mentioned
      nullability := nullability_alike finds findsToo _ member memberToo alike
        (declared c member d.declaring declaringToo (Candidate.declaring_eq alike)) }

end Generator

end WidgetDsl
