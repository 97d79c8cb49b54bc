import WidgetDsl.Proofs.Retelling

/-!
Declaring once more what is inherited. A method whose signature a class of the catalog further up
declares publicly is redundant wherever it is declared on the way down, so that a declaration of it
that is added changes nothing in what is generated.
-/

namespace WidgetDsl

open Relation

namespace OverrideTable

/-- Functions among overrides take no notice of what methods the types of a candidate declare. -/
def IgnoresMethods (table : OverrideTable) : Prop :=
  ∀ f, .computed f ∈ table.overrides → ∀ c d : Candidate,
    c.through .withoutMethods = d.through .withoutMethods → f c = f d

theorem ignoresMethods_of_names {table : OverrideTable}
    (named : ∀ f, .computed f ∈ table.overrides →
      ∃ result : String → Method → String → String → Given,
        ∀ c : Candidate, f c = result c.name c.method c.valueType.name c.declaring.name) :
    table.IgnoresMethods := by
  intro f given c d same
  obtain ⟨result, reads⟩ := named f given
  have names : c.name = d.name := by simpa using congrArg Candidate.name same
  rw [reads, reads, names, Candidate.method_eq same, Candidate.valueName_eq same,
    Candidate.declaringName_eq same]

end OverrideTable

namespace Library

open ResolvedType

/-- The second library is the first with one method more, anywhere among those that the declaration of
one name lists. -/
structure GainsMethod (lib other : Library) (className : String) (m : Method) : Prop where
  others : ∀ name, name ≠ className → other.define? name = lib.define? name
  here : ∃ decl origin before after, lib.define? className = some (.declared decl origin) ∧
    decl.methods = before ++ after ∧
    other.define? className =
      some (.declared { decl with methods := before ++ m :: after } origin)

variable {lib other : Library} {className name : String} {m : Method}

theorem linkAll_append (lib : Library) (type : String) (front back : List String) :
    lib.linkAll type (front ++ back) =
      lib.linkAll type front >>= fun _ => lib.linkAll type back := by
  induction front with
  | nil => rfl
  | cons name rest ih =>
    rw [List.cons_append, linkAll, linkAll, ih]
    split <;> rfl

namespace GainsMethod

theorem of_entry (fore : List Archive) (front : Entries ClassDecl) {aft : List Archive}
    {back : Entries ClassDecl} {path entry : String} {decl : ClassDecl} {before after : List Method}
    (holds : lib.archives = fore ++ ⟨path, front ++ (entry, decl) :: back⟩ :: aft)
    (holdsToo : other.archives = fore ++
      ⟨path, front ++ (entry, { decl with methods := before ++ m :: after }) :: back⟩ :: aft)
    (methods : decl.methods = before ++ after)
    (inForce : lib.define? decl.name = some (.declared decl path))
    (early : ∀ archive ∈ fore, ∀ other ∈ archive.entries, other.2.name ≠ decl.name)
    (earlyHere : ∀ other ∈ front, other.2.name ≠ decl.name) :
    lib.GainsMethod other decl.name m := by
  obtain ⟨ahead, behind, split, splitToo, silent⟩ : ∃ ahead behind,
      lib.declarations = ahead ++ (decl, path) :: behind ∧
      other.declarations = ahead ++ ({ decl with methods := before ++ m :: after }, path) :: behind ∧
      ∀ found ∈ ahead, found.1.name ≠ decl.name := by
    refine ⟨(fore.flatMap fun archive => archive.entries.map fun entry => (entry.2, archive.path)) ++
      front.map (fun entry => (entry.2, path)), back.map (fun entry => (entry.2, path)) ++
      (aft.flatMap fun archive => archive.entries.map fun entry => (entry.2, archive.path)) ++
      platformClasses.map fun decl => (decl, platformOrigin), ?_, ?_, ?_⟩
    · simp [declarations, holds]
    · simp [declarations, holdsToo]
    · intro found member
      rcases List.mem_append.mp member with inFore | inFront
      · obtain ⟨archive, listed, inside⟩ := List.mem_flatMap.mp inFore
        obtain ⟨entry, stored, rfl⟩ := List.mem_map.mp inside
        exact early archive listed entry stored
      · obtain ⟨entry, stored, rfl⟩ := List.mem_map.mp inFront
        exact earlyHere entry stored
  constructor
  · intro name different
    have same : other.declarations.find? (·.1.name = name) =
        lib.declarations.find? (·.1.name = name) := by
      simp [split, splitToo, Ne.symm different]
    simp only [define?, same]
  · have first : other.declarations.find? (·.1.name = decl.name) =
        some ({ decl with methods := before ++ m :: after }, path) := by
      have none : ahead.find? (·.1.name = decl.name) = none := by
        simpa using silent
      simp [splitToo, none]
    refine ⟨decl, path, before, after, inForce, methods, ?_⟩
    rw [define?_eq, Option.or_eq_some_iff] at inForce
    rcases inForce with builtin | ⟨notBuiltin, -⟩
    · exact absurd builtin builtin?_ne_declared
    · rw [define?_eq, notBuiltin, first]
      rfl

theorem methodsOf_other (gains : lib.GainsMethod other className m) (different : name ≠ className) :
    other.methodsOf name = lib.methodsOf name := by
  rw [methodsOf, methodsOf, gains.others name different]

theorem methodsOf_here (gains : lib.GainsMethod other className m) : ∃ before after,
    lib.methodsOf className = before ++ after ∧
      other.methodsOf className = before ++ m :: after := by
  obtain ⟨decl, origin, before, after, defined, split, definedToo⟩ := gains.here
  exact ⟨before, after, by simp [methodsOf, defined, split], by simp [methodsOf, definedToo]⟩

theorem retells (gains : lib.GainsMethod other className m) (concrete : m.isAbstract = false) :
    lib.Retells other .withoutMethods fun _ => True where
  defined := by
    intro name _
    by_cases here : name = className
    · obtain ⟨decl, origin, before, after, defined, -, definedToo⟩ := gains.here
      subst here
      rw [defined, definedToo]
      rfl
    · rw [gains.others name here]
  closed := fun _ _ _ _ => trivial
  offered := by
    intro name _ signature
    by_cases here : name = className
    · obtain ⟨before, after, methods, methodsToo⟩ := gains.methodsOf_here
      have closed : m.isOpen = false := by simp [Method.isOpen, concrete]
      subst here
      rw [methods, methodsToo]
      simp [closed]
    · rw [gains.methodsOf_other here]
  mentioned := fun _ _ _ _ _ _ => trivial

theorem mem_methodsOf (gains : lib.GainsMethod other className m) {x : Method}
    (listed : x ∈ lib.methodsOf name) : x ∈ other.methodsOf name := by
  by_cases here : name = className
  · obtain ⟨before, after, methods, methodsToo⟩ := gains.methodsOf_here
    subst here
    rw [methods, List.mem_append] at listed
    rw [methodsToo, List.mem_append, List.mem_cons]
    exact listed.imp_right .inr
  · rwa [gains.methodsOf_other here]

theorem mem_methodsOf_or (gains : lib.GainsMethod other className m) {x : Method}
    (listed : x ∈ other.methodsOf name) : x ∈ lib.methodsOf name ∨ name = className ∧ x = m := by
  by_cases here : name = className
  · obtain ⟨before, after, methods, methodsToo⟩ := gains.methodsOf_here
    subst here
    rw [methodsToo, List.mem_append, List.mem_cons] at listed
    rw [methods, List.mem_append]
    rcases listed with early | rfl | late
    · exact .inl (.inl early)
    · exact .inr ⟨rfl, rfl⟩
    · exact .inl (.inr late)
  · rw [gains.methodsOf_other here] at listed
    exact .inl listed

theorem filter_methodsOf (gains : lib.GainsMethod other className m) {keep : Method → Bool}
    (dropped : keep m = false) (name : String) :
    (other.methodsOf name).filter keep = (lib.methodsOf name).filter keep := by
  by_cases here : name = className
  · obtain ⟨before, after, methods, methodsToo⟩ := gains.methodsOf_here
    subst here
    rw [methods, methodsToo]
    simp [dropped]
  · rw [gains.methodsOf_other here]

end GainsMethod

end Library

theorem ResolvedType.superclasses_trans {a b c : ResolvedType} (lower : b ∈ a.superclasses)
    (upper : c ∈ b.superclasses) : c ∈ a.superclasses := by
  induction a using supertypes_induction with
  | step type ih =>
    obtain ⟨next, direct, rest⟩ := mem_superclasses_iff.mp lower
    have under : type.Under next := by simp [Under, supertypes, direct]
    rw [superclasses_of_superclass direct]
    rcases rest with rfl | later
    · exact List.mem_cons_of_mem _ upper
    · exact List.mem_cons_of_mem _ (ih next under later)

namespace Candidate

open ResolvedType

variable {lib : Library} {root declaring : ResolvedType} {oracle : NullabilityOracle} {m : Method}

theorem made?_of_isRedundant (redundant : isRedundant root declaring m = true) :
    made? lib root oracle declaring m = none := by
  apply Option.eq_none_iff_forall_ne_some.mpr
  intro c made
  obtain ⟨_, _, _, fresh, _⟩ := ofMethod?_eq_some_iff.mp (made?_eq_some_iff.mp made)
  rw [redundant] at fresh
  cases fresh

end Candidate

theorem Analysis.own_eq_filter {lib : Library} {root type : ResolvedType}
    {oracle : NullabilityOracle} {keep : Method → Bool}
    (dropped : ∀ m, keep m = false → Candidate.made? lib root oracle type m = none) :
    own lib root oracle type =
      (Method.inOrder (type.methods.filter keep)).filterMap
        (Candidate.made? lib root oracle type) := by
  rw [own, ← Method.filter_inOrder, List.filterMap_filter]
  apply List.filterMap_congr
  intro m _
  split
  · rfl
  · rename_i out
    exact dropped m (by simpa using out)

namespace Generator

open Candidate ResolvedType

/-- The second scan is the first with one method more in a class below the root, which a class of the
catalog further up declares publicly. -/
structure Redeclares (generator : Generator) (scan other : Scan) (classes : List ResolvedType)
    (className : String) (m : Method) : Prop where
  entries : other.entries = scan.entries
  gains : scan.library.GainsMethod other.library className m
  concrete : m.isAbstract = false
  notRoot : className ≠ generator.config.root
  inherited : ∃ declaring above, scan.library.resolve className = .ok declaring ∧
    above ∈ declaring.superclasses ∧ above ∈ classes ∧ above.declares m.signature = true

namespace Redeclares

variable {generator : Generator} {scan other : Scan} {first second : Analysis}
  {className : String} {m : Method} {type type' root' : ResolvedType}
  (redeclares : generator.Redeclares scan other first.classes className m)
  (analyzed : generator.analyzeScan scan = .ok first)

include redeclares

theorem retells : scan.library.Retells other.library .withoutMethods fun _ => True :=
  redeclares.gains.retells redeclares.concrete

include analyzed

theorem parameters_resolve : ∀ parameter ∈ m.parameters,
    ∃ found, scan.library.resolve parameter = .ok found := by
  obtain ⟨declaring, above, -, -, cataloged, declares⟩ := redeclares.inherited
  obtain ⟨inherited, listed, same⟩ := List.any_eq_true.mp declares
  simp only [Bool.and_eq_true, decide_eq_true_eq] at same
  have parameters : inherited.parameters = m.parameters := congrArg Signature.parameters same.2
  obtain ⟨name, -, examined⟩ := ((finds_of_analyzeScan analyzed).classes above).mp cataloged
  have linked := Library.link_eq_ok_iff.mp (Catalog.examine_eq_some_iff.mp examined).2.2
  rw [← parameters]
  exact linked inherited listed

theorem link_eq (loaded : scan.library.Loaded type) (loadedToo : other.library.Loaded type')
    (named : type.name = type'.name) : other.library.link type' = scan.library.link type := by
  have congr (names : List String) :
      other.library.linkAll type.name names = scan.library.linkAll type.name names :=
    Library.linkAll_congr type.name fun name _ => redeclares.retells.resolve trivial
  rw [Library.link, Library.link, ← named, congr, Library.methods_of_resolve loaded.resolve,
    Library.methods_of_resolve loadedToo.resolve, ← named]
  by_cases here : type.name = className
  · obtain ⟨before, after, methods, methodsToo⟩ := redeclares.gains.methodsOf_here
    have added : scan.library.linkAll className m.parameters = .ok () :=
      Library.linkAll_eq_ok_iff.mpr (redeclares.parameters_resolve analyzed)
    rw [here, methods, methodsToo]
    simp [Library.linkAll_append, added, bind, Except.bind]
  · rw [redeclares.gains.methodsOf_other here]

/-- A class that gains the method, and every class of the catalog below it, has the class that the
method is inherited from on its way up to the root. -/
theorem walk_declares (member : type ∈ first.classes) (notRoot : type.name ≠ first.root.name)
    (below : ∃ owner, (owner = type ∨ owner ∈ redundancyWalk first.root type) ∧
      owner.name = className) :
    (redundancyWalk first.root type).any (·.declares m.signature) = true := by
  have finds := finds_of_analyzeScan analyzed
  obtain ⟨declaring, above, resolved, chain, cataloged, declares⟩ := redeclares.inherited
  have named : declaring.name = className := (Library.builds_iff_resolve.mpr resolved).name_eq
  have above_mem : above ∈ type.superclasses := by
    obtain ⟨owner, place, same⟩ := below
    rcases place with rfl | walked
    · obtain rfl := (finds.class_loaded member).eq_of_name_eq ⟨_, resolved⟩ (same.trans named.symm)
      exact chain
    · have loaded := loaded_of_walked (finds.class_loaded member) walked
      obtain rfl := loaded.eq_of_name_eq ⟨_, resolved⟩ (same.trans named.symm)
      exact superclasses_trans (mem_superclasses_of_walked walked) chain
  exact List.any_eq_true.mpr
    ⟨above, finds.mem_redundancyWalk member notRoot cataloged above_mem, declares⟩

/-- The added method makes no method redundant that has not been so before. -/
theorem isRedundant_eq (member : type ∈ first.classes) (loadedToo : other.library.Loaded type')
    (alike : type.through .withoutMethods = type'.through .withoutMethods)
    (rootNamed : first.root.name = root'.name) (x : Method) :
    isRedundant first.root type x = isRedundant root' type' x := by
  have loaded := (finds_of_analyzeScan analyzed).class_loaded member
  have walks := redundancyWalk_alike alike rootNamed
  rw [isRedundant_eq_any, isRedundant_eq_any, Bool.eq_iff_iff, List.any_eq_true, List.any_eq_true]
  constructor
  · intro ⟨above, walked, declares⟩
    have inside := List.mem_map_of_mem (f := (·.through .withoutMethods)) walked
    rw [walks] at inside
    obtain ⟨above', walkedToo, same⟩ := List.mem_map.mp inside
    have named : above'.name = above.name := by simpa using congrArg ResolvedType.name same
    obtain ⟨y, listed, shown⟩ := List.any_eq_true.mp declares
    rw [Library.methods_of_resolve (loaded_of_walked loaded walked).resolve] at listed
    have listedToo := redeclares.gains.mem_methodsOf listed
    rw [← named, ← Library.methods_of_resolve (loaded_of_walked loadedToo walkedToo).resolve]
      at listedToo
    exact ⟨above', walkedToo, List.any_eq_true.mpr ⟨y, listedToo, shown⟩⟩
  · intro ⟨above', walkedToo, declares⟩
    have inside := List.mem_map_of_mem (f := (·.through .withoutMethods)) walkedToo
    rw [← walks] at inside
    obtain ⟨above, walked, same⟩ := List.mem_map.mp inside
    have named : above.name = above'.name := by simpa using congrArg ResolvedType.name same
    obtain ⟨y, listed, shown⟩ := List.any_eq_true.mp declares
    rw [Library.methods_of_resolve (loaded_of_walked loadedToo walkedToo).resolve] at listed
    rcases redeclares.gains.mem_methodsOf_or listed with before | ⟨here, added⟩
    · rw [← named, ← Library.methods_of_resolve (loaded_of_walked loaded walked).resolve] at before
      exact ⟨above, walked, List.any_eq_true.mpr ⟨y, before, shown⟩⟩
    · -- the added method declares the signature, and so does the class it is inherited from
      simp only [added, Bool.and_eq_true, decide_eq_true_eq] at shown
      have notRoot : type.name ≠ first.root.name := by
        intro same
        simp [redundancyWalk, same] at walked
      have declared := redeclares.walk_declares analyzed member notRoot
        ⟨above, .inr walked, named.trans here⟩
      rw [shown.2] at declared
      exact List.any_eq_true.mp declared

theorem isRedundant_here (member : type ∈ first.classes) (here : type.name = className) {x : Method}
    (same : x.signature = m.signature) : isRedundant first.root type x = true := by
  have notRoot : type.name ≠ first.root.name := by
    rw [here, (finds_of_analyzeScan analyzed).rootName_eq]
    exact redeclares.notRoot
  rw [isRedundant_eq_any, same]
  exact redeclares.walk_declares analyzed member notRoot ⟨type, .inl rfl, here⟩

theorem own_alike (member : type ∈ first.classes) (loadedToo : other.library.Loaded type')
    (alike : type.through .withoutMethods = type'.through .withoutMethods)
    (rootNamed : first.root.name = root'.name) (oracle : NullabilityOracle) :
    (Analysis.own scan.library first.root oracle type).map (·.through .withoutMethods) =
      (Analysis.own other.library root' oracle type').map (·.through .withoutMethods) := by
  have named : type.name = type'.name := by simpa using congrArg ResolvedType.name alike
  have loaded := (finds_of_analyzeScan analyzed).class_loaded member
  have methods := Library.methods_of_resolve loaded.resolve
  have methodsToo := Library.methods_of_resolve loadedToo.resolve
  have each (x : Method) : (made? scan.library first.root oracle type x).map
      (·.through .withoutMethods) =
      (made? other.library root' oracle type' x).map (·.through .withoutMethods) :=
    made?_alike redeclares.retells alike
      (redeclares.isRedundant_eq analyzed member loadedToo alike rootNamed x) fun _ _ => trivial
  -- only methods with other signatures than the added one count where it is added
  have listed : ∃ methods' : List Method, Analysis.own scan.library first.root oracle type =
      methods'.filterMap (made? scan.library first.root oracle type) ∧
      Analysis.own other.library root' oracle type' =
        methods'.filterMap (made? other.library root' oracle type') := by
    by_cases here : type.name = className
    · have silent (x : Method) (same : decide (x.signature ≠ m.signature) = false) :
          made? scan.library first.root oracle type x = none := by
        have same : x.signature = m.signature := by simpa using same
        exact made?_of_isRedundant (redeclares.isRedundant_here analyzed member here same)
      have silentToo (x : Method) (same : decide (x.signature ≠ m.signature) = false) :
          made? other.library root' oracle type' x = none := by
        have none := each x
        rw [silent x same] at none
        exact Option.map_eq_none_iff.mp none.symm
      refine ⟨Method.inOrder (type.methods.filter (·.signature ≠ m.signature)),
        Analysis.own_eq_filter silent, ?_⟩
      rw [methods, ← redeclares.gains.filter_methodsOf (by simp), named, ← methodsToo]
      exact Analysis.own_eq_filter silentToo
    · refine ⟨Method.inOrder type.methods, rfl, ?_⟩
      rw [Analysis.own, methods, methodsToo, ← named, redeclares.gains.methodsOf_other here]
  obtain ⟨methods', own, ownToo⟩ := listed
  rw [own, ownToo, List.map_filterMap, List.map_filterMap]
  exact List.filterMap_congr fun x _ => each x

theorem declared_alike {c : Candidate} (member : c ∈ first.candidates)
    (loadedToo : other.library.Loaded type')
    (alike : c.declaring.through .withoutMethods = type'.through .withoutMethods) :
    c.declaring.methods.find? (·.signature = c.method.signature) =
      type'.methods.find? (·.signature = c.method.signature) := by
  have finds := finds_of_analyzeScan analyzed
  have named : c.declaring.name = type'.name := by simpa using congrArg ResolvedType.name alike
  rw [Library.methods_of_resolve (finds.candidate_loaded member).2.resolve,
    Library.methods_of_resolve loadedToo.resolve, ← named]
  by_cases here : c.declaring.name = className
  · have dropped : decide (m.signature = c.method.signature) = false := by
      by_contra same
      have same : c.method.signature = m.signature := by simpa [eq_comm] using same
      obtain ⟨inside, -, _, -, fresh, -⟩ := finds.candidate member
      rw [redeclares.isRedundant_here analyzed inside here same] at fresh
      cases fresh
    rw [← List.head?_filter, ← List.head?_filter, redeclares.gains.filter_methodsOf dropped]
  · rw [redeclares.gains.methodsOf_other here]

theorem examine_eq_error (rootNamed : first.root.name = root'.name) {name : String}
    {fault : ResolveError} (failed : Catalog.examine other.library root' name = .error fault) :
    Catalog.examine scan.library first.root name = .error fault := by
  have same : (other.library.resolve name).map (·.through .withoutMethods) =
      (scan.library.resolve name).map (·.through .withoutMethods) :=
    redeclares.retells.resolve trivial
  simp only [Catalog.examine] at failed ⊢
  cases resolved : scan.library.resolve name with
  | error cause =>
    rw [resolved] at same
    have resolvedToo : other.library.resolve name = .error cause := map_eq_error.mp same
    rw [resolvedToo] at failed
    exact failed
  | ok type =>
    obtain ⟨type', resolvedToo, alike⟩ := redeclares.retells.exists_resolve trivial resolved
    have named : type.name = type'.name := by simpa using congrArg ResolvedType.name alike.symm
    have links := redeclares.link_eq analyzed ⟨_, resolved⟩ ⟨_, resolvedToo⟩ named
    rw [resolvedToo] at failed
    simp only [bind, Except.bind, ← Catalog.isEligible_eq alike.symm rootNamed, links] at failed ⊢
    split at failed
    · rename_i eligible
      rw [if_pos eligible]
      cases linked : scan.library.link type with
      | error cause =>
        rw [linked] at failed
        exact failed
      | ok =>
        rw [linked] at failed
        cases failed
    · cases failed

theorem exists_analysis : ∃ second, generator.analyzeScan other = .ok second := by
  have finds := finds_of_analyzeScan analyzed
  obtain ⟨root', resolved, alike⟩ := redeclares.retells.exists_resolve trivial finds.root
  have kind : root'.kind = first.root.kind := by simpa using congrArg ResolvedType.kind alike
  have named : first.root.name = root'.name := by simpa using congrArg ResolvedType.name alike.symm
  refine exists_analyzeScan resolved (kind.trans (readOff_of_analyzeScan analyzed).rootIsClass) ?_
  intro name member again cyclic
  rw [redeclares.entries] at member
  exact (readOff_of_analyzeScan analyzed).acyclic name member again
    (redeclares.examine_eq_error analyzed named cyclic)

theorem alike (analyzedToo : generator.analyzeScan other = .ok second)
    (ignores : generator.overrides.IgnoresMethods) :
    generator.Alike scan other .withoutMethods first second := by
  have findsToo := finds_of_analyzeScan analyzedToo
  have rootNamed : first.root.name = second.root.name :=
    (finds_of_analyzeScan analyzed).rootName_eq.trans findsToo.rootName_eq.symm
  have classes : first.classes.map (·.through .withoutMethods) =
      second.classes.map (·.through .withoutMethods) := by
    apply classes_alike redeclares.retells.toAgreeOn analyzed analyzedToo fun _ _ => trivial
    · intro name _ type type' resolved resolvedToo
      have named : type.name = type'.name :=
        (Library.builds_iff_resolve.mpr resolved).name_eq.trans
          (Library.builds_iff_resolve.mpr resolvedToo).name_eq.symm
      rw [redeclares.link_eq analyzed ⟨_, resolved⟩ ⟨_, resolvedToo⟩ named]
    · rw [redeclares.entries]
  apply alike_of_retells redeclares.retells analyzed analyzedToo (fun _ _ => trivial) classes
  · intro type member type' memberToo same
    exact redeclares.own_alike analyzed member (findsToo.class_loaded memberToo) same rootNamed _
  · intro c member type' memberToo same
    exact redeclares.declared_alike analyzed member (findsToo.class_loaded memberToo) same
  · intro c _ d _ same
    exact OverrideTable.replacement_eq same fun f given => ignores f given c d same

end Redeclares

/-- A run that succeeds gives the same source if a class below the root gains, anywhere among its
methods, one that is not abstract and that a class of the catalog further up declares publicly with
the same name and parameters. Functions among the overrides are taken not to look at the methods that
classes declare. -/
theorem redeclaration_inert (generator : Generator) (ignores : generator.overrides.IgnoresMethods)
    (scan other : Scan) (draft : Draft) (ran : generator.draftScan scan = .ok draft)
    (className : String) (m : Method)
    (redeclares : generator.Redeclares scan other draft.analysis.classes className m) :
    ∃ again, generator.draftScan other = .ok again ∧ again.source = draft.source := by
  obtain ⟨first, analyzed, classes⟩ := classes_of_draftScan ran
  rw [classes] at redeclares
  obtain ⟨second, analyzedToo⟩ := redeclares.exists_analysis analyzed
  obtain ⟨again, _, ranToo, same, -⟩ := draftScan_alike analyzed analyzedToo
    (redeclares.alike analyzed analyzedToo ignores) ran
  exact ⟨again, ranToo, same⟩

end Generator

namespace Gallery

open Sample (setter)

def resize : Method :=
  { setter "setSize" "int" with
    returns := "boolean"
    modifiers := ["protected", "final"]
    deprecated := true }

def resizedDecl : ClassDecl :=
  { buttonDecl with
    methods := buttonDecl.methods.take 2 ++ resize :: buttonDecl.methods.drop 2 }

def resized : Scan :=
  .ofArchives [archive "lib.json" [touchListenerDecl, widgetDecl, resizedDecl]]
    [archive "base.json" [baseDecl]]

theorem resized_gains : scan.library.GainsMethod resized.library buttonDecl.name resize := by
  have early : ∀ other ∈ (archive "lib.json" [touchListenerDecl, widgetDecl]).entries,
      other.2.name ≠ buttonDecl.name := by
    decide +kernel
  exact .of_entry [] (archive "lib.json" [touchListenerDecl, widgetDecl]).entries rfl rfl rfl
    (by decide +kernel) nofun early

theorem resized_spans : resized.Spans generator.config.root names where
  listed := Scan.listed_ofArchives (by decide +kernel)
  rootListed := by decide +kernel
  rootIsClass := by decide +kernel
  near := by decide +kernel
  parameters := by decide +kernel

theorem resized_redeclares {overridden : Generator} {draft : Draft}
    (configured : overridden.config = generator.config)
    (ran : overridden.draftScan scan = .ok draft) :
    overridden.Redeclares scan resized draft.analysis.classes buttonDecl.name resize where
  entries := rfl
  gains := resized_gains
  concrete := rfl
  notRoot := by
    rw [configured]
    decide +kernel
  inherited := by
    obtain ⟨first, analyzed, classes⟩ := Generator.classes_of_draftScan ran
    have spanned : scan.Spans overridden.config.root names := configured ▸ spans
    have within : overridden.classesWithin scan names = generator.classesWithin scan names := by
      rw [Generator.classesWithin, Generator.classesWithin, configured]
    have cataloged : widget ∈ draft.analysis.classes := by
      rw [classes, spanned.mem_classes analyzed, within, classesWithin_eq]
      exact List.mem_cons_self
    exact ⟨button, widget, spans.resolve (by decide +kernel), List.mem_of_getElem? (i := 1) rfl,
      cataloged, by decide +kernel⟩

theorem labelled_ignores : labelled.overrides.IgnoresMethods := by
  apply OverrideTable.ignoresMethods_of_names
  intro f given
  rw [labelled_overrides, List.mem_singleton] at given
  cases given
  exact ⟨fun _ m _ _ => .plain (.text ("// " ++ m.key)), fun _ => rfl⟩

theorem resized_alike : ∃ draft again, labelled.draftScan scan = .ok draft ∧
    labelled.draftScan resized = .ok again ∧ again.source = draft.source := by
  obtain ⟨analysis, analyzed⟩ := labelled_analysis
  obtain ⟨draft, ran⟩ := Generator.exists_draft analyzed (labelled_replaces _)
  obtain ⟨again, ranToo, same⟩ := Generator.redeclaration_inert labelled labelled_ignores scan resized
    draft ran buttonDecl.name resize (resized_redeclares rfl ran)
  exact ⟨draft, again, ran, ranToo, same⟩

/-- What a function says that has code for the button's label only as long as the class declares so many
methods as it does. -/
def pinnedLabel (c : Candidate) : Given :=
  if c.declaring.methods.length = buttonDecl.methods.length then .plain (.text ("// " ++ c.method.key))
  else .plain (.bool false)

def pinned : Generator :=
  { generator with overrides := ⟨[(buttonDecl.name, [("setLabel", .computed pinnedLabel)])]⟩ }

theorem pinned_keeps : .excluded ∉ pinned.overrides.overrides := by
  simp [pinned, OverrideTable.overrides]

theorem pinned_runs : ∃ draft, pinned.draftScan scan = .ok draft := by
  have spanned : scan.Spans pinned.config.root names := spans
  obtain ⟨analysis, analyzed⟩ := spanned.exists_analysis
  refine Generator.exists_draft analyzed fun c member => ?_
  have each : ∀ c ∈ pinned.candidatesWithin scan names,
      (pinned.overrides.replacement c).isOk = true := by
    decide +kernel
  have replaced := each c ((spanned.mem_candidates pinned_keeps analyzed).mp member)
  cases found : pinned.overrides.replacement c with
  | ok code => exact ⟨code, rfl⟩
  | error => simp [found, Except.isOk, Except.toBool] at replaced

/-- A function that looks at the methods of the class sees the button's version. -/
theorem pinned_apart : ∃ draft, pinned.draftScan scan = .ok draft ∧
    pinned.Redeclares scan resized draft.analysis.classes buttonDecl.name resize ∧
    ∀ again, pinned.draftScan resized ≠ .ok again := by
  obtain ⟨draft, ran⟩ := pinned_runs
  refine ⟨draft, ran, resized_redeclares rfl ran, fun again ranToo => ?_⟩
  obtain ⟨analysis, analyzed, replaces⟩ := Generator.replaces_of_draftScan ranToo
  have finds := Generator.finds_of_analyzeScan analyzed
  have spanned : resized.Spans pinned.config.root names := resized_spans
  have label : ∃ c ∈ pinned.candidatesWithin resized names,
      (c.name = "label" ∧ c.declaring.name = buttonDecl.name) ∧
      ∀ other ∈ pinned.candidatesWithin resized names, other.name = c.name →
        other.shadows c = false := by
    decide +kernel
  have faulty : ∀ c ∈ pinned.candidatesWithin resized names,
      c.name = "label" → c.declaring.name = buttonDecl.name →
        (pinned.overrides.replacement c).isOk = false := by
    decide +kernel
  obtain ⟨c, inside, ⟨named, declared⟩, unshadowed⟩ := label
  obtain ⟨group, listed, groupNamed, stays, stayed, -, sameClass⟩ :=
    finds.exists_stays ((spanned.mem_candidates pinned_keeps analyzed).mpr inside)
      fun other found => unshadowed other ((spanned.mem_candidates pinned_keeps analyzed).mp found)
  obtain ⟨kept, staysNamed⟩ := finds.candidate_of_group listed stayed
  have failed := faulty stays ((spanned.mem_candidates pinned_keeps analyzed).mp kept)
    (staysNamed.trans (groupNamed.trans named)) (by rw [sameClass, declared])
  obtain ⟨code, replaced⟩ := replaces group listed stays stayed
  simp [replaced, Except.isOk, Except.toBool] at failed

end Gallery

end WidgetDsl
