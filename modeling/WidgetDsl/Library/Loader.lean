import WidgetDsl.Hierarchy.ResolvedType
import WidgetDsl.Library.Definition

/-!
Resolving binary names to types. A name is resolved together with everything that its type is built
from, in order, and both types and failures are kept for later. A name met again while it is being
resolved closes a cycle.
-/

namespace WidgetDsl

inductive ResolveError where
  | unresolved (name missing : String)
  | cyclic (name : String)
  deriving DecidableEq, Repr

namespace ResolveError

/-- The failure of a name for want of another; an empty one tells nothing, so that the name itself
stands for it. -/
def ofMissing (name missing : String) : ResolveError :=
  .unresolved name (if missing = "" then name else missing)

def message : ResolveError → String
  | .unresolved name missing =>
    if missing = name then "Class not found: " ++ name
    else "Cannot resolve " ++ name ++ ": missing dependency " ++ missing
  | .cyclic name => "cyclic supertype chain through " ++ name

end ResolveError

namespace Definition

def assemble (name : String) (types : List ResolvedType) : Definition → ResolvedType
  | .void => ⟨name, .voidType, ["public"], none, [], [], none⟩
  | .primitive => ⟨name, .primitiveType, ["public"], none, [], [], none⟩
  | .array _ =>
    { name
      kind := .arrayType
      modifiers := (types.head?.elim [] (·.modifiers)).filter (· = "public")
      superclass := types[1]?
      interfaces := []
      methods := []
      origin := none }
  | .declared decl origin =>
    { name
      kind := if decl.isInterface then .interfaceType else .classType
      modifiers := decl.modifiers
      superclass := if decl.superclassName?.isSome then types.head? else none
      interfaces := if decl.superclassName?.isSome then types.drop 1 else types
      methods := decl.methods
      origin := some origin }

end Definition

/-- The types and failures found so far, a failure with the name that was missing, and the names that
are being resolved, the innermost first. -/
structure Cache where
  resolved : Entries ResolvedType
  failed : Entries String
  resolving : List String

namespace Cache

def empty : Cache := ⟨[], [], []⟩

def enter (cache : Cache) (name : String) : Cache :=
  { cache with resolving := name :: cache.resolving }

def leave (cache : Cache) (name : String) : Cache :=
  { cache with resolving := cache.resolving.erase name }

def keepType (cache : Cache) (name : String) (type : ResolvedType) : Cache :=
  { cache with resolved := cache.resolved.insert name type }

def keepFailure (cache : Cache) (name missing : String) : Cache :=
  { cache with failed := cache.failed.insert name missing }

/-- A cache in which the same names are being resolved as in another. -/
abbrev After (before : Cache) := { after : Cache // after.resolving = before.resolving }

theorem leave_resolving {before : Cache} {name : String} (after : (before.enter name).After) :
    (after.val.leave name).resolving = before.resolving := by
  simp [leave, after.property, enter]

end Cache

namespace Library

/-- How many declared names, repeated ones counted each time, are not on a path. -/
def openCount (lib : Library) (path : List String) : Nat :=
  (lib.declarations.filter fun found => found.1.name ∉ path).length

def arrayDepth (name : String) : Nat :=
  (Java.stripArrays name.toList.reverse).2

abbrev Sooner (a b : Nat × Nat) : Prop := Prod.Lex (· < ·) (· < ·) a b

def rank (lib : Library) (path : List String) (name : String) : Nat × Nat :=
  (lib.openCount path, arrayDepth name)

theorem openCount_cons_le (lib : Library) (path : List String) (name : String) :
    lib.openCount (name :: path) ≤ lib.openCount path := by
  unfold openCount
  rw [← List.countP_eq_length_filter, ← List.countP_eq_length_filter]
  refine List.countP_mono_left fun found _ h => ?_
  simp only [List.mem_cons, not_or, decide_eq_true_eq] at h ⊢
  exact h.2

theorem openCount_cons_lt {lib : Library} {path : List String} {name : String}
    {found : ClassDecl × String} (declared : found ∈ lib.declarations) (named : found.1.name = name)
    (fresh : name ∉ path) : lib.openCount (name :: path) < lib.openCount path := by
  unfold openCount
  rw [show (fun found : ClassDecl × String => decide (found.1.name ∉ name :: path)) =
      fun found => decide (found.1.name ≠ name) && decide (found.1.name ∉ path) by
    funext found
    simp [not_or]]
  rw [← List.filter_filter]
  refine List.length_filter_lt_length_iff_exists.mpr ⟨found, ?_, by simp [named]⟩
  simp [declared, named, fresh]

theorem arrayDepth_of_component {name component : String}
    (array : Java.componentName? name = some component) :
    arrayDepth name = arrayDepth component + 1 := by
  unfold Java.componentName? at array
  unfold arrayDepth
  split at array
  · rename_i rest reversed
    obtain rfl := Option.some.inj array
    simp [reversed, Java.stripArrays]
  · cases array

theorem arrayDepth_objectName : arrayDepth Java.objectName = 0 := by
  decide +kernel

theorem rank_dependency {lib : Library} {path : List String} {name : String}
    {definition : Definition} (fresh : name ∉ path) (defined : lib.define? name = some definition)
    {dependency : String} (member : dependency ∈ definition.dependencies) :
    Sooner (lib.rank (name :: path) dependency) (lib.rank path name) := by
  unfold define? at defined
  split at defined
  · cases Option.some.inj defined
    cases member
  split at defined
  · cases Option.some.inj defined
    cases member
  split at defined
  · rename_i component array
    cases Option.some.inj defined
    have deeper := arrayDepth_of_component array
    have notMore := openCount_cons_le lib path name
    have shallow : arrayDepth dependency < arrayDepth name := by
      simp only [Definition.dependencies, List.mem_cons, List.not_mem_nil, or_false] at member
      rcases member with rfl | rfl
      · omega
      · rw [arrayDepth_objectName]
        omega
    simp only [Sooner, rank, Prod.lex_def]
    omega
  · obtain ⟨found, hit, rfl⟩ := Option.map_eq_some_iff.mp defined
    refine Prod.Lex.left _ _ (openCount_cons_lt (List.mem_of_find?_eq_some hit) ?_ fresh)
    simpa using List.find?_some hit

mutual

def resolveFrom (lib : Library) (name : String) (cache : Cache) :
    Except ResolveError ResolvedType × cache.After :=
  match cache.resolved.get? name with
  | some type => (.ok type, ⟨cache, rfl⟩)
  | none =>
    match cache.failed.get? name with
    | some missing => (.error (.ofMissing name missing), ⟨cache, rfl⟩)
    | none =>
      if fresh : name ∈ cache.resolving then (.error (.cyclic name), ⟨cache, rfl⟩)
      else
        match defined : lib.define? name with
        | none => (.error (.ofMissing name name), ⟨cache.keepFailure name name, rfl⟩)
        | some definition =>
          match resolveAll lib (lib.rank cache.resolving name) definition.dependencies
            (cache.enter name) (fun _ member => rank_dependency fresh defined member) with
          | (.ok types, after) =>
            let type := definition.assemble name types
            (.ok type, ⟨(after.val.leave name).keepType name type, Cache.leave_resolving after⟩)
          | (.error (.unresolved _ missing), after) =>
            (.error (.ofMissing name missing),
              ⟨(after.val.leave name).keepFailure name missing, Cache.leave_resolving after⟩)
          | (.error (.cyclic other), after) =>
            (.error (.cyclic other), ⟨after.val.leave name, Cache.leave_resolving after⟩)
termination_by ((lib.rank cache.resolving name).1, (lib.rank cache.resolving name).2,
  ((lib.define? name).elim 0 fun definition => definition.dependencies.length) + 1)
decreasing_by
  simp [defined, Prod.lex_def]

def resolveAll (lib : Library) (bound : Nat × Nat) (names : List String) (cache : Cache)
    (sooner : ∀ name ∈ names, Sooner (lib.rank cache.resolving name) bound) :
    Except ResolveError (List ResolvedType) × cache.After :=
  match names with
  | [] => (.ok [], ⟨cache, rfl⟩)
  | name :: rest =>
    match resolveFrom lib name cache with
    | (.error fault, after) => (.error fault, after)
    | (.ok type, after) =>
      match resolveAll lib bound rest after.val (fun other member => by
        rw [after.property]
        exact sooner other (List.mem_cons_of_mem _ member)) with
      | (.error fault, last) => (.error fault, ⟨last.val, last.property.trans after.property⟩)
      | (.ok types, last) => (.ok (type :: types), ⟨last.val, last.property.trans after.property⟩)
termination_by (bound.1, bound.2, names.length)
decreasing_by
  · have first := sooner name (by simp)
    simp only [Sooner, Prod.lex_def] at first
    simp_wf
    simp only [Prod.lex_def]
    omega
  · simp_wf
    simp [Prod.lex_def]

end

def resolve (lib : Library) (name : String) : Except ResolveError ResolvedType :=
  (lib.resolveFrom name .empty).1

def linkAll (lib : Library) (type : String) : List String → Except ResolveError Unit
  | [] => .ok ()
  | name :: rest =>
    match lib.resolve name with
    | .ok _ => lib.linkAll type rest
    | .error (.unresolved _ missing) => .error (.ofMissing type missing)
    | .error (.cyclic other) => .error (.cyclic other)

def link (lib : Library) (type : ResolvedType) : Except ResolveError Unit :=
  lib.linkAll type.name (type.methods.flatMap (·.parameters))

end Library

structure Loader where
  library : Library
  cache : Cache

namespace Loader

def ofLibrary (library : Library) : Loader :=
  ⟨library, .empty⟩

def resolve (loader : Loader) (name : String) : Except ResolveError ResolvedType × Loader :=
  match loader.library.resolveFrom name loader.cache with
  | (result, cache) => (result, { loader with cache := cache.val })

def linkAll (type : String) : Loader → List String → Except ResolveError Unit × Loader
  | loader, [] => (.ok (), loader)
  | loader, name :: rest =>
    match loader.resolve name with
    | (.ok _, loader) => linkAll type loader rest
    | (.error (.unresolved _ missing), loader) => (.error (.ofMissing type missing), loader)
    | (.error (.cyclic other), loader) => (.error (.cyclic other), loader)

def link (loader : Loader) (type : ResolvedType) : Except ResolveError Unit × Loader :=
  loader.linkAll type.name (type.methods.flatMap (·.parameters))

end Loader

end WidgetDsl
