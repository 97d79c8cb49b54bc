import Mathlib.Tactic.Choose
import WidgetDsl.Proofs.Supertypes

/-!
Types seen through a view, which leaves out what it does not show of methods and origins. The order
between types does not depend on either, and names that two libraries define alike in a view have
types that are alike in it.
-/

namespace WidgetDsl

/-- What is seen of the methods and of the origin of a type. All else of a type is always seen. -/
structure View where
  methods : List Method → List Method
  origin : String → String
  methods_nil : methods [] = []

namespace View

def whole : View := ⟨id, id, rfl⟩

def withoutMethods : View := ⟨fun _ => [], id, rfl⟩

def outline : View := ⟨fun _ => [], fun _ => "", rfl⟩

end View

namespace ResolvedType

mutual

/-- A type with all above it as a view shows them. -/
def through (view : View) : ResolvedType → ResolvedType
  | ⟨name, kind, modifiers, superclass, interfaces, methods, origin⟩ =>
    ⟨name, kind, modifiers, aboveThrough view superclass, amongThrough view interfaces,
      view.methods methods, origin.map view.origin⟩

def aboveThrough (view : View) : Option ResolvedType → Option ResolvedType
  | none => none
  | some type => some (through view type)

def amongThrough (view : View) : List ResolvedType → List ResolvedType
  | [] => []
  | type :: rest => through view type :: amongThrough view rest

end

variable (view : View)

theorem aboveThrough_eq_map (type : Option ResolvedType) :
    aboveThrough view type = type.map (through view) := by
  cases type <;> rfl

theorem amongThrough_eq_map (types : List ResolvedType) :
    amongThrough view types = types.map (through view) := by
  induction types with
  | nil => rfl
  | cons type rest ih => rw [amongThrough, ih, List.map_cons]

theorem through_eq (type : ResolvedType) : type.through view =
    ⟨type.name, type.kind, type.modifiers, type.superclass.map (through view),
      type.interfaces.map (through view), view.methods type.methods,
      type.origin.map view.origin⟩ := by
  cases type
  rw [through, aboveThrough_eq_map, amongThrough_eq_map]

@[simp] theorem through_name (type : ResolvedType) : (type.through view).name = type.name := by
  rw [through_eq]

@[simp] theorem canonicalName_through (type : ResolvedType) :
    (type.through view).canonicalName = type.canonicalName := by
  rw [canonicalName, canonicalName, through_name]

@[simp] theorem simpleName_through (type : ResolvedType) :
    (type.through view).simpleName = type.simpleName := by
  rw [simpleName, simpleName, through_name]

@[simp] theorem through_kind (type : ResolvedType) : (type.through view).kind = type.kind := by
  rw [through_eq]

@[simp] theorem through_modifiers (type : ResolvedType) :
    (type.through view).modifiers = type.modifiers := by
  rw [through_eq]

@[simp] theorem through_superclass (type : ResolvedType) :
    (type.through view).superclass = type.superclass.map (through view) := by
  rw [through_eq]

@[simp] theorem through_interfaces (type : ResolvedType) :
    (type.through view).interfaces = type.interfaces.map (through view) := by
  rw [through_eq]

mutual

@[simp] theorem depth_through (type : ResolvedType) : (type.through view).depth = type.depth := by
  match type with
  | ⟨name, kind, modifiers, superclass, interfaces, methods, origin⟩ =>
    rw [through, depth, depth, depthAbove_through superclass, depthAmong_through interfaces]

theorem depthAbove_through (type : Option ResolvedType) :
    depthAbove (aboveThrough view type) = depthAbove type := by
  match type with
  | none => rfl
  | some type => rw [aboveThrough, depthAbove, depthAbove, depth_through type]

theorem depthAmong_through (types : List ResolvedType) :
    depthAmong (amongThrough view types) = depthAmong types := by
  match types with
  | [] => rfl
  | type :: rest =>
    rw [amongThrough, depthAmong, depthAmong, depth_through type, depthAmong_through rest]

end

mutual

theorem gatherNames_through (type : ResolvedType) (found : List String) :
    gatherNames (type.through view) found = gatherNames type found := by
  match type with
  | ⟨name, kind, modifiers, superclass, interfaces, methods, origin⟩ =>
    rw [through, gatherNames, gatherNames, gatherAbove_through superclass,
      gatherAmong_through interfaces]

theorem gatherAbove_through (type : Option ResolvedType) (found : List String) :
    gatherAbove (aboveThrough view type) found = gatherAbove type found := by
  match type with
  | none => rfl
  | some type => rw [aboveThrough, gatherAbove, gatherAbove, gatherNames_through type]

theorem gatherAmong_through (types : List ResolvedType) (found : List String) :
    gatherAmong (amongThrough view types) found = gatherAmong types found := by
  match types with
  | [] => rfl
  | type :: rest =>
    rw [amongThrough, gatherAmong, gatherAmong, gatherNames_through type, gatherAmong_through rest]

end

@[simp] theorem ancestorNames_through (type : ResolvedType) :
    (type.through view).ancestorNames = type.ancestorNames := by
  rw [ancestorNames, ancestorNames, through_superclass, through_interfaces, ← aboveThrough_eq_map,
    ← amongThrough_eq_map, gatherAbove_through, gatherAmong_through]

mutual

@[simp] theorem superclasses_through (type : ResolvedType) :
    (type.through view).superclasses = type.superclasses.map (through view) := by
  match type with
  | ⟨name, kind, modifiers, superclass, interfaces, methods, origin⟩ =>
    rw [through, superclasses, superclasses, superclassChain_through superclass]

theorem superclassChain_through (type : Option ResolvedType) :
    superclassChain (aboveThrough view type) = (superclassChain type).map (through view) := by
  match type with
  | none => rfl
  | some type =>
    rw [aboveThrough, superclassChain, superclassChain, superclasses_through type, List.map_cons]

end

theorem reachInterfaces_through (pending : List ResolvedType) (seen : List String) :
    reachInterfaces (pending.map (through view)) seen =
      (reachInterfaces pending seen).map (through view) := by
  induction pending, seen using reachInterfaces.induct with
  | case1 seen => simp [reachInterfaces]
  | case2 seen type rest known ih => simp [reachInterfaces, known, ih]
  | case3 seen type rest fresh ih => simpa [reachInterfaces, fresh] using ih

@[simp] theorem interfaceClosure_through (type : ResolvedType) :
    (type.through view).interfaceClosure = type.interfaceClosure.map (through view) :=
  reachInterfaces_through view [type] []

mutual

theorem through_whole (type : ResolvedType) : type.through .whole = type := by
  match type with
  | ⟨name, kind, modifiers, superclass, interfaces, methods, origin⟩ =>
    rw [through, aboveThrough_whole superclass, amongThrough_whole interfaces]
    simp [View.whole]

theorem aboveThrough_whole (type : Option ResolvedType) : aboveThrough .whole type = type := by
  match type with
  | none => rfl
  | some type => rw [aboveThrough, through_whole type]

theorem amongThrough_whole (types : List ResolvedType) : amongThrough .whole types = types := by
  match types with
  | [] => rfl
  | type :: rest => rw [amongThrough, through_whole type, amongThrough_whole rest]

end

theorem isSubtypeOf_through (a b : ResolvedType) :
    (a.through view).isSubtypeOf (b.through view) = a.isSubtypeOf b := by
  simp [isSubtypeOf]

end ResolvedType

namespace Definition

def through (view : View) : Definition → Definition
  | .declared decl origin =>
    .declared { decl with methods := view.methods decl.methods } (view.origin origin)
  | other => other

variable (view : View)

@[simp] theorem dependencies_through (definition : Definition) :
    (definition.through view).dependencies = definition.dependencies := by
  cases definition <;> rfl

theorem assemble_through (definition : Definition) (name : String) (types : List ResolvedType) :
    (definition.assemble name types).through view =
      (definition.through view).assemble name (types.map (·.through view)) := by
  rw [ResolvedType.through_eq]
  cases definition with
  | void => simp [assemble, through, view.methods_nil]
  | primitive => simp [assemble, through, view.methods_nil]
  | array component =>
    cases types <;> simp [assemble, through, view.methods_nil]
  | declared decl origin =>
    have named : ClassDecl.superclassName? { decl with methods := view.methods decl.methods } =
        decl.superclassName? := rfl
    simp only [assemble, through, named]
    cases decl.superclassName? <;> simp

end Definition

namespace Library

/-- Two libraries define the names of a set alike in a view, and what these are built from is in the
set as well. -/
structure AgreeOn (lib other : Library) (view : View) (inside : String → Prop) : Prop where
  defined : ∀ name, inside name →
    (lib.define? name).map (·.through view) = (other.define? name).map (·.through view)
  closed : ∀ name, inside name → ∀ needed, lib.Needs name needed → inside needed

namespace AgreeOn

variable {lib other : Library} {view : View} {inside : String → Prop}

theorem counterpart (agree : lib.AgreeOn other view inside) {name : String} (member : inside name)
    {definition : Definition} (defined : lib.define? name = some definition) :
    ∃ second, other.define? name = some second ∧
      second.through view = definition.through view := by
  have same := agree.defined name member
  rw [defined, Option.map_some, eq_comm] at same
  exact Option.map_eq_some_iff.mp same

theorem dependencies_eq {first second : Definition}
    (same : second.through view = first.through view) :
    second.dependencies = first.dependencies := by
  simpa using congrArg Definition.dependencies same

theorem symm (agree : lib.AgreeOn other view inside) : other.AgreeOn lib view inside where
  defined name member := (agree.defined name member).symm
  closed := by
    intro name member needed ⟨definition, defined, depends⟩
    have back := (agree.defined name member).symm
    rw [defined, Option.map_some, eq_comm] at back
    obtain ⟨first, definedFirst, same⟩ := Option.map_eq_some_iff.mp back
    rw [← dependencies_eq same] at depends
    exact agree.closed name member needed ⟨first, definedFirst, depends⟩

theorem builds (agree : lib.AgreeOn other view inside) {name : String} {type : ResolvedType}
    (built : lib.Builds name type) (member : inside name) :
    ∃ second, other.Builds name second ∧ second.through view = type.through view := by
  induction built with
  | @intro name definition types defined parts ih =>
    obtain ⟨second, definedSecond, same⟩ := agree.counterpart member defined
    have each : ∀ needed, ∃ type, needed ∈ definition.dependencies →
        other.Builds needed type ∧ type.through view = (types needed).through view := by
      intro needed
      by_cases depends : needed ∈ definition.dependencies
      · obtain ⟨type, found⟩ :=
          ih needed depends (agree.closed name member needed ⟨definition, defined, depends⟩)
        exact ⟨type, fun _ => found⟩
      · exact ⟨types needed, fun depends' => absurd depends' depends⟩
    choose counterparts found using each
    rw [← dependencies_eq same] at found
    refine ⟨_, .intro counterparts definedSecond fun needed depends => (found needed depends).1, ?_⟩
    rw [Definition.assemble_through, Definition.assemble_through, same, dependencies_eq same,
      List.map_map, List.map_map]
    congr 1
    apply List.map_congr_left
    intro needed depends
    exact (found needed ((dependencies_eq same).symm ▸ depends)).2

theorem buildable_iff (agree : lib.AgreeOn other view inside) {name : String}
    (member : inside name) : other.Buildable name ↔ lib.Buildable name := by
  constructor
  · intro ⟨type, built⟩
    obtain ⟨first, builtFirst, -⟩ := agree.symm.builds built member
    exact ⟨first, builtFirst⟩
  · intro ⟨type, built⟩
    obtain ⟨second, builtSecond, -⟩ := agree.builds built member
    exact ⟨second, builtSecond⟩

theorem firstLacking (agree : lib.AgreeOn other view inside) {name needed : String}
    (member : inside name) (first : lib.FirstLacking name needed) :
    other.FirstLacking name needed := by
  have needs : ∀ part, lib.Needs name part → inside part := agree.closed name member
  have lacking := agree.buildable_iff (needs needed first.needs)
  obtain ⟨definition, before, after, defined, split, built, fails⟩ := first
  obtain ⟨second, definedSecond, same⟩ := agree.counterpart member defined
  refine ⟨second, before, after, definedSecond, (dependencies_eq same).trans split, ?_, ?_⟩
  · intro part early
    have depends : part ∈ definition.dependencies := by simp [split, early]
    exact (agree.buildable_iff (needs part ⟨definition, defined, depends⟩)).mpr (built part early)
  · rw [lacking]
    exact fails

theorem lacks (agree : lib.AgreeOn other view inside) {name missing : String}
    (lacking : lib.Lacks name missing) (member : inside name) : other.Lacks name missing := by
  induction lacking with
  | @undefined name absent =>
    have same := agree.defined name member
    rw [absent] at same
    exact .undefined (Option.map_eq_none_iff.mp same.symm)
  | @through name needed missing first rest ih =>
    exact .through (agree.firstLacking member first) (ih (agree.closed name member needed first.needs))

theorem closesCycle (agree : lib.AgreeOn other view inside) {path : List String}
    {name again : String} (cycle : lib.ClosesCycle path name again) (member : inside name) :
    other.ClosesCycle path name again := by
  induction cycle with
  | met known => exact .met known
  | @through path name needed again fresh first rest ih =>
    exact .through fresh (agree.firstLacking member first)
      (ih (agree.closed name member needed first.needs))

theorem resolve (agree : lib.AgreeOn other view inside) {name : String} (member : inside name) :
    (other.resolve name).map (·.through view) = (lib.resolve name).map (·.through view) := by
  have answers := resolve_answers lib name
  cases result : lib.resolve name with
  | ok type =>
    rw [result] at answers
    obtain ⟨second, built, same⟩ := agree.builds answers member
    rw [builds_iff_resolve.mp built]
    exact congrArg Except.ok same
  | error fault =>
    rw [result] at answers
    have transported : other.Answers [] name (.error fault) := by
      cases fault with
      | unresolved given missing =>
        obtain ⟨noted, lacking, same⟩ := answers
        exact ⟨noted, agree.lacks lacking member, same⟩
      | cyclic again => exact agree.closesCycle answers member
    rw [(resolve_answers other name).unique transported]

end AgreeOn

end Library

end WidgetDsl
