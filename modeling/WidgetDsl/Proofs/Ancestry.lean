import Mathlib.Logic.Function.Iterate
import Mathlib.Order.Bounds.Basic
import WidgetDsl.Proofs.BranchOrder
import WidgetDsl.Proofs.Closure

/-!
Climbing from a type to the types above it. A search that looks at one type after the other comes to an
end and finds the subtypes' order, and no climb is longer than a type is deep.
-/

namespace WidgetDsl

open Relation

namespace ResolvedType

variable {type : ResolvedType} {path : List ResolvedType}

def Climb (type : ResolvedType) (path : List ResolvedType) : Prop :=
  (type :: path).IsChain Under

theorem Climb.length_le_depth (climb : type.Climb path) : path.length ≤ type.depth := by
  induction path generalizing type with
  | nil => exact Nat.zero_le _
  | cons above rest ih =>
    obtain ⟨under, later⟩ := List.isChain_cons_cons.mp climb
    exact Nat.lt_of_le_of_lt (ih later) (depth_lt_of_under under)

theorem exists_mem_of_depthAmong_pos {types : List ResolvedType} (deep : 0 < depthAmong types) :
    ∃ type ∈ types, depthAmong types = type.depth + 1 := by
  induction types with
  | nil => simp [depthAmong] at deep
  | cons type rest ih =>
    rw [depthAmong]
    rcases Nat.le_total (depthAmong rest) (type.depth + 1) with less | more
    · exact ⟨type, by simp, Nat.max_eq_left less⟩
    · obtain ⟨deepest, member, same⟩ := ih (Nat.lt_of_lt_of_le (Nat.succ_pos _) more)
      exact ⟨deepest, List.mem_cons_of_mem _ member, (Nat.max_eq_right more).trans same⟩

theorem exists_under_of_depth_pos (deep : 0 < type.depth) :
    ∃ above, type.Under above ∧ type.depth = above.depth + 1 := by
  obtain ⟨name, kind, modifiers, superclass, interfaces, methods, origin⟩ := type
  rw [depth] at deep ⊢
  rcases Nat.le_total (depthAmong interfaces) (depthAbove superclass) with less | more
  · rw [Nat.max_eq_left less] at deep ⊢
    cases superclass with
    | none => simp [depthAbove] at deep
    | some above => exact ⟨above, by simp [Under, supertypes], by rw [depthAbove]⟩
  · rw [Nat.max_eq_right more] at deep ⊢
    obtain ⟨above, listed, same⟩ := exists_mem_of_depthAmong_pos deep
    exact ⟨above, by simp [Under, supertypes, listed], same⟩

theorem exists_climb (type : ResolvedType) : ∃ path, type.Climb path ∧ path.length = type.depth := by
  induction type using supertypes_induction with
  | step type ih =>
    rcases Nat.eq_zero_or_pos type.depth with flat | deep
    · exact ⟨[], List.IsChain.singleton _, flat.symm⟩
    · obtain ⟨above, under, same⟩ := exists_under_of_depth_pos deep
      obtain ⟨path, climb, long⟩ := ih above under
      exact ⟨above :: path, List.isChain_cons_cons.mpr ⟨under, climb⟩, by rw [same, ← long]; rfl⟩

theorem depth_isGreatest (type : ResolvedType) :
    IsGreatest {steps | ∃ path, type.Climb path ∧ path.length = steps} type.depth := by
  refine ⟨exists_climb type, ?_⟩
  rintro steps ⟨path, climb, rfl⟩
  exact climb.length_le_depth

theorem sizeOf_append (a b : List ResolvedType) : sizeOf (a ++ b) + 1 = sizeOf a + sizeOf b := by
  induction a with
  | nil =>
    rw [List.nil_append, List.nil.sizeOf_spec]
    omega
  | cons type rest ih =>
    simp only [List.cons_append, List.cons.sizeOf_spec]
    omega

theorem sizeOf_reverse (types : List ResolvedType) : sizeOf types.reverse = sizeOf types := by
  induction types with
  | nil => rfl
  | cons type rest ih =>
    have appended := sizeOf_append rest.reverse [type]
    simp only [List.reverse_cons, List.cons.sizeOf_spec, List.nil.sizeOf_spec] at appended ⊢
    omega

theorem sizeOf_supertypes_lt (type : ResolvedType) : sizeOf type.supertypes < sizeOf type := by
  obtain ⟨name, kind, modifiers, superclass, interfaces, methods, origin⟩ := type
  cases superclass <;> simp [supertypes] <;> omega

/-- A search for a name among the types above a type: the types to look at, the next one first, and
the names of those that were looked at; or its answer. -/
inductive Search where
  | going (pending : List ResolvedType) (seen : List String)
  | ended (found : Bool)

namespace Search

def start (type : ResolvedType) : Search :=
  going type.supertypes.reverse []

/-- Looks at one type. The supertypes of a type come before all that was to be looked at before, and
a name that has been seen is passed over. -/
def turn (goal : String) : Search → Search
  | going [] _ => ended false
  | going (type :: rest) seen =>
    if type.name = goal then ended true
    else if type.name ∈ seen then going rest seen
    else going (type.supertypes.reverse ++ rest) (type.name :: seen)
  | ended found => ended found

/-- A search before a turn: what is to be looked at is above the type, the goal has not been seen, and
what is directly above the type or a type that was looked at has been seen or will be. -/
structure Explores (type goal : ResolvedType) (pending : List ResolvedType) (seen : List String) :
    Prop where
  above : ∀ other ∈ pending, TransGen Under type other
  missed : goal.name ∉ seen
  direct : ∀ other, type.Under other → other.name ∈ seen ∨ other ∈ pending
  followed : ∀ other, TransGen Under type other → other.name ∈ seen → ∀ next, other.Under next →
    next.name ∈ seen ∨ next ∈ pending

namespace Explores

variable {lib : Library} {goal first : ResolvedType} {rest : List ResolvedType} {seen : List String}

theorem start (type goal : ResolvedType) : Explores type goal type.supertypes.reverse [] where
  above _ member := .single (List.mem_reverse.mp member)
  missed := by simp
  direct _ under := .inr (List.mem_reverse.mpr under)
  followed := by simp

theorem skip (explores : Explores type goal (first :: rest) seen) (known : first.name ∈ seen) :
    Explores type goal rest seen := by
  have pass {other : ResolvedType} (waits : other.name ∈ seen ∨ other ∈ first :: rest) :
      other.name ∈ seen ∨ other ∈ rest := by
    rcases waits with seenToo | waits
    · exact .inl seenToo
    rcases List.mem_cons.mp waits with rfl | later
    · exact .inl known
    · exact .inr later
  exact ⟨fun other member => explores.above other (List.mem_cons_of_mem _ member), explores.missed,
    fun other under => pass (explores.direct other under),
    fun other up inside next under => pass (explores.followed other up inside next under)⟩

theorem follow (loaded : lib.Loaded type) (explores : Explores type goal (first :: rest) seen)
    (other : first.name ≠ goal.name) :
    Explores type goal (first.supertypes.reverse ++ rest) (first.name :: seen) := by
  have reached := explores.above first (by simp)
  have pass {next : ResolvedType} (waits : next.name ∈ seen ∨ next ∈ first :: rest) :
      next.name ∈ first.name :: seen ∨ next ∈ first.supertypes.reverse ++ rest := by
    rcases waits with seenToo | waits
    · exact .inl (List.mem_cons_of_mem _ seenToo)
    rcases List.mem_cons.mp waits with rfl | later
    · exact .inl (by simp)
    · exact .inr (List.mem_append_right _ later)
  refine ⟨fun next member => ?_, ?_, fun next under => pass (explores.direct next under), ?_⟩
  · rcases List.mem_append.mp member with direct | later
    · exact reached.tail (List.mem_reverse.mp direct)
    · exact explores.above next (List.mem_cons_of_mem _ later)
  · simp [explores.missed, other.symm]
  · intro below up inside next under
    rcases List.mem_cons.mp inside with same | inside
    · -- only one type of the library has that name
      obtain rfl := (loaded.above up.to_reflTransGen).eq_of_name_eq
        (loaded.above reached.to_reflTransGen) same
      exact .inr (List.mem_append_left _ (List.mem_reverse.mpr under))
    · exact pass (explores.followed below up inside next under)

theorem absent (explores : Explores type goal [] seen) : ¬ TransGen Under type goal := by
  have all {other : ResolvedType} (up : TransGen Under type other) : other.name ∈ seen := by
    induction up with
    | single under => simpa using explores.direct _ under
    | tail before under known => simpa using explores.followed _ before known _ under
  exact fun up => explores.missed (all up)

theorem ends {pending : List ResolvedType} {seen : List String} (loaded : lib.Loaded type)
    (loadedToo : lib.Loaded goal) (explores : Explores type goal pending seen) :
    ∃ turns, (turn goal.name)^[turns] (going pending seen) = ended (type.isSubtypeOf goal) := by
  match pending with
  | [] =>
    have apart : type.isSubtypeOf goal = false := by
      rw [Bool.eq_false_iff, ne_eq, Library.isSubtypeOf_iff loaded loadedToo]
      exact explores.absent
    exact ⟨1, by rw [apart]; rfl⟩
  | first :: rest =>
    by_cases found : first.name = goal.name
    · have up := explores.above first (by simp)
      obtain rfl := (loaded.above up.to_reflTransGen).eq_of_name_eq loadedToo found
      have below := (Library.isSubtypeOf_iff loaded loadedToo).mpr up
      exact ⟨1, by simp [below, turn]⟩
    by_cases known : first.name ∈ seen
    · obtain ⟨turns, ended⟩ := ends loaded loadedToo (explores.skip known)
      exact ⟨turns + 1, by simpa [turn, found, known] using ended⟩
    · obtain ⟨turns, ended⟩ := ends loaded loadedToo (explores.follow loaded found)
      exact ⟨turns + 1, by simpa [turn, found, known] using ended⟩
termination_by sizeOf pending
decreasing_by
  · rw [List.cons.sizeOf_spec]
    omega
  · have fewer := sizeOf_supertypes_lt first
    have appended := sizeOf_append first.supertypes.reverse rest
    rw [sizeOf_reverse] at appended
    rw [List.cons.sizeOf_spec]
    omega

end Explores

end Search

end ResolvedType

namespace Loader

open ResolvedType

/-- A type that a loader over a library gives for a name, whatever it was asked before. -/
def Gives (lib : Library) (type : ResolvedType) : Prop :=
  ∃ calls name, (((ofLibrary lib).performAll calls).2.resolve name).1 = .ok type

theorem gives_iff_loaded {lib : Library} {type : ResolvedType} :
    Gives lib type ↔ lib.Loaded type := by
  simp only [Gives, resolve_performAll, Library.Loaded, exists_const]

/-- Between types of one loader, being a subtype is being below by one or more direct steps: a strict
order, which depth respects. Depth is the length of the longest climb, and the search that looks at one
type after the other comes to an end with this answer. -/
theorem subtypes_below (lib : Library) (a b : ResolvedType) (first : Gives lib a)
    (second : Gives lib b) :
    (a.isSubtypeOf b = true ↔ TransGen Under a b) ∧
    a.isSubtypeOf a = false ∧
    (∀ c, Gives lib c → a.isSubtypeOf b = true → b.isSubtypeOf c = true → a.isSubtypeOf c = true) ∧
    (a.isSubtypeOf b = true → b.depth < a.depth) ∧
    IsGreatest {steps | ∃ path, a.Climb path ∧ path.length = steps} a.depth ∧
    ∃ turns, (Search.turn b.name)^[turns] (.start a) = .ended (a.isSubtypeOf b) := by
  rw [gives_iff_loaded] at first second
  have below := Library.isSubtypeOf_iff first second
  refine ⟨below, Library.isSubtypeOf_irrefl first, fun c third => ?_, fun lower => ?_,
    depth_isGreatest a, (Search.Explores.start a b).ends first second⟩
  · exact Library.isSubtypeOf_trans first second (gives_iff_loaded.mp third)
  · exact depth_lt_of_above (below.mp lower)

end Loader

namespace Sample

open Loader

theorem button_below :
    (Gives library buttonType ∧ Gives library panelType ∧ Gives library objectType ∧
      buttonType.isSubtypeOf panelType = true ∧ panelType.isSubtypeOf objectType = true) ∧
    buttonType.isSubtypeOf objectType = true ∧ panelType.depth < buttonType.depth ∧
    ∃ turns, (ResolvedType.Search.turn panelType.name)^[turns] (.start buttonType) = .ended true := by
  have button := gives_iff_loaded.mpr buttonType_loaded
  have panel := gives_iff_loaded.mpr panelType_loaded
  have object := gives_iff_loaded.mpr objectType_loaded
  have lower : buttonType.isSubtypeOf panelType = true := by decide +kernel
  have upper : panelType.isSubtypeOf objectType = true := by decide +kernel
  obtain ⟨-, -, through, deeper, -, ends⟩ := subtypes_below library buttonType panelType button panel
  rw [lower] at ends
  exact ⟨⟨button, panel, object, lower, upper⟩, through _ object lower upper, deeper lower, ends⟩

end Sample

end WidgetDsl
