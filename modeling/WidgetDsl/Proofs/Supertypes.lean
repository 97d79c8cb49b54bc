import WidgetDsl.Proofs.Loading

/-!
The types of a library and the order between them. Types of one library that have one name are one
type, so that walking up by names and walking up the types themselves come to the same.
-/

namespace WidgetDsl

open Relation

namespace ResolvedType

def Under (a b : ResolvedType) : Prop :=
  b ∈ a.supertypes

theorem sizeOf_lt_of_under {a b : ResolvedType} (under : a.Under b) : sizeOf b < sizeOf a := by
  obtain ⟨name, kind, modifiers, superclass, interfaces, methods, origin⟩ := a
  simp only [Under, supertypes, List.mem_append, Option.mem_toList] at under
  rcases under with above | member
  · obtain rfl := Option.mem_def.mp above
    simp
    omega
  · have smaller := List.sizeOf_lt_of_mem member
    simp
    omega

theorem supertypes_induction {P : ResolvedType → Prop}
    (step : ∀ type, (∀ above, type.Under above → P above) → P type) (type : ResolvedType) : P type :=
  step type fun above _under => supertypes_induction step above
termination_by sizeOf type
decreasing_by exact sizeOf_lt_of_under _under

theorem not_under_self (type : ResolvedType) : ¬ TransGen Under type type := by
  have smaller {a b : ResolvedType} (above : TransGen Under a b) : sizeOf b < sizeOf a := by
    induction above with
    | single under => exact sizeOf_lt_of_under under
    | tail _ under ih => exact Nat.lt_trans (sizeOf_lt_of_under under) ih
  exact fun cycle => Nat.lt_irrefl _ (smaller cycle)

theorem gatherAmong_append (a b : List ResolvedType) (found : List String) :
    gatherAmong (a ++ b) found = gatherAmong b (gatherAmong a found) := by
  induction a generalizing found with
  | nil => rfl
  | cons type rest ih => exact ih (gatherNames type found)

theorem gatherAmong_supertypes (type : ResolvedType) (found : List String) :
    gatherAmong type.supertypes found =
      gatherAmong type.interfaces (gatherAbove type.superclass found) := by
  rw [supertypes, gatherAmong_append]
  cases type.superclass <;> rfl

theorem gatherNames_eq (type : ResolvedType) (found : List String) :
    gatherNames type found =
      if type.name ∈ found then found else type.name :: gatherAmong type.supertypes found := by
  rw [gatherAmong_supertypes]
  obtain ⟨name, kind, modifiers, superclass, interfaces, methods, origin⟩ := type
  rfl

end ResolvedType

namespace Library

open ResolvedType

variable {lib : Library}

def Loaded (lib : Library) (type : ResolvedType) : Prop :=
  ∃ name, lib.resolve name = .ok type

end Library

theorem Definition.mem_of_under_assemble {definition : Definition} {name : String}
    {types : List ResolvedType} {above : ResolvedType}
    (under : (definition.assemble name types).Under above) : above ∈ types := by
  cases definition with
  | void => simp [assemble, ResolvedType.Under, ResolvedType.supertypes] at under
  | primitive => simp [assemble, ResolvedType.Under, ResolvedType.supertypes] at under
  | array component =>
    simp only [assemble, ResolvedType.Under, ResolvedType.supertypes, List.append_nil,
      Option.mem_toList] at under
    exact List.mem_of_getElem? under
  | declared decl origin =>
    simp only [assemble, ResolvedType.Under, ResolvedType.supertypes, List.mem_append,
      Option.mem_toList] at under
    split at under
    · rcases under with first | later
      · exact List.mem_of_mem_head? first
      · exact List.mem_of_mem_drop later
    · rcases under with first | later
      · cases first
      · exact later

namespace Library

open ResolvedType

variable {lib : Library} {a b c : ResolvedType}

namespace Loaded

theorem builds (loaded : lib.Loaded a) : lib.Builds a.name a := by
  obtain ⟨name, result⟩ := loaded
  have built := builds_iff_resolve.mpr result
  rw [built.name_eq]
  exact built

theorem eq_of_name_eq (first : lib.Loaded a) (second : lib.Loaded b) (same : a.name = b.name) :
    a = b :=
  first.builds.unique (same ▸ second.builds)

theorem under (loaded : lib.Loaded a) (under : a.Under b) : lib.Loaded b := by
  obtain ⟨name, result⟩ := loaded
  cases builds_iff_resolve.mpr result with
  | intro types defined parts =>
    have member := Definition.mem_of_under_assemble under
    obtain ⟨needed, inside, rfl⟩ := List.mem_map.mp member
    exact ⟨needed, builds_iff_resolve.mp (parts needed inside)⟩

theorem above (loaded : lib.Loaded a) (above : ReflTransGen Under a b) : lib.Loaded b := by
  induction above with
  | refl => exact loaded
  | tail _ under ih => exact ih.under under

end Loaded

/-- With the name of a type there are the names of its direct supertypes. -/
def UpwardClosed (lib : Library) (found : List String) : Prop :=
  ∀ type, lib.Loaded type → type.name ∈ found → ∀ above, type.Under above → above.name ∈ found

theorem UpwardClosed.above {found : List String} (closed : lib.UpwardClosed found)
    (loaded : lib.Loaded a) (inside : a.name ∈ found) (above : ReflTransGen Under a b) :
    b.name ∈ found := by
  induction above with
  | refl => exact inside
  | tail before under ih => exact closed _ (loaded.above before) ih _ under

/-- What gathering names from some types has to add to the names found. -/
def Gathers (lib : Library) (types : List ResolvedType) (found result : List String) : Prop :=
  lib.UpwardClosed result ∧
    ∀ name, name ∈ result ↔
      name ∈ found ∨ ∃ type ∈ types, ∃ above, ReflTransGen Under type above ∧ above.name = name

theorem gatherAmong_gathers {types : List ResolvedType}
    (each : ∀ type ∈ types, ∀ found, lib.UpwardClosed found →
      lib.Gathers [type] found (gatherNames type found))
    {found : List String} (closed : lib.UpwardClosed found) :
    lib.Gathers types found (gatherAmong types found) := by
  induction types generalizing found with
  | nil => exact ⟨closed, fun name => by simp [gatherAmong]⟩
  | cons type rest ih =>
    obtain ⟨closedFirst, first⟩ := each type (by simp) found closed
    obtain ⟨closedAll, all⟩ :=
      ih (fun other member => each other (List.mem_cons_of_mem _ member)) closedFirst
    refine ⟨closedAll, fun name => ?_⟩
    rw [gatherAmong, all, first]
    simp only [List.mem_cons, List.not_mem_nil, or_false, exists_eq_or_imp, exists_eq_left]
    exact or_assoc

theorem gatherNames_gathers (loaded : lib.Loaded a) {found : List String}
    (closed : lib.UpwardClosed found) : lib.Gathers [a] found (gatherNames a found) := by
  induction a using supertypes_induction generalizing found with
  | step type ih =>
    have above : lib.Gathers type.supertypes found (gatherAmong type.supertypes found) :=
      gatherAmong_gathers (fun other under found closed => ih other under (loaded.under under) closed)
        closed
    obtain ⟨closedAbove, names⟩ := above
    rw [gatherNames_eq]
    split
    · rename_i inside
      refine ⟨closed, fun name => ⟨.inl, ?_⟩⟩
      rintro (old | ⟨_, same, above, up, rfl⟩)
      · exact old
      · obtain rfl := List.mem_singleton.mp same
        exact closed.above loaded inside up
    · refine ⟨?_, fun name => ?_⟩
      · intro other loadedOther inside above under
        rcases List.mem_cons.mp inside with same | inside
        · obtain rfl := loadedOther.eq_of_name_eq loaded same
          exact List.mem_cons_of_mem _ ((names _).mpr (.inr ⟨above, under, above, .refl, rfl⟩))
        · exact List.mem_cons_of_mem _ (closedAbove other loadedOther inside above under)
      · rw [List.mem_cons, names]
        constructor
        · rintro (rfl | old | ⟨next, under, above, up, rfl⟩)
          · exact .inr ⟨type, by simp, type, .refl, rfl⟩
          · exact .inl old
          · exact .inr ⟨type, by simp, above, .head under up, rfl⟩
        · rintro (old | ⟨_, same, above, up, rfl⟩)
          · exact .inr (.inl old)
          · obtain rfl := List.mem_singleton.mp same
            rcases up.cases_head with rfl | ⟨next, under, up⟩
            · exact .inl rfl
            · exact .inr (.inr ⟨next, under, above, up, rfl⟩)

/-- Between types of a library, being a subtype is being reached by one or more steps up. -/
theorem isSubtypeOf_iff (loaded : lib.Loaded a) (loadedToo : lib.Loaded b) :
    a.isSubtypeOf b = true ↔ TransGen Under a b := by
  have gathers : lib.Gathers a.supertypes [] a.ancestorNames := by
    rw [ancestorNames, ← gatherAmong_supertypes]
    refine gatherAmong_gathers (fun other under found closed => ?_) (by simp [UpwardClosed])
    exact gatherNames_gathers (loaded.under under) closed
  simp only [isSubtypeOf, decide_eq_true_eq, gathers.2, List.not_mem_nil, false_or]
  rw [TransGen.head'_iff]
  constructor
  · rintro ⟨next, under, above, up, same⟩
    obtain rfl := ((loaded.under under).above up).eq_of_name_eq loadedToo same
    exact ⟨next, under, up⟩
  · rintro ⟨next, under, up⟩
    exact ⟨next, under, b, up, rfl⟩

theorem isSubtypeOf_irrefl (loaded : lib.Loaded a) : a.isSubtypeOf a = false := by
  rw [Bool.eq_false_iff, ne_eq, isSubtypeOf_iff loaded loaded]
  exact not_under_self a

theorem isSubtypeOf_trans (first : lib.Loaded a) (second : lib.Loaded b) (third : lib.Loaded c)
    (lower : a.isSubtypeOf b = true) (upper : b.isSubtypeOf c = true) : a.isSubtypeOf c = true := by
  rw [isSubtypeOf_iff first second] at lower
  rw [isSubtypeOf_iff second third] at upper
  rw [isSubtypeOf_iff first third]
  exact lower.trans upper

end Library

end WidgetDsl
