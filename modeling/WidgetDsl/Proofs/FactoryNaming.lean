import WidgetDsl.Proofs.EntrySignatures

/-!
What becomes of each class when factories are made. It gets a factory, a warning stands in place of the
factory, or the class is left out. A name is held by the first class that asks for it, if it can be the
name of a method; classes that get no factory hold nothing.
-/

namespace WidgetDsl.Factory

inductive Outcome where
  | made (factory : Factory)
  | warned (warning : Warning)
  | leftOut
  deriving DecidableEq, Repr

namespace Outcome

def factory? : Outcome → Option Factory
  | .made factory => some factory
  | _ => none

def warning? : Outcome → Option Warning
  | .warned warning => some warning
  | _ => none

end Outcome

variable {overrides : OverrideTable} {earlier classes : List ResolvedType} {type : ResolvedType}
  {name : String}

def holder? (overrides : OverrideTable) (earlier : List ResolvedType) (name : String) :
    Option ResolvedType :=
  earlier.find? (nameFor? · overrides = some name)

/-- What becomes of a class that comes after others. -/
def outcome (overrides : OverrideTable) (earlier : List ResolvedType) (type : ResolvedType) :
    Outcome :=
  match nameFor? type overrides with
  | none => .leftOut
  | some name =>
    if Java.isFreeIdentifier name then
      match holder? overrides earlier name with
      | some holder => .warned (.factoryCollision name type.canonicalName holder.canonicalName)
      | none => .made ⟨name, .ofBinary type.name⟩
    else .warned (.reservedFactory name type.canonicalName)

def outcomesAfter (overrides : OverrideTable) (earlier : List ResolvedType) :
    List ResolvedType → List Outcome
  | [] => []
  | type :: rest =>
    outcome overrides earlier type :: outcomesAfter overrides (earlier ++ [type]) rest

def outcomes (overrides : OverrideTable) (classes : List ResolvedType) : List Outcome :=
  outcomesAfter overrides [] classes

theorem getElem?_outcomesAfter (overrides : OverrideTable) (earlier classes : List ResolvedType)
    (i : Nat) : (outcomesAfter overrides earlier classes)[i]? =
      classes[i]?.map (outcome overrides (earlier ++ classes.take i)) := by
  induction classes generalizing earlier i with
  | nil => simp [outcomesAfter]
  | cons type rest ih =>
    cases i with
    | zero => simp [outcomesAfter]
    | succ i => simp [outcomesAfter, ih]

theorem getElem?_outcomes (overrides : OverrideTable) (classes : List ResolvedType) (i : Nat) :
    (outcomes overrides classes)[i]? = classes[i]?.map (outcome overrides (classes.take i)) :=
  getElem?_outcomesAfter overrides [] classes i

theorem outcomesAfter_append (overrides : OverrideTable) (earlier classes more : List ResolvedType) :
    outcomesAfter overrides earlier (classes ++ more) =
      outcomesAfter overrides earlier classes ++
        outcomesAfter overrides (earlier ++ classes) more := by
  induction classes generalizing earlier with
  | nil => simp [outcomesAfter]
  | cons type rest ih => simp [outcomesAfter, ih]

theorem length_outcomesAfter (overrides : OverrideTable) (earlier classes : List ResolvedType) :
    (outcomesAfter overrides earlier classes).length = classes.length := by
  induction classes generalizing earlier with
  | nil => rfl
  | cons type rest ih => simp [outcomesAfter, ih]

/-- The names taken are those held by earlier classes, as far as methods can have them. -/
def Holds (overrides : OverrideTable) (taken : Entries String) (earlier : List ResolvedType) : Prop :=
  ∀ name, Java.isFreeIdentifier name = true →
    taken.get? name = (holder? overrides earlier name).map (·.canonicalName)

theorem holder?_append (overrides : OverrideTable) (earlier : List ResolvedType) (type : ResolvedType)
    (name : String) : holder? overrides (earlier ++ [type]) name =
      (holder? overrides earlier name).or
        (if nameFor? type overrides = some name then some type else none) := by
  simp only [holder?, List.find?_append, List.find?_singleton, decide_eq_true_eq]

variable {taken : Entries String}

theorem Holds.skip (holds : Holds overrides taken earlier)
    (idle : ∀ name, nameFor? type overrides = some name → Java.isFreeIdentifier name = true →
      holder? overrides earlier name ≠ none) : Holds overrides taken (earlier ++ [type]) := by
  intro name free
  rw [holds name free, holder?_append]
  cases held : holder? overrides earlier name with
  | some holder => rfl
  | none =>
    have other : nameFor? type overrides ≠ some name := fun named => idle name named free held
    simp [other]

theorem Holds.insert (holds : Holds overrides taken earlier)
    (named : nameFor? type overrides = some name) (unheld : holder? overrides earlier name = none) :
    Holds overrides (taken.insert name type.canonicalName) (earlier ++ [type]) := by
  intro other free
  rw [Entries.get?_insert, holder?_append, holds other free, named]
  by_cases same : other = name
  · simp [same, unheld]
  · simp [same, Ne.symm same]

theorem ofClassesTaken_eq (holds : Holds overrides taken earlier) :
    ofClassesTaken overrides taken classes =
      ((outcomesAfter overrides earlier classes).filterMap Outcome.factory?,
        (outcomesAfter overrides earlier classes).filterMap Outcome.warning?) := by
  induction classes generalizing taken earlier with
  | nil => rfl
  | cons type rest ih =>
    rw [outcomesAfter]
    cases named : nameFor? type overrides with
    | none =>
      have passed : Holds overrides taken (earlier ++ [type]) := holds.skip (by simp [named])
      have skipped := ih passed
      simp [ofClassesTaken, outcome, named, skipped, List.filterMap_cons, Outcome.factory?,
        Outcome.warning?]
    | some name =>
      cases free : Java.isFreeIdentifier name with
      | false =>
        have passed : Holds overrides taken (earlier ++ [type]) := holds.skip (by simp [named, free])
        have skipped := ih passed
        simp [ofClassesTaken, outcome, named, free, skipped, List.filterMap_cons, Outcome.factory?,
          Outcome.warning?]
      | true =>
        have taken? := holds name free
        cases held : holder? overrides earlier name with
        | some holder =>
          have passed : Holds overrides taken (earlier ++ [type]) := holds.skip (by simp [named, held])
          have skipped := ih passed
          simp [ofClassesTaken, outcome, named, free, held, taken?, skipped, List.filterMap_cons,
            Outcome.factory?, Outcome.warning?]
        | none =>
          have later := ih (holds.insert named held)
          simp [ofClassesTaken, outcome, named, free, held, taken?, later, List.filterMap_cons,
            Outcome.factory?, Outcome.warning?]

theorem ofClasses_eq_outcomes (overrides : OverrideTable) (classes : List ResolvedType) :
    ofClasses classes overrides = ((outcomes overrides classes).filterMap Outcome.factory?,
      (outcomes overrides classes).filterMap Outcome.warning?) :=
  ofClassesTaken_eq fun _ _ => rfl

theorem nameFor?_eq_none_iff :
    nameFor? type overrides = none ↔ overrides.excludesClass type.canonicalName = true := by
  unfold nameFor? OverrideTable.excludesClass
  cases overrides.classAlias type.canonicalName <;> simp

section Reading

variable {factory : Factory} {warning : Warning} {holder : ResolvedType} {i : Nat}

theorem outcome_of_unnamed (unnamed : nameFor? type overrides = none) :
    outcome overrides earlier type = .leftOut := by
  simp [outcome, unnamed]

theorem outcome_of_reserved (named : nameFor? type overrides = some name)
    (reserved : Java.isFreeIdentifier name = false) :
    outcome overrides earlier type = .warned (.reservedFactory name type.canonicalName) := by
  simp [outcome, named, reserved]

theorem outcome_of_held (named : nameFor? type overrides = some name)
    (free : Java.isFreeIdentifier name = true) (held : holder? overrides earlier name = some holder) :
    outcome overrides earlier type =
      .warned (.factoryCollision name type.canonicalName holder.canonicalName) := by
  simp [outcome, named, free, held]

theorem outcome_of_unheld (named : nameFor? type overrides = some name)
    (free : Java.isFreeIdentifier name = true) (unheld : holder? overrides earlier name = none) :
    outcome overrides earlier type = .made ⟨name, .ofBinary type.name⟩ := by
  simp [outcome, named, free, unheld]

theorem outcome_eq_leftOut_iff : outcome overrides earlier type = .leftOut ↔
    overrides.excludesClass type.canonicalName = true := by
  rw [← nameFor?_eq_none_iff]
  refine ⟨fun out => ?_, outcome_of_unnamed⟩
  unfold outcome at out
  split at out
  · assumption
  · split at out
    · split at out <;> cases out
    · cases out

theorem outcome_eq_made_iff : outcome overrides earlier type = .made factory ↔
    ∃ name, nameFor? type overrides = some name ∧ Java.isFreeIdentifier name = true ∧
      holder? overrides earlier name = none ∧ factory = ⟨name, .ofBinary type.name⟩ := by
  constructor
  · intro made
    unfold outcome at made
    split at made
    · cases made
    · rename_i name named
      split at made
      · rename_i free
        split at made
        · cases made
        · rename_i unheld
          exact ⟨name, named, free, unheld, (Outcome.made.inj made).symm⟩
      · cases made
  · rintro ⟨name, named, free, unheld, rfl⟩
    exact outcome_of_unheld named free unheld

theorem outcome_eq_warned_iff : outcome overrides earlier type = .warned warning ↔
    ∃ name, nameFor? type overrides = some name ∧
      (Java.isFreeIdentifier name = false ∧ warning = .reservedFactory name type.canonicalName ∨
        Java.isFreeIdentifier name = true ∧ ∃ holder, holder? overrides earlier name = some holder ∧
          warning = .factoryCollision name type.canonicalName holder.canonicalName) := by
  constructor
  · intro warned
    unfold outcome at warned
    split at warned
    · cases warned
    · rename_i name named
      refine ⟨name, named, ?_⟩
      split at warned
      · rename_i free
        split at warned
        · rename_i holder held
          exact .inr ⟨free, holder, held, (Outcome.warned.inj warned).symm⟩
        · cases warned
      · rename_i reserved
        exact .inl ⟨Bool.eq_false_of_not_eq_true reserved, (Outcome.warned.inj warned).symm⟩
  · rintro ⟨name, named, ⟨reserved, rfl⟩ | ⟨free, holder, held, rfl⟩⟩
    · exact outcome_of_reserved named reserved
    · exact outcome_of_held named free held

theorem holder?_take_eq_some_iff : holder? overrides (classes.take i) name = some holder ↔
    ∃ j < i, classes[j]? = some holder ∧ nameFor? holder overrides = some name ∧
      holder? overrides (classes.take j) name = none := by
  induction i with
  | zero => simp [holder?]
  | succ i ih =>
    have split : holder? overrides (classes.take (i + 1)) name =
        (holder? overrides (classes.take i) name).or
          (classes[i]?.filter fun type => nameFor? type overrides = some name) := by
      rw [List.take_add_one, holder?, List.find?_append, ← holder?]
      cases classes[i]? <;> simp [Option.filter, List.find?_singleton]
    rw [split, Option.or_eq_some_iff, ih, Option.filter_eq_some_iff, decide_eq_true_eq]
    constructor
    · rintro (⟨j, below, rest⟩ | ⟨unheld, here, named⟩)
      · exact ⟨j, by omega, rest⟩
      · exact ⟨i, by omega, here, named, unheld⟩
    · rintro ⟨j, below, here, named, unheld⟩
      rcases Nat.lt_succ_iff_lt_or_eq.mp below with earlier | rfl
      · exact .inl ⟨j, earlier, here, named, unheld⟩
      · exact .inr ⟨unheld, here, named⟩

/-- The class that a name is held by is the one with a factory of that name. -/
theorem holder?_take_iff_made (free : Java.isFreeIdentifier name = true) :
    holder? overrides (classes.take i) name = some holder ↔
      ∃ j < i, classes[j]? = some holder ∧
        (outcomes overrides classes)[j]? = some (.made ⟨name, .ofBinary holder.name⟩) := by
  rw [holder?_take_eq_some_iff]
  refine exists_congr fun j => and_congr_right fun _ => and_congr_right fun here => ?_
  rw [getElem?_outcomes, here, Option.map_some, Option.some.injEq]
  constructor
  · rintro ⟨named, unheld⟩
    exact outcome_of_unheld named free unheld
  · intro made
    obtain ⟨other, named, -, unheld, same⟩ := outcome_eq_made_iff.mp made
    cases same
    exact ⟨named, unheld⟩

def Unused (overrides : OverrideTable) (classes : List ResolvedType) (i : Nat) (name : String) : Prop :=
  ∀ j < i, ∀ factory, (outcomes overrides classes)[j]? = some (.made factory) → factory.name ≠ name

theorem unused_iff (free : Java.isFreeIdentifier name = true) :
    Unused overrides classes i name ↔ holder? overrides (classes.take i) name = none := by
  constructor
  · intro unused
    by_contra held
    obtain ⟨holder, held⟩ := Option.ne_none_iff_exists'.mp held
    obtain ⟨j, below, -, made⟩ := (holder?_take_iff_made free).mp held
    exact unused j below _ made rfl
  · intro unheld j below factory made named
    have here := made
    rw [getElem?_outcomes, Option.map_eq_some_iff] at here
    obtain ⟨holder, here, result⟩ := here
    obtain ⟨other, -, -, -, rfl⟩ := outcome_eq_made_iff.mp result
    cases named
    rw [(holder?_take_iff_made free).mpr ⟨j, below, here, made⟩] at unheld
    cases unheld

structure Turns (overrides : OverrideTable) (classes : List ResolvedType) (i : Nat)
    (type : ResolvedType) (result : Outcome) : Prop where
  leftOut : result = .leftOut ↔ overrides.excludesClass type.canonicalName = true
  made : ∀ factory, result = .made factory ↔ ∃ name, nameFor? type overrides = some name ∧
    Java.isFreeIdentifier name = true ∧ Unused overrides classes i name ∧
    factory = ⟨name, .ofBinary type.name⟩
  reserved : ∀ warning, result = .warned warning ∧ warning.code = "RESERVED_IDENTIFIER" ↔
    ∃ name, nameFor? type overrides = some name ∧ Java.isFreeIdentifier name = false ∧
      warning = .reservedFactory name type.canonicalName
  collides : ∀ warning, result = .warned warning ∧ warning.code = "FACTORY_NAME_COLLISION" ↔
    ∃ name, nameFor? type overrides = some name ∧ Java.isFreeIdentifier name = true ∧
      ∃ j < i, ∃ holder, classes[j]? = some holder ∧
        (outcomes overrides classes)[j]? = some (.made ⟨name, .ofBinary holder.name⟩) ∧
        warning = .factoryCollision name type.canonicalName holder.canonicalName
  coded : ∀ warning, result = .warned warning →
    warning.code = "RESERVED_IDENTIFIER" ∨ warning.code = "FACTORY_NAME_COLLISION"

theorem turns_outcome (overrides : OverrideTable) (classes : List ResolvedType) (i : Nat)
    (type : ResolvedType) :
    Turns overrides classes i type (outcome overrides (classes.take i) type) where
  leftOut := outcome_eq_leftOut_iff
  made factory := by
    rw [outcome_eq_made_iff]
    refine exists_congr fun name => and_congr_right fun _ => and_congr_right fun free => ?_
    rw [unused_iff free]
  reserved warning := by
    rw [outcome_eq_warned_iff]
    constructor
    · rintro ⟨⟨name, named, ⟨reserved, same⟩ | ⟨-, holder, -, rfl⟩⟩, code⟩
      · exact ⟨name, named, reserved, same⟩
      · exact absurd code (by simp [Warning.factoryCollision])
    · rintro ⟨name, named, reserved, rfl⟩
      exact ⟨⟨name, named, .inl ⟨reserved, rfl⟩⟩, rfl⟩
  collides warning := by
    rw [outcome_eq_warned_iff]
    constructor
    · rintro ⟨⟨name, named, ⟨-, rfl⟩ | ⟨free, holder, held, same⟩⟩, code⟩
      · exact absurd code (by simp [Warning.reservedFactory])
      · obtain ⟨j, below, here, made⟩ := (holder?_take_iff_made free).mp held
        exact ⟨name, named, free, j, below, holder, here, made, same⟩
    · rintro ⟨name, named, free, j, below, holder, here, made, rfl⟩
      have held := (holder?_take_iff_made free).mpr ⟨j, below, here, made⟩
      exact ⟨⟨name, named, .inr ⟨free, holder, held, rfl⟩⟩, rfl⟩
  coded warning warned := by
    obtain ⟨name, -, ⟨-, rfl⟩ | ⟨-, holder, -, rfl⟩⟩ := outcome_eq_warned_iff.mp warned
    · exact .inl rfl
    · exact .inr rfl

end Reading

/-- Each class of a list has one outcome, and these are what the factories and the warnings are, in
order. Factories have different names that methods can have, and classes that come later change
nothing for those before them. -/
theorem ofClasses_outcomes (overrides : OverrideTable) (classes : List ResolvedType) :
    (outcomes overrides classes).length = classes.length ∧
    ofClasses classes overrides = ((outcomes overrides classes).filterMap Outcome.factory?,
      (outcomes overrides classes).filterMap Outcome.warning?) ∧
    (∀ i type, classes[i]? = some type → ∃ result, (outcomes overrides classes)[i]? = some result ∧
      Turns overrides classes i type result) ∧
    ((ofClasses classes overrides).1.map (·.name)).Nodup ∧
    (∀ factory ∈ (ofClasses classes overrides).1,
      Java.isIdentifier factory.name = true ∧ factory.name ∉ Java.keywords) ∧
    ∀ more, (ofClasses classes overrides).1 <+: (ofClasses (classes ++ more) overrides).1 ∧
      (ofClasses classes overrides).2 <+: (ofClasses (classes ++ more) overrides).2 := by
  refine ⟨length_outcomesAfter overrides [] classes, ofClasses_eq_outcomes overrides classes,
    fun i type here => ?_, ofClassesTaken_distinct, fun factory member => ?_, fun more => ?_⟩
  · exact ⟨_, by rw [getElem?_outcomes, here, Option.map_some], turns_outcome overrides classes i type⟩
  · obtain ⟨identifier, unreserved⟩ :=
      Bool.and_eq_true_iff.mp (of_mem_ofClassesTaken member).1
    exact ⟨identifier, by simpa using unreserved⟩
  · rw [ofClasses_eq_outcomes, ofClasses_eq_outcomes, outcomes, outcomes, outcomesAfter_append,
      List.filterMap_append, List.filterMap_append]
    exact ⟨List.prefix_append .., List.prefix_append ..⟩

/-- Of two labels the first has the name, and a switch would be called like a keyword. -/
example : outcomes .empty (["a.Label", "b.Label", "a.Switch"].map fun name =>
      ⟨name, .classType, ["public"], none, [], [], none⟩) =
    [.made ⟨"label", .ofBinary "a.Label"⟩, .warned (.factoryCollision "label" "b.Label" "a.Label"),
      .warned (.reservedFactory "switch" "a.Switch")] := by
  decide +kernel

end WidgetDsl.Factory
