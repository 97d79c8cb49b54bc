import WidgetDsl.Proofs.Signatures
import WidgetDsl.Proofs.Supertypes

/-!
The walk up the interface lists of a type. It comes to every interface once, to those that are fewer
steps away first, and of the abstract methods of one signature it takes the first.
-/

namespace WidgetDsl

open Relation

namespace ResolvedType

variable {start type other : ResolvedType} {near far pending : List ResolvedType}
  {seen : List String} {steps : Nat}

def Lists (a b : ResolvedType) : Prop :=
  b ∈ a.interfaces

theorem Lists.under {a b : ResolvedType} (listed : a.Lists b) : a.Under b :=
  List.mem_append_right _ listed

inductive InSteps (start : ResolvedType) : Nat → ResolvedType → Prop where
  | here : InSteps start 0 start
  | next {steps : Nat} {type above : ResolvedType} (before : InSteps start steps type)
      (listed : type.Lists above) : InSteps start (steps + 1) above

theorem InSteps.reaches (inSteps : InSteps start steps type) : ReflTransGen Lists start type := by
  induction inSteps with
  | here => exact .refl
  | next _ listed ih => exact ih.tail listed

def NoFarther (start a b : ResolvedType) : Prop :=
  ∀ steps, InSteps start steps b → ∃ fewer ≤ steps, InSteps start fewer a

theorem reaches_of_mem_reachInterfaces (member : type ∈ reachInterfaces pending seen) :
    ∃ first ∈ pending, ReflTransGen Lists first type := by
  induction pending, seen using reachInterfaces.induct with
  | case1 seen => simp [reachInterfaces] at member
  | case2 seen first rest known ih =>
    rw [reachInterfaces, if_pos known] at member
    obtain ⟨waiting, listed, up⟩ := ih member
    exact ⟨waiting, List.mem_cons_of_mem _ listed, up⟩
  | case3 seen first rest fresh ih =>
    rw [reachInterfaces, if_neg fresh] at member
    rcases List.mem_cons.mp member with rfl | later
    · exact ⟨type, by simp, .refl⟩
    obtain ⟨waiting, listed, up⟩ := ih later
    rcases List.mem_append.mp listed with listed | direct
    · exact ⟨waiting, List.mem_cons_of_mem _ listed, up⟩
    · exact ⟨first, by simp, .head direct up⟩

theorem reaches_of_mem_interfaceClosure (member : other ∈ type.interfaceClosure) :
    ReflTransGen Lists type other := by
  obtain ⟨first, listed, up⟩ := reaches_of_mem_reachInterfaces member
  obtain rfl := List.mem_singleton.mp listed
  exact up

theorem fresh_of_mem_reachInterfaces (member : type ∈ reachInterfaces pending seen) :
    type.name ∉ seen := by
  induction pending, seen using reachInterfaces.induct with
  | case1 seen => simp [reachInterfaces] at member
  | case2 seen first rest known ih =>
    rw [reachInterfaces, if_pos known] at member
    exact ih member
  | case3 seen first rest fresh ih =>
    rw [reachInterfaces, if_neg fresh] at member
    rcases List.mem_cons.mp member with rfl | later
    · exact fresh
    · exact fun known => ih later (List.mem_cons_of_mem _ known)

theorem reachInterfaces_distinct (pending : List ResolvedType) (seen : List String) :
    (reachInterfaces pending seen).Pairwise (·.name ≠ ·.name) := by
  induction pending, seen using reachInterfaces.induct with
  | case1 seen => simp [reachInterfaces]
  | case2 seen first rest known ih =>
    rw [reachInterfaces, if_pos known]
    exact ih
  | case3 seen first rest fresh ih =>
    rw [reachInterfaces, if_neg fresh, List.pairwise_cons]
    refine ⟨fun other later same => ?_, ih⟩
    exact fresh_of_mem_reachInterfaces later (by simp [same])

/-- The walk from a type when those that wait are so many steps away, or one step more: all that are
nearer have been seen, and what is listed by a type that has been seen is seen itself or waits. -/
structure Walks (start : ResolvedType) (steps : Nat) (near far : List ResolvedType)
    (seen : List String) : Prop where
  atNear : ∀ type ∈ near, InSteps start steps type
  atFar : ∀ type ∈ far, InSteps start (steps + 1) type
  nearer : ∀ fewer < steps, ∀ type, InSteps start fewer type → type.name ∈ seen
  level : ∀ type, InSteps start steps type → type.name ∈ seen ∨ type ∈ near
  followed : ∀ type, ReflTransGen Lists start type → type.name ∈ seen → ∀ above, type.Lists above →
    above.name ∈ seen ∨ above ∈ near ++ far

namespace Walks

theorem begin (start : ResolvedType) : Walks start 0 [start] [] [] where
  atNear type member := by
    obtain rfl := List.mem_singleton.mp member
    exact .here
  atFar := by simp
  nearer fewer less := by omega
  level type inSteps := by
    cases inSteps
    simp
  followed := by simp

theorem nextLevel (walks : Walks start steps [] far seen) :
    Walks start (steps + 1) far [] seen where
  atNear := walks.atFar
  atFar := by simp
  nearer fewer less type inSteps := by
    rcases Nat.lt_or_eq_of_le (Nat.le_of_lt_succ less) with fewer | rfl
    · exact walks.nearer _ fewer type inSteps
    · simpa using walks.level type inSteps
  level type inSteps := by
    cases inSteps with
    | @next _ below _ before listed =>
      -- none of the last level wait any more, so what lists this one has been seen
      have known : below.name ∈ seen := by simpa using walks.level below before
      simpa using walks.followed below before.reaches known type listed
  followed := by simpa using walks.followed

theorem skip (walks : Walks start steps (type :: near) far seen) (known : type.name ∈ seen) :
    Walks start steps near far seen where
  atNear other member := walks.atNear other (List.mem_cons_of_mem _ member)
  atFar := walks.atFar
  nearer := walks.nearer
  level other inSteps := by
    rcases walks.level other inSteps with known | waits
    · exact .inl known
    · rcases List.mem_cons.mp waits with rfl | later
      · exact .inl known
      · exact .inr later
  followed other reached knownToo above listed := by
    rcases walks.followed other reached knownToo above listed with seenAbove | waits
    · exact .inl seenAbove
    · rcases List.mem_cons.mp waits with rfl | later
      · exact .inl known
      · exact .inr later

theorem exists_first {rest : List ResolvedType} (walks : Walks start steps near far seen)
    (waiting : near ++ far = type :: rest) : ∃ steps near far,
      Walks start steps (type :: near) far seen ∧ near ++ far = rest := by
  cases near with
  | nil =>
    rw [List.nil_append] at waiting
    subst waiting
    exact ⟨_, rest, [], walks.nextLevel, by simp⟩
  | cons first near =>
    obtain ⟨rfl, rfl⟩ := List.cons.inj waiting
    exact ⟨steps, near, far, walks, rfl⟩

theorem seen_of_done (walks : Walks start steps [] [] seen)
    (reached : ReflTransGen Lists start type) : type.name ∈ seen := by
  induction reached with
  | refl =>
    rcases Nat.eq_zero_or_pos steps with rfl | later
    · simpa using walks.level start .here
    · exact walks.nearer 0 later start .here
  | tail before listed ih => simpa using walks.followed _ before ih _ listed

theorem reaches (walks : Walks start steps (type :: near) far seen) :
    ReflTransGen Lists start type :=
  (walks.atNear type (by simp)).reaches

end Walks

theorem find?_ownAbstractMethods {member : Member} {signature : Signature} :
    type.ownAbstractMethods.find? (·.method.signature = signature) = some member ↔
      member.declaring = type ∧
        (type.methods.filter (·.isOpen)).find? (·.signature = signature) = some member.method := by
  obtain ⟨declaring, method⟩ := member
  have own : type.ownAbstractMethods = (type.methods.filter (·.isOpen)).map (⟨type, ·⟩) := rfl
  rw [own, List.find?_map, Option.map_eq_some_iff]
  constructor
  · rintro ⟨m, found, same⟩
    cases same
    exact ⟨rfl, found⟩
  · rintro ⟨rfl, found⟩
    exact ⟨method, found, rfl⟩

/-- Of the methods of one signature the one stays that the walk comes to first. -/
theorem mem_abstractMethods_iff {member : Member} : member ∈ type.abstractMethods ↔
    ∃ before after, type.interfaceClosure = before ++ member.declaring :: after ∧
      (member.declaring.methods.filter (·.isOpen)).find?
        (·.signature = member.method.signature) = some member.method ∧
      ∀ nearer ∈ before, ∀ m ∈ nearer.methods, m.isOpen = true →
        m.signature ≠ member.method.signature := by
  have noneOf (nearer : ResolvedType) :
      nearer.ownAbstractMethods.find? (·.method.signature = member.method.signature) = none ↔
        ∀ m ∈ nearer.methods, m.isOpen = true → m.signature ≠ member.method.signature := by
    simp [ownAbstractMethods, List.find?_eq_none, Method.isOpen]
  rw [abstractMethods, List.mem_mergeSort, mem_firstOfEach, List.find?_flatMap,
    List.findSome?_eq_some_iff]
  simp only [List.not_mem_nil, not_false_eq_true, true_and, find?_ownAbstractMethods, noneOf]
  constructor
  · rintro ⟨before, _, after, met, ⟨rfl, found⟩, others⟩
    exact ⟨before, after, met, found, others⟩
  · rintro ⟨before, after, met, found, others⟩
    exact ⟨before, _, after, met, ⟨rfl, found⟩, others⟩

theorem mem_abstractMethods {member : Member} (listed : member ∈ type.abstractMethods) :
    member.declaring ∈ type.interfaceClosure ∧ member.method ∈ member.declaring.methods ∧
      member.method.isOpen = true := by
  obtain ⟨before, after, met, found, -⟩ := mem_abstractMethods_iff.mp listed
  have own := List.mem_filter.mp (List.mem_of_find?_eq_some found)
  exact ⟨by simp [met], own⟩

theorem exists_abstractMethods {m : Method} (met : other ∈ type.interfaceClosure)
    (declared : m ∈ other.methods) (isOpen : m.isOpen = true) :
    ∃ member ∈ type.abstractMethods, member.method.signature = m.signature := by
  have own : ⟨other, m⟩ ∈ other.ownAbstractMethods :=
    List.mem_map_of_mem (List.mem_filter.mpr ⟨declared, isOpen⟩)
  have offered : (type.interfaceClosure.flatMap ownAbstractMethods).find?
      (·.method.signature = m.signature) ≠ none := by
    intro none
    have other := List.find?_eq_none.mp none _ (List.mem_flatMap.mpr ⟨other, met, own⟩)
    simp at other
  obtain ⟨member, found⟩ := Option.ne_none_iff_exists'.mp offered
  have same : member.method.signature = m.signature := by simpa using List.find?_some found
  refine ⟨member, ?_, same⟩
  rw [abstractMethods, List.mem_mergeSort, mem_firstOfEach, same]
  exact ⟨by simp, found⟩

end ResolvedType

namespace Library

open ResolvedType

variable {lib : Library} {start type other : ResolvedType} {near far pending : List ResolvedType}
  {seen : List String} {steps : Nat}

theorem Loaded.reached (loaded : lib.Loaded start) (reached : ReflTransGen Lists start type) :
    lib.Loaded type :=
  loaded.above (ReflTransGen.mono (fun _ _ => Lists.under) _ _ reached)

theorem Loaded.visit (loaded : lib.Loaded start)
    (walks : Walks start steps (type :: near) far seen) :
    Walks start steps near (far ++ type.interfaces) (type.name :: seen) where
  atNear other member := walks.atNear other (List.mem_cons_of_mem _ member)
  atFar other member := by
    rcases List.mem_append.mp member with waits | listed
    · exact walks.atFar other waits
    · exact .next (walks.atNear type (by simp)) listed
  nearer fewer less other inSteps := List.mem_cons_of_mem _ (walks.nearer fewer less other inSteps)
  level other inSteps := by
    rcases walks.level other inSteps with known | waits
    · exact .inl (List.mem_cons_of_mem _ known)
    · rcases List.mem_cons.mp waits with rfl | later
      · exact .inl (by simp)
      · exact .inr later
  followed other reached known above listed := by
    rcases List.mem_cons.mp known with same | known
    · -- only names are kept as seen, but in a library a name is of one type
      have here := (loaded.reached reached).eq_of_name_eq (loaded.reached walks.reaches) same
      subst here
      exact .inr (by simp [show above ∈ other.interfaces from listed])
    · rcases walks.followed other reached known above listed with seenAbove | waits
      · exact .inl (List.mem_cons_of_mem _ seenAbove)
      · simp only [List.cons_append, List.mem_cons, List.mem_append] at waits ⊢
        rcases waits with rfl | near | far
        · exact .inl (.inl rfl)
        · exact .inr (.inl near)
        · exact .inr (.inr (.inl far))

/-- A walk takes every type that is reached and has not been seen, those that are nearer first. -/
theorem Loaded.walk (loaded : lib.Loaded start) (walks : Walks start steps near far seen) :
    (∀ type, ReflTransGen Lists start type →
      type.name ∈ seen ∨ type ∈ reachInterfaces (near ++ far) seen) ∧
    (reachInterfaces (near ++ far) seen).Pairwise (NoFarther start) := by
  -- by the recursion of the walk, which does not tell where in the queue a level ends
  generalize waiting : near ++ far = pending
  induction pending, seen using reachInterfaces.induct generalizing steps near far with
  | case1 seen =>
    obtain ⟨rfl, rfl⟩ := List.append_eq_nil_iff.mp waiting
    exact ⟨fun type reached => .inl (walks.seen_of_done reached), by simp [reachInterfaces]⟩
  | case2 seen first rest known ih =>
    obtain ⟨steps, near, far, walks, rfl⟩ := walks.exists_first waiting
    rw [reachInterfaces, if_pos known]
    exact ih (walks.skip known) rfl
  | case3 seen first rest fresh ih =>
    obtain ⟨steps, near, far, walks, rfl⟩ := walks.exists_first waiting
    rw [reachInterfaces, if_neg fresh, List.pairwise_cons]
    obtain ⟨all, ordered⟩ := ih (loaded.visit walks) (by simp)
    refine ⟨fun type reached => ?_, fun other later => ?_, ordered⟩
    · rcases all type reached with known | later
      · rcases List.mem_cons.mp known with same | known
        · have here := (loaded.reached reached).eq_of_name_eq (loaded.reached walks.reaches) same
          exact .inr (here ▸ List.mem_cons_self)
        · exact .inl known
      · exact .inr (List.mem_cons_of_mem _ later)
    · intro farther inSteps
      refine ⟨steps, ?_, walks.atNear first (by simp)⟩
      by_contra less
      have known := walks.nearer farther (by omega) other inSteps
      exact fresh_of_mem_reachInterfaces later (List.mem_cons_of_mem _ known)

theorem Loaded.mem_interfaceClosure (loaded : lib.Loaded start) :
    other ∈ start.interfaceClosure ↔ ReflTransGen Lists start other := by
  refine ⟨reaches_of_mem_interfaceClosure, fun reached => ?_⟩
  simpa [interfaceClosure] using (loaded.walk (Walks.begin start)).1 other reached

theorem Loaded.interfaceClosure_nearest (loaded : lib.Loaded start) :
    start.interfaceClosure.Pairwise (NoFarther start) :=
  (loaded.walk (Walks.begin start)).2

end Library

end WidgetDsl
