import WidgetDsl.Proofs.Retelling
import WidgetDsl.Proofs.SmallScans

/-!
Which methods of a class make candidates, told without the order in which they are tested. Every method
that qualifies makes one candidate. The candidates are sorted by signature, and under one signature they
are in the order in which their methods are declared.
-/

namespace WidgetDsl

open Relation

namespace Candidate

open ResolvedType

variable {lib : Library} {root declaring valueType above type : ResolvedType}
  {oracle : NullabilityOracle} {m : Method} {derived : AttributeName} {c : Candidate}
  {candidates : List Candidate} {counts : Method → Bool}

/-- What a method of a class has to be to make a candidate. A callback is an interface that has a method
of the kind that counts, in itself or in what is reached through interface lists. -/
structure Qualifies (counts : Method → Bool) (lib : Library) (root declaring : ResolvedType)
    (m : Method) (valueType : ResolvedType) (derived : AttributeName) : Prop where
  isPublic : m.isPublic = true
  notSynthetic : m.synthetic = false
  notBridge : m.bridge = false
  notFlagged : m.deprecated = false
  notAnnotated : "java.lang.Deprecated" ∉ m.annotations
  takes : ∃ parameter, m.parameters = [parameter] ∧ lib.resolve parameter = .ok valueType
  valuePublic : valueType.isPublic = true
  named : AttributeName.ofMethod? m.name 1 = some derived
  callback : derived.isListener = true → valueType.kind = .interfaceType ∧
    ∃ other, ReflTransGen Lists valueType other ∧ ∃ event ∈ other.methods, counts event = true
  fresh : declaring ≠ root → ∀ before above after, declaring.superclasses = before ++ above :: after →
    root ∉ before → ∀ other ∈ above.methods, other.isPublic = true → other.signature ≠ m.signature

def Makes (counts : Method → Bool) (lib : Library) (root declaring : ResolvedType) (m : Method) : Prop :=
  ∃ valueType derived, Qualifies counts lib root declaring m valueType derived

open scoped Classical in
structure Classified (counts : Method → Bool) (lib : Library) (root : ResolvedType)
    (oracle : NullabilityOracle) (declaring : ResolvedType) (candidates : List Candidate) : Prop where
  ordered : candidates.Pairwise fun a b => a.method.signature.le b.method.signature = true
  exact : ∀ signature, (candidates.map (·.method)).filter (·.signature = signature) =
    (declaring.methods.filter (Makes counts lib root declaring ·)).filter (·.signature = signature)
  told : ∀ c ∈ candidates, ∃ derived, Qualifies counts lib root declaring c.method c.valueType derived ∧
    c.declaring = declaring ∧ c.name = derived.name ∧ c.isListener = derived.isListener ∧
    (c.isNullable = true ↔ c.isListener = true ∨
      c.valueType.isPrimitive = false ∧ oracle.ofParameter c.method 0 = .nullable)

theorem mem_upTo_iff {name : String} {types : List ResolvedType} : above ∈ upTo name types ↔
    ∃ before after, types = before ++ above :: after ∧ ∀ nearer ∈ before, nearer.name ≠ name := by
  induction types with
  | nil => simp [upTo]
  | cons first rest ih =>
    rw [upTo]
    constructor
    · intro member
      split at member
      · obtain rfl := List.mem_singleton.mp member
        exact ⟨[], rest, rfl, List.forall_mem_nil _⟩
      · rename_i other
        rcases List.mem_cons.mp member with rfl | later
        · exact ⟨[], rest, rfl, List.forall_mem_nil _⟩
        · obtain ⟨before, after, rfl, others⟩ := ih.mp later
          exact ⟨first :: before, after, rfl, List.forall_mem_cons.mpr ⟨other, others⟩⟩
    · rintro ⟨before, after, split, others⟩
      cases before with
      | nil =>
        obtain ⟨rfl, rfl⟩ := List.cons.inj split
        split <;> simp
      | cons nearest before =>
        obtain ⟨rfl, rfl⟩ := List.cons.inj split
        obtain ⟨other, others⟩ := List.forall_mem_cons.mp others
        rw [if_neg other]
        exact List.mem_cons_of_mem _ (ih.mpr ⟨before, after, rfl, others⟩)

/-- A method adds something unless a class on the way up, the root at the latest, declares its signature.
In a library the root is told by its name. -/
theorem isRedundant_eq_false_iff (loaded : lib.Loaded declaring) (rootLoaded : lib.Loaded root) :
    isRedundant root declaring m = false ↔ (declaring ≠ root → ∀ before above after,
      declaring.superclasses = before ++ above :: after → root ∉ before →
        ∀ other ∈ above.methods, other.isPublic = true → other.signature ≠ m.signature) := by
  have isRoot {type : ResolvedType} (typeLoaded : lib.Loaded type) :
      type.name = root.name ↔ type = root :=
    ⟨fun same => typeLoaded.eq_of_name_eq rootLoaded same, congrArg ResolvedType.name⟩
  have nearerThan {before after : List ResolvedType} {above : ResolvedType}
      (chain : declaring.superclasses = before ++ above :: after) :
      (∀ nearer ∈ before, nearer.name ≠ root.name) ↔ root ∉ before := by
    have each (nearer : ResolvedType) (member : nearer ∈ before) : nearer.name = root.name ↔
        nearer = root :=
      isRoot (loaded.above (above_of_mem_superclasses (by simp [chain, member])).to_reflTransGen)
    constructor
    · exact fun others member => others root member rfl
    · exact fun rootless nearer member same => rootless ((each nearer member).mp same ▸ member)
  have silent (above : ResolvedType) : above.declares m.signature = false ↔
      ∀ other ∈ above.methods, other.isPublic = true → other.signature ≠ m.signature := by
    simp [declares]
  simp only [isRedundant, ne_eq, isRoot loaded, Bool.and_eq_false_imp, decide_eq_true_eq,
    List.any_eq_false, Bool.not_eq_true, mem_upTo_iff, silent]
  refine forall_congr' fun _ => ⟨fun all before above after chain rootless =>
    all above ⟨before, after, chain, (nearerThan chain).mpr rootless⟩, ?_⟩
  rintro all above ⟨before, after, chain, others⟩
  exact all before above after chain ((nearerThan chain).mp others)

theorem isCallback_iff (loaded : lib.Loaded type) : isCallback type = true ↔
    type.kind = .interfaceType ∧ ∃ other, ReflTransGen Lists type other ∧
      ∃ event ∈ other.methods, event.isOpen = true := by
  simp only [isCallback, isInterface, Bool.and_eq_true, decide_eq_true_eq, Bool.not_eq_true',
    List.isEmpty_eq_false_iff_exists_mem, ← loaded.mem_interfaceClosure]
  refine and_congr_right fun _ => ⟨?_, ?_⟩
  · rintro ⟨member, listed⟩
    obtain ⟨met, declared, isOpen⟩ := mem_abstractMethods listed
    exact ⟨member.declaring, met, member.method, declared, isOpen⟩
  · rintro ⟨other, met, event, declared, isOpen⟩
    obtain ⟨member, listed, -⟩ := exists_abstractMethods met declared isOpen
    exact ⟨member, listed⟩

theorem qualifies_iff (loaded : lib.Loaded declaring) (rootLoaded : lib.Loaded root) :
    Qualifies Method.isOpen lib root declaring m valueType derived ↔
      Admits lib m valueType derived ∧ isRedundant root declaring m = false := by
  rw [isRedundant_eq_false_iff loaded rootLoaded]
  have current : m.isDeprecated = false ↔
      m.deprecated = false ∧ "java.lang.Deprecated" ∉ m.annotations := by
    simp [Method.isDeprecated]
  constructor
  · intro qualifies
    obtain ⟨parameter, single, resolved⟩ := qualifies.takes
    exact ⟨{
      isPublic := qualifies.isPublic
      notSynthetic := qualifies.notSynthetic
      notBridge := qualifies.notBridge
      notDeprecated := current.mpr ⟨qualifies.notFlagged, qualifies.notAnnotated⟩
      resolves := ⟨parameter, single, resolved⟩
      valuePublic := qualifies.valuePublic
      named := by simpa [single] using qualifies.named
      callback := fun shaped => (isCallback_iff ⟨_, resolved⟩).mpr (qualifies.callback shaped) },
      qualifies.fresh⟩
  · rintro ⟨admits, fresh⟩
    obtain ⟨parameter, single, resolved⟩ := admits.resolves
    obtain ⟨notFlagged, notAnnotated⟩ := current.mp admits.notDeprecated
    exact {
      isPublic := admits.isPublic
      notSynthetic := admits.notSynthetic
      notBridge := admits.notBridge
      notFlagged, notAnnotated
      takes := ⟨parameter, single, resolved⟩
      valuePublic := admits.valuePublic
      named := by simpa [single] using admits.named
      callback := fun shaped => (isCallback_iff ⟨_, resolved⟩).mp (admits.callback shaped)
      fresh }

theorem made?_eq_some_iff_qualifies (loaded : lib.Loaded declaring) (rootLoaded : lib.Loaded root) :
    made? lib root oracle declaring m = some c ↔ ∃ valueType derived,
      Qualifies Method.isOpen lib root declaring m valueType derived ∧
        c = ofAdmitted oracle declaring m valueType derived := by
  simp only [made?_eq_some_iff, ofMethod?_eq_some_iff, qualifies_iff loaded rootLoaded, and_assoc]

theorem map_method_filterMap (lib : Library) (root : ResolvedType) (oracle : NullabilityOracle)
    (declaring : ResolvedType) :
    ((Method.inOrder declaring.methods).filterMap (made? lib root oracle declaring)).map (·.method) =
      Method.inOrder (declaring.methods.filter fun m => (made? lib root oracle declaring m).isSome) := by
  have each (m : Method) : (made? lib root oracle declaring m).map (·.method) =
      Option.guard (fun m => (made? lib root oracle declaring m).isSome) m := by
    cases made : made? lib root oracle declaring m with
    | none => simp [Option.guard, made]
    | some c =>
      simp [Option.guard, made, (origin_of_made? made).2]
  rw [List.map_filterMap, funext each, List.filterMap_eq_filter, Method.filter_inOrder]

open scoped Classical in
theorem map_method_ofClass (loaded : lib.Loaded declaring) (rootLoaded : lib.Loaded root)
    (classified : ofClass lib root oracle declaring = .ok candidates) :
    candidates.map (·.method) =
      Method.inOrder (declaring.methods.filter (Makes Method.isOpen lib root declaring ·)) := by
  have makes (m : Method) : (made? lib root oracle declaring m).isSome =
      decide (Makes Method.isOpen lib root declaring m) := by
    rw [Bool.eq_iff_iff, Option.isSome_iff_exists, decide_eq_true_eq]
    simp only [made?_eq_some_iff_qualifies loaded rootLoaded]
    constructor
    · rintro ⟨c, valueType, derived, qualifies, -⟩
      exact ⟨valueType, derived, qualifies⟩
    · rintro ⟨valueType, derived, qualifies⟩
      exact ⟨_, valueType, derived, qualifies, rfl⟩
  rw [ofClass_eq classified, map_method_filterMap, funext makes]

theorem classified_of_ofClass (loaded : lib.Loaded declaring) (rootLoaded : lib.Loaded root)
    (classified : ofClass lib root oracle declaring = .ok candidates) :
    Classified Method.isOpen lib root oracle declaring candidates where
  ordered := by
    classical
    have sorted := Method.pairwise_inOrder
      (declaring.methods.filter (Makes Method.isOpen lib root declaring ·))
    rw [← map_method_ofClass loaded rootLoaded classified] at sorted
    exact List.pairwise_map.mp sorted
  exact signature := by
    rw [map_method_ofClass loaded rootLoaded classified, Method.filter_signature_inOrder]
  told c member := by
    obtain ⟨m, -, makes⟩ := (mem_ofClass_iff classified).mp member
    obtain ⟨valueType, derived, qualifies, rfl⟩ :=
      (made?_eq_some_iff_qualifies loaded rootLoaded).mp (made?_eq_some_iff.mpr makes)
    exact ⟨derived, qualifies, rfl, rfl, rfl, by simp [ofAdmitted]⟩

/-- A class of a catalog can be told apart below any root. It makes one candidate for each method that
qualifies, where a method counts for a callback if it is left to be implemented. -/
theorem classes_classified (scan : Scan) (rootName : String) (catalog : Catalog)
    (listed : Catalog.ofScan scan rootName = .ok catalog) (declaring : ResolvedType)
    (member : declaring ∈ catalog.classes) (root : ResolvedType)
    (rootLoaded : scan.library.Loaded root) (oracle : NullabilityOracle) :
    ∃ candidates, ofClass scan.library root oracle declaring = .ok candidates ∧
      Classified Method.isOpen scan.library root oracle declaring candidates := by
  obtain ⟨name, -, examined⟩ := (Catalog.mem_classes listed).mp member
  obtain ⟨resolved, -, linked⟩ := Catalog.examine_eq_some_iff.mp examined
  obtain ⟨candidates, classified⟩ := exists_ofClass root oracle linked
  exact ⟨candidates, classified, classified_of_ofClass ⟨name, resolved⟩ rootLoaded classified⟩

end Candidate

/-! A clock with listeners for clicks, which have to be implemented, and for ticks, which do not as they
are static. -/

namespace Clock

open Sample (setter event)

def clickDecl : ClassDecl :=
  ⟨"com.example.ClickListener", true, ["public"], none, [], [event "onClick" ["abstract"]]⟩

def tickDecl : ClassDecl :=
  ⟨"com.example.TickListener", true, ["public"], none, [], [event "onTick" ["static", "abstract"]]⟩

def clockDecl : ClassDecl :=
  ⟨"com.example.Clock", false, ["public"], some Java.objectName, [],
    [setter "setText" "java.lang.String", setter "setOnTickListener" tickDecl.name,
      setter "setOnClickListener" clickDecl.name]⟩

def scan : Scan :=
  .ofArchives [Gallery.archive "lib.json" [clickDecl, tickDecl, clockDecl]] []

abbrev clockType : ResolvedType := scan.library.typeOf clockDecl.name

abbrev tickType : ResolvedType := scan.library.typeOf tickDecl.name

def generator : Generator :=
  ⟨.ofNames clockDecl.name "com.example.dsl" "DSL", .empty, some .silent⟩

def names : List String :=
  [clickDecl.name, tickDecl.name, clockDecl.name]

theorem spans : scan.Spans generator.config.root names where
  listed := Scan.listed_ofArchives (by decide +kernel)
  rootListed := by decide +kernel
  rootIsClass := by decide +kernel
  near := by decide +kernel
  parameters := by decide +kernel

theorem clock_listed : clockDecl.name ∈ names := by
  simp [names]

theorem exists_catalog : ∃ catalog, Catalog.ofScan scan clockDecl.name = .ok catalog ∧
    clockType ∈ catalog.classes ∧ catalog.root = clockType := by
  have examined {name : String} (listed : name ∈ names) :
      Catalog.examine scan.library clockType name =
        .ok (if Catalog.isEligible (scan.library.typeOf name) clockType then
          some (scan.library.typeOf name) else none) :=
    Catalog.examine_of_linked (spans.resolve listed) (spans.link listed)
  obtain ⟨catalog, made⟩ := Catalog.exists_ofScan (spans.resolve clock_listed) spans.rootIsClass
    fun name counts again => by simp [examined ((spans.listed name).mp counts)]
  have root : catalog.root = clockType :=
    Except.ok.inj ((Catalog.resolve_root made).symm.trans (spans.resolve clock_listed))
  have eligible : Catalog.isEligible clockType clockType = true := by decide +kernel
  refine ⟨catalog, made, (Catalog.mem_classes made).mpr
    ⟨clockDecl.name, (spans.listed _).mpr clock_listed, ?_⟩, root⟩
  rw [root, examined clock_listed]
  exact congrArg Except.ok (if_pos eligible)

theorem clock_inOrder :
    Method.inOrder clockType.methods = clockType.methods.reverse := by
  rw [Method.inOrder_of_perm (by decide +kernel) (List.reverse_perm _).symm]
  exact List.mergeSort_of_pairwise (by decide +kernel)

def profiles : List (String × Bool × Bool) :=
  [("onClick", true, true), ("text", false, false)]

theorem clock_profiles {candidates : List Candidate}
    (classified : Candidate.ofClass scan.library clockType .silent clockType =
      .ok candidates) :
    candidates.map (fun c => (c.name, c.isListener, c.isNullable)) = profiles := by
  have inside : clockType ∈ generator.classesWithin scan names := by
    refine List.mem_filter.mpr ⟨List.mem_map_of_mem clock_listed, ?_⟩
    decide +kernel
  have made : candidates = (Method.inOrder clockType.methods).filterMap
      (generator.madeWithin scan clockType) := by
    rw [Candidate.ofClass_eq classified]
    exact List.filterMap_congr fun m declared =>
      spans.made?_eq inside (List.mem_mergeSort.mp declared)
  rw [made, clock_inOrder]
  decide +kernel

theorem clock_classified : ∃ catalog candidates, Catalog.ofScan scan clockDecl.name = .ok catalog ∧
    clockType ∈ catalog.classes ∧ scan.library.Loaded catalog.root ∧
    Candidate.ofClass scan.library catalog.root .silent clockType = .ok candidates ∧
    Candidate.Classified Method.isOpen scan.library catalog.root .silent clockType
      candidates ∧
    candidates.map (fun c => (c.name, c.isListener, c.isNullable)) = profiles := by
  obtain ⟨catalog, listed, member, root⟩ := exists_catalog
  have loaded : scan.library.Loaded catalog.root := ⟨_, Catalog.resolve_root listed⟩
  obtain ⟨candidates, classified, told⟩ := Candidate.classes_classified scan clockDecl.name catalog
    listed clockType member catalog.root loaded .silent
  exact ⟨catalog, candidates, listed, member, loaded, classified, told,
    clock_profiles (root ▸ classified)⟩

/-- The method that takes a listener for ticks would qualify if static methods counted, but it makes no
candidate. -/
theorem ticks_not_classified : ∃ catalog, Catalog.ofScan scan clockDecl.name = .ok catalog ∧
    clockType ∈ catalog.classes ∧ scan.library.Loaded catalog.root ∧
    ¬ ∃ candidates,
      Candidate.ofClass scan.library catalog.root .silent clockType = .ok candidates ∧
      Candidate.Classified Method.isAbstract scan.library catalog.root .silent clockType
        candidates := by
  obtain ⟨catalog, listed, member, root⟩ := exists_catalog
  refine ⟨catalog, listed, member, ⟨_, Catalog.resolve_root listed⟩, ?_⟩
  rintro ⟨candidates, classified, told⟩
  let tick : Method := setter "setOnTickListener" tickDecl.name
  have makes : Candidate.Makes Method.isAbstract scan.library catalog.root clockType tick :=
    ⟨tickType, ⟨"onTick", true⟩, {
      isPublic := rfl
      notSynthetic := rfl
      notBridge := rfl
      notFlagged := rfl
      notAnnotated := nofun
      takes := ⟨tickDecl.name, rfl, spans.resolve (by simp [names])⟩
      valuePublic := by decide +kernel
      named := by decide +kernel
      callback := fun _ => ⟨by decide +kernel, tickType, .refl, by decide +kernel⟩
      fresh := fun below => absurd root.symm below }⟩
  have declared : tick ∈ clockType.methods := by decide +kernel
  have expected : tick ∈ (candidates.map (·.method)).filter (·.signature = tick.signature) := by
    rw [told.exact]
    simpa [makes] using declared
  obtain ⟨c, inside, same⟩ := List.mem_map.mp (List.mem_filter.mp expected).1
  obtain ⟨derived, qualifies, -, named, -⟩ := told.told c inside
  have derives : derived.name = "onTick" := by
    have ticks : AttributeName.ofMethod? tick.name 1 = some ⟨"onTick", true⟩ := by decide +kernel
    rw [← same, qualifies.named] at ticks
    rw [Option.some.inj ticks]
  have absent : ∀ profile ∈ profiles, profile.1 ≠ "onTick" := by decide
  rw [← clock_profiles (root ▸ classified)] at absent
  exact absent _ (List.mem_map_of_mem inside) (named.trans derives)

end Clock

end WidgetDsl
