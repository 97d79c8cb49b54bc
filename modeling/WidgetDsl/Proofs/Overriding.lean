import Mathlib.Data.Fintype.Card
import Mathlib.Data.Set.Finite.Basic
import Mathlib.Order.WellFounded
import WidgetDsl.Attribute.Group
import WidgetDsl.Proofs.SortedNames
import WidgetDsl.Proofs.Supertypes

/-!
What is left of candidates when those that others override are taken out. A candidate stays if none
of the candidates shadows it and no candidate with the same test came before it.
-/

namespace WidgetDsl

def ResolvedType.Within (a b : ResolvedType) : Prop :=
  a = b ∨ a.isSubtypeOf b = true

namespace Candidate

variable {lib : Library} {candidates all kept rest : List Candidate} {a b c stays : Candidate}

def Loaded (lib : Library) (candidate : Candidate) : Prop :=
  lib.Loaded candidate.valueType ∧ lib.Loaded candidate.declaring

def Unshadowed (all : List Candidate) (candidate : Candidate) : Prop :=
  ∀ other ∈ all, other.shadows candidate = false

theorem shadows_iff : a.shadows b = true ↔
    a.valueType.name = b.valueType.name ∧ a.declaring.isSubtypeOf b.declaring = true := by
  simp [shadows]

theorem sameTest_iff : a.sameTest b = true ↔
    a.valueType.name = b.valueType.name ∧ a.declaring.name = b.declaring.name := by
  simp [sameTest]

theorem sameTest_self (c : Candidate) : c.sameTest c = true :=
  sameTest_iff.mpr ⟨rfl, rfl⟩

theorem sameTest_comm (a b : Candidate) : a.sameTest b = b.sameTest a := by
  simp only [sameTest, eq_comm]

theorem any_shadows_eq_false : (all.any (·.shadows c)) = false ↔ Unshadowed all c := by
  simp [Unshadowed, List.any_eq_false]

theorem any_sameTest_eq_false :
    (kept.any (·.sameTest c)) = false ↔ ∀ other ∈ kept, other.sameTest c = false := by
  simp [List.any_eq_false]

theorem splitOverridden_cons (all kept : List Candidate) (candidate : Candidate)
    (rest : List Candidate) :
    ((¬ Unshadowed all candidate ∨ ∃ other ∈ kept, other.sameTest candidate = true) ∧
      splitOverridden all kept (candidate :: rest) =
        ((splitOverridden all kept rest).1, candidate :: (splitOverridden all kept rest).2)) ∨
    ((Unshadowed all candidate ∧ ∀ other ∈ kept, other.sameTest candidate = false) ∧
      splitOverridden all kept (candidate :: rest) =
        (candidate :: (splitOverridden all (kept ++ [candidate]) rest).1,
          (splitOverridden all (kept ++ [candidate]) rest).2)) := by
  by_cases gone : (all.any (·.shadows candidate) || kept.any (·.sameTest candidate)) = true
  · refine .inl ⟨?_, by simp only [splitOverridden, if_pos gone]⟩
    rcases Bool.or_eq_true_iff.mp gone with shadowed | same
    · refine .inl fun unshadowed => ?_
      simp [any_shadows_eq_false.mpr unshadowed] at shadowed
    · exact .inr (List.any_eq_true.mp same)
  · refine .inr ⟨?_, by simp only [splitOverridden, if_neg gone]⟩
    obtain ⟨unshadowed, fresh⟩ := Bool.or_eq_false_iff.mp (Bool.eq_false_iff.mpr gone)
    exact ⟨any_shadows_eq_false.mp unshadowed, any_sameTest_eq_false.mp fresh⟩

theorem splitOverridden_sublists (all kept rest : List Candidate) :
    (splitOverridden all kept rest).1.Sublist rest ∧
      (splitOverridden all kept rest).2.Sublist rest := by
  induction rest generalizing kept with
  | nil => exact ⟨.refl _, .refl _⟩
  | cons candidate rest ih =>
    rcases splitOverridden_cons all kept candidate rest with ⟨-, split⟩ | ⟨-, split⟩
    · rw [split]
      exact ⟨(ih kept).1.cons candidate, (ih kept).2.cons_cons candidate⟩
    · rw [split]
      exact ⟨(ih _).1.cons_cons candidate, (ih _).2.cons candidate⟩

theorem splitOverridden_perm (all kept rest : List Candidate) :
    ((splitOverridden all kept rest).1 ++ (splitOverridden all kept rest).2).Perm rest := by
  induction rest generalizing kept with
  | nil => exact .refl _
  | cons candidate rest ih =>
    rcases splitOverridden_cons all kept candidate rest with ⟨-, split⟩ | ⟨-, split⟩
    · rw [split]
      exact List.perm_middle.trans ((ih kept).cons candidate)
    · rw [split]
      exact (ih _).cons candidate

/-- Who stays is unshadowed and has a test of its own, also among those that stayed before. -/
theorem splitOverridden_stay (all kept rest : List Candidate) :
    (∀ stays ∈ (splitOverridden all kept rest).1, Unshadowed all stays ∧
      ∀ other ∈ kept, other.sameTest stays = false) ∧
    (splitOverridden all kept rest).1.Pairwise fun a b => a.sameTest b = false := by
  induction rest generalizing kept with
  | nil => exact ⟨by simp [splitOverridden], .nil⟩
  | cons candidate rest ih =>
    rcases splitOverridden_cons all kept candidate rest with ⟨-, split⟩ | ⟨here, split⟩
    · rw [split]
      exact ih kept
    · rw [split]
      obtain ⟨each, distinct⟩ := ih (kept ++ [candidate])
      refine ⟨?_, List.pairwise_cons.mpr ⟨?_, distinct⟩⟩
      · intro stays member
        rcases List.mem_cons.mp member with rfl | later
        · exact here
        · obtain ⟨unshadowed, fresh⟩ := each stays later
          exact ⟨unshadowed, fun other before => fresh other (List.mem_append_left _ before)⟩
      · intro stays later
        exact (each stays later).2 candidate (by simp)

/-- An unshadowed candidate stays, or another one with the same test does. -/
theorem splitOverridden_represents (kept : List Candidate) {rest : List Candidate}
    (member : c ∈ rest) (unshadowed : Unshadowed all c) :
    ∃ stays ∈ kept ++ (splitOverridden all kept rest).1, stays.sameTest c = true := by
  induction rest generalizing kept with
  | nil => cases member
  | cons candidate rest ih =>
    rcases splitOverridden_cons all kept candidate rest with ⟨gone, split⟩ | ⟨-, split⟩
    · rw [split]
      rcases List.mem_cons.mp member with rfl | later
      · rcases gone with shadowed | ⟨other, before, same⟩
        · exact absurd unshadowed shadowed
        · exact ⟨other, List.mem_append_left _ before, same⟩
      · exact ih kept later
    · rw [split]
      rcases List.mem_cons.mp member with rfl | later
      · exact ⟨c, by simp, sameTest_iff.mpr ⟨rfl, rfl⟩⟩
      · obtain ⟨stays, inside, same⟩ := ih (kept ++ [candidate]) later
        exact ⟨stays, by simpa using inside, same⟩

theorem Unshadowed.of_sameTest (unshadowed : Unshadowed all stays)
    (same : c.sameTest stays = true) : Unshadowed all c := by
  obtain ⟨values, classes⟩ := sameTest_iff.mp same
  intro other member
  have free := unshadowed other member
  simpa [shadows, ResolvedType.isSubtypeOf, values, classes] using free

theorem find?_of_stays (member : stays ∈ (splitOverridden all kept rest).1) :
    rest.find? (·.sameTest stays) = some stays := by
  induction rest generalizing kept with
  | nil => cases member
  | cons candidate rest ih =>
    obtain ⟨unshadowed, fresh⟩ := (splitOverridden_stay all kept (candidate :: rest)).1 stays member
    rcases splitOverridden_cons all kept candidate rest with ⟨gone, split⟩ | ⟨-, split⟩
    · rw [split] at member
      have other : candidate.sameTest stays = false := by
        rw [Bool.eq_false_iff]
        intro same
        rcases gone with shadowed | ⟨before, inside, sameToo⟩
        · exact shadowed (unshadowed.of_sameTest same)
        · obtain ⟨values, classes⟩ := sameTest_iff.mp same
          obtain ⟨valuesToo, classesToo⟩ := sameTest_iff.mp sameToo
          have different := fresh before inside
          rw [sameTest_iff.mpr ⟨valuesToo.trans values, classesToo.trans classes⟩] at different
          cases different
      rw [List.find?_cons_of_neg (by simp [other])]
      exact ih member
    · rw [split] at member
      rcases List.mem_cons.mp member with rfl | later
      · exact List.find?_cons_of_pos (sameTest_iff.mpr ⟨rfl, rfl⟩)
      · have other := ((splitOverridden_stay all (kept ++ [candidate]) rest).1 stays later).2
          candidate (by simp)
        rw [List.find?_cons_of_neg (by simp [other])]
        exact ih later

theorem splitOverridden_eq_self (kept : List Candidate) {rest : List Candidate}
    (unshadowed : ∀ candidate ∈ rest, Unshadowed all candidate)
    (fresh : ∀ candidate ∈ rest, ∀ other ∈ kept, other.sameTest candidate = false)
    (distinct : rest.Pairwise fun a b => a.sameTest b = false) :
    splitOverridden all kept rest = (rest, []) := by
  induction rest generalizing kept with
  | nil => rfl
  | cons candidate rest ih =>
    obtain ⟨first, distinct⟩ := List.pairwise_cons.mp distinct
    rcases splitOverridden_cons all kept candidate rest with ⟨gone, -⟩ | ⟨-, split⟩
    · rcases gone with shadowed | ⟨other, before, same⟩
      · exact absurd (unshadowed candidate (by simp)) shadowed
      · simp [fresh candidate (by simp) other before] at same
    · have later := ih (kept ++ [candidate])
        (fun other member => unshadowed other (List.mem_cons_of_mem _ member)) (by
        intro other member before inside
        rcases List.mem_append.mp inside with inside | inside
        · exact fresh other (List.mem_cons_of_mem _ member) before inside
        · obtain rfl := List.mem_singleton.mp inside
          exact first other member) distinct
      rw [split, later]

theorem Loaded.shadows_irrefl (loaded : c.Loaded lib) : c.shadows c = false := by
  simp [shadows, Library.isSubtypeOf_irrefl loaded.2]

theorem Loaded.shadows_trans (first : a.Loaded lib) (second : b.Loaded lib) (third : c.Loaded lib)
    (lower : a.shadows b = true) (upper : b.shadows c = true) : a.shadows c = true := by
  rw [shadows_iff] at lower upper ⊢
  refine ⟨lower.1.trans upper.1, ?_⟩
  exact Library.isSubtypeOf_trans first.2 second.2 third.2 lower.2 upper.2

theorem Loaded.sameTest (first : a.Loaded lib) (second : b.Loaded lib)
    (same : a.sameTest b = true) : a.valueType = b.valueType ∧ a.declaring = b.declaring := by
  obtain ⟨values, classes⟩ := sameTest_iff.mp same
  exact ⟨first.1.eq_of_name_eq second.1 values, first.2.eq_of_name_eq second.2 classes⟩

theorem Loaded.within (first : a.Loaded lib) (second : b.Loaded lib)
    (atop : a = b ∨ a.shadows b = true) :
    a.valueType = b.valueType ∧ a.declaring.Within b.declaring := by
  rcases atop with rfl | shadows
  · exact ⟨rfl, .inl rfl⟩
  · obtain ⟨values, below⟩ := shadows_iff.mp shadows
    exact ⟨first.1.eq_of_name_eq second.1 values, .inr below⟩

/-- Over every candidate there is one that none shadows. -/
theorem exists_unshadowed (loaded : ∀ candidate ∈ candidates, candidate.Loaded lib)
    (member : c ∈ candidates) :
    ∃ top ∈ candidates, (top = c ∨ top.shadows c = true) ∧ Unshadowed candidates top := by
  let above (a b : { candidate // candidate ∈ candidates }) : Prop := a.val.shadows b.val = true
  have finite : Finite { candidate // candidate ∈ candidates } :=
    (List.finite_toSet candidates).to_subtype
  have trans : IsTrans _ above := ⟨fun x y z =>
    Loaded.shadows_trans (loaded _ x.property) (loaded _ y.property) (loaded _ z.property)⟩
  have irrefl : Std.Irrefl above := ⟨fun x shadows => by
    simp [above, (loaded _ x.property).shadows_irrefl] at shadows⟩
  have order : WellFounded above := Finite.wellFounded_of_trans_of_irrefl above
  -- a first one among those over the candidate is shadowed by none, as that one would be over it too
  obtain ⟨top, atop, first⟩ := order.has_min { x | x.val = c ∨ x.val.shadows c = true }
    ⟨⟨c, member⟩, .inl rfl⟩
  refine ⟨top.val, top.property, atop, fun other inside => ?_⟩
  by_contra shadows
  have shadows : other.shadows top.val = true := Bool.eq_true_of_not_eq_false shadows
  refine first ⟨other, inside⟩ ?_ shadows
  rcases atop with same | atop
  · exact .inr (same ▸ shadows)
  · exact .inr (Loaded.shadows_trans (loaded _ inside) (loaded _ top.property) (loaded _ member)
      shadows atop)

theorem mem_of_stays (stays : a ∈ (eliminateOverrides candidates).1) : a ∈ candidates :=
  (splitOverridden_sublists candidates [] candidates).1.subset stays

theorem distinct_of_perm (survivors : kept.Perm (eliminateOverrides candidates).1) :
    kept.Pairwise fun a b => a.sameTest b = false := by
  have distinct := (splitOverridden_stay candidates [] candidates).2
  exact (survivors.pairwise_iff fun different => (sameTest_comm _ _).trans different).mpr distinct

theorem unshadowed_of_stays (stays : a ∈ (eliminateOverrides candidates).1) :
    Unshadowed candidates a :=
  ((splitOverridden_stay candidates [] candidates).1 a stays).1

theorem stays_iff : c ∈ (eliminateOverrides candidates).1 ↔
    Unshadowed candidates c ∧ candidates.find? (·.sameTest c) = some c := by
  constructor
  · exact fun stays => ⟨unshadowed_of_stays stays, find?_of_stays stays⟩
  · rintro ⟨unshadowed, first⟩
    obtain ⟨stays, inside, same⟩ :=
      splitOverridden_represents [] (List.mem_of_find?_eq_some first) unshadowed
    rw [List.nil_append] at inside
    obtain ⟨values, classes⟩ := sameTest_iff.mp same
    have firstToo := find?_of_stays inside
    simp only [sameTest, values, classes] at first firstToo
    rw [Option.some.inj (first.symm.trans firstToo)]
    exact inside

theorem exists_stays (loaded : ∀ candidate ∈ candidates, candidate.Loaded lib)
    (member : c ∈ candidates) (unshadowed : Unshadowed candidates c) :
    ∃ stays ∈ (eliminateOverrides candidates).1,
      stays.valueType = c.valueType ∧ stays.declaring = c.declaring := by
  obtain ⟨stays, inside, same⟩ := splitOverridden_represents [] member unshadowed
  rw [List.nil_append] at inside
  exact ⟨stays, inside, (loaded _ (mem_of_stays inside)).sameTest (loaded _ member) same⟩

theorem eliminateOverrides_again :
    eliminateOverrides (eliminateOverrides candidates).1 =
      ((eliminateOverrides candidates).1, []) := by
  refine splitOverridden_eq_self [] ?_ (by simp) (splitOverridden_stay _ _ _).2
  intro stays member other otherMember
  exact unshadowed_of_stays member other (mem_of_stays otherMember)

theorem exists_stays_within (loaded : ∀ candidate ∈ candidates, candidate.Loaded lib)
    (member : c ∈ candidates) :
    ∃ stays ∈ (eliminateOverrides candidates).1,
      stays.valueType = c.valueType ∧ stays.declaring.Within c.declaring := by
  obtain ⟨top, inside, atop, unshadowed⟩ := exists_unshadowed loaded member
  obtain ⟨values, within⟩ := Loaded.within (loaded _ inside) (loaded _ member) atop
  obtain ⟨stays, survives, sameValue, sameClass⟩ := exists_stays loaded inside unshadowed
  refine ⟨stays, survives, sameValue.trans values, ?_⟩
  rw [sameClass]
  exact within

end Candidate

namespace Group

variable {candidates : List Candidate}

theorem name_of_mem_ofAll {group : Group} (member : group ∈ ofAll candidates) :
    group = ofCandidates group.name (candidates.filter (·.name = group.name)) := by
  obtain ⟨name, -, rfl⟩ := List.mem_map.mp member
  rfl

theorem ofAll_names : (ofAll candidates).map (·.name) =
    Descriptor.sorted (candidates.map (·.name)).eraseDups := by
  rw [ofAll, List.map_map]
  exact List.map_id _

theorem ofCandidates_perm (name : String) (candidates : List Candidate) :
    ((ofCandidates name candidates).candidates ++ (ofCandidates name candidates).eliminated).Perm
      candidates := by
  have ordered := List.mergeSort_perm (Candidate.eliminateOverrides candidates).1
    fun a b => a.specificity.le b.specificity
  exact (ordered.append_right _).trans (Candidate.splitOverridden_perm candidates [] candidates)

theorem flatMap_filter_perm (candidates : List Candidate) {names : List String}
    (distinct : names.Nodup) (covered : ∀ candidate ∈ candidates, candidate.name ∈ names) :
    (names.flatMap fun name => candidates.filter (·.name = name)).Perm candidates := by
  induction names generalizing candidates with
  | nil =>
    have none : candidates = [] := List.eq_nil_iff_forall_not_mem.mpr fun candidate member => by
      simpa using covered candidate member
    rw [none]
    exact .refl _
  | cons name rest ih =>
    obtain ⟨fresh, distinct⟩ := List.nodup_cons.mp distinct
    -- the groups after the first one do not see the candidates of the first
    have others : (rest.flatMap fun other => candidates.filter (·.name = other)) =
        rest.flatMap fun other =>
          (candidates.filter fun candidate => !decide (candidate.name = name)).filter
            (·.name = other) := by
      refine List.flatMap_congr fun other member => ?_
      rw [List.filter_filter]
      refine List.filter_congr fun candidate _ => ?_
      by_cases named : candidate.name = other
      · have different : other ≠ name := fun same => fresh (same ▸ member)
        simp [named, different]
      · simp [named]
    rw [List.flatMap_cons, others]
    have later := ih (candidates.filter fun candidate => !decide (candidate.name = name)) distinct (by
      intro candidate member
      obtain ⟨member, other⟩ := List.mem_filter.mp member
      rcases List.mem_cons.mp (covered candidate member) with same | inside
      · simp [same] at other
      · exact inside)
    exact (later.append_left _).trans (List.filter_append_perm _ candidates)

theorem ofAll_perm :
    ((ofAll candidates).flatMap fun group => group.candidates ++ group.eliminated).Perm
      candidates := by
  have increasing := Descriptor.sorted_eraseDups_increasing (candidates.map (·.name))
  have distinct : (Descriptor.sorted (candidates.map (·.name)).eraseDups).Nodup :=
    increasing.imp fun lt => String.ne_of_lt lt
  have covered : ∀ candidate ∈ candidates,
      candidate.name ∈ Descriptor.sorted (candidates.map (·.name)).eraseDups :=
    fun candidate member =>
      Descriptor.mem_sorted_eraseDups.mpr (List.mem_map_of_mem member)
  refine List.Perm.trans ?_ (flatMap_filter_perm candidates distinct covered)
  rw [ofAll, List.flatMap_map]
  exact List.Perm.flatMap_left _ fun name _ => ofCandidates_perm name _

end Group

namespace Candidate

/-- Candidates of a library fall into those that stay and those that go, and among those that stay
each test is the only one of its kind and none is shadowed. Whatever goes is represented at least as
far down by one that stays. In groups by name every candidate has one place. -/
theorem eliminateOverrides_partition (lib : Library) (candidates : List Candidate)
    (loaded : ∀ candidate ∈ candidates, candidate.Loaded lib) :
    let survivors := (eliminateOverrides candidates).1
    let eliminated := (eliminateOverrides candidates).2
    (survivors.Sublist candidates ∧ eliminated.Sublist candidates ∧
      (survivors ++ eliminated).Perm candidates) ∧
    (∀ a ∈ survivors, ∀ b ∈ survivors, a.shadows b = false) ∧
    (survivors.Pairwise fun a b =>
      ¬ (a.valueType.name = b.valueType.name ∧ a.declaring.name = b.declaring.name)) ∧
    (∀ gone ∈ eliminated, ∃ stays ∈ survivors,
      stays.valueType = gone.valueType ∧ stays.declaring.Within gone.declaring) ∧
    eliminateOverrides survivors = (survivors, []) ∧
    ((Group.ofAll candidates).map (·.name)).Pairwise (· < ·) ∧
    ((Group.ofAll candidates).flatMap fun group => group.candidates ++ group.eliminated).Perm
      candidates ∧
    ∀ group ∈ Group.ofAll candidates,
      group.candidates.Perm (eliminateOverrides (candidates.filter (·.name = group.name))).1 ∧
      group.eliminated = (eliminateOverrides (candidates.filter (·.name = group.name))).2 := by
  obtain ⟨staySublist, goSublist⟩ := splitOverridden_sublists candidates [] candidates
  have distinct := (splitOverridden_stay candidates [] candidates).2
  refine ⟨⟨staySublist, goSublist, splitOverridden_perm candidates [] candidates⟩, ?_, ?_, ?_,
    eliminateOverrides_again, ?_, Group.ofAll_perm, ?_⟩
  · intro a stays b staysToo
    exact unshadowed_of_stays staysToo a (mem_of_stays stays)
  · refine distinct.imp fun other same => ?_
    simp [sameTest_iff.mpr same] at other
  · intro gone member
    exact exists_stays_within loaded (goSublist.subset member)
  · rw [Group.ofAll_names]
    exact Descriptor.sorted_eraseDups_increasing _
  · intro group member
    rw [Group.name_of_mem_ofAll member]
    exact ⟨List.mergeSort_perm _ _, rfl⟩

end Candidate

/-! A panel with a listener, and a button on it that sets the same attribute in two ways. -/

namespace Sample

def setter (name parameter : String) : Method :=
  ⟨name, [parameter], [[]], "void", ["public"], [], false, false, false⟩

def event (name : String) (modifiers : List String) : Method :=
  ⟨name, [], [], "void", "public" :: modifiers, [], false, false, false⟩

def listenerDecl : ClassDecl :=
  ⟨"com.example.ClickListener", true, ["public"], none, [], [event "onClick" ["abstract"]]⟩

def panelDecl : ClassDecl :=
  ⟨"com.example.Panel", false, ["public"], some Java.objectName, [],
    [setter "setOnClickListener" listenerDecl.name]⟩

def buttonDecl : ClassDecl :=
  ⟨"com.example.Button", false, ["public"], some panelDecl.name, [],
    [setter "setOnClick" listenerDecl.name, setter "setOnClickListener" listenerDecl.name]⟩

def library : Library :=
  ⟨[⟨"lib.json", [listenerDecl, panelDecl, buttonDecl].map fun decl => (entryName decl.name, decl)⟩]⟩

def typeOver (decl : ClassDecl) (origin : String) (above : ResolvedType) : ResolvedType :=
  let definition := Definition.declared decl origin
  definition.assemble decl.name (definition.dependencies.map fun _ => above)

def objectType : ResolvedType :=
  Definition.assemble Java.objectName []
    (.declared (platformClass Java.objectName none []) platformOrigin)

def listenerType : ResolvedType := typeOver listenerDecl "lib.json" objectType

def panelType : ResolvedType := typeOver panelDecl "lib.json" objectType

def buttonType : ResolvedType := typeOver buttonDecl "lib.json" panelType

theorem typeOver_loaded (decl : ClassDecl) {origin : String} {above : ResolvedType}
    (defined : library.define? decl.name = some (.declared decl origin))
    (loaded : library.Loaded above)
    (parts : ∀ needed ∈ (Definition.declared decl origin).dependencies, needed = above.name) :
    library.Loaded (typeOver decl origin above) := by
  have built : library.Builds decl.name (typeOver decl origin above) :=
    .intro (fun _ => above) defined fun needed member => parts needed member ▸ loaded.builds
  exact ⟨decl.name, Library.builds_iff_resolve.mp built⟩

theorem definitions : library.define? Java.objectName =
      some (.declared (platformClass Java.objectName none []) platformOrigin) ∧
    ∀ decl ∈ [listenerDecl, panelDecl, buttonDecl],
      library.define? decl.name = some (.declared decl "lib.json") := by
  decide +kernel

theorem objectType_loaded : library.Loaded objectType := by
  have built : library.Builds Java.objectName objectType :=
    .intro (fun _ => objectType) definitions.1 nofun
  exact ⟨Java.objectName, Library.builds_iff_resolve.mp built⟩

theorem listenerType_loaded : library.Loaded listenerType :=
  typeOver_loaded listenerDecl (definitions.2 _ (by simp)) objectType_loaded (by decide)

theorem panelType_loaded : library.Loaded panelType :=
  typeOver_loaded panelDecl (definitions.2 _ (by simp)) objectType_loaded (by decide)

theorem buttonType_loaded : library.Loaded buttonType :=
  typeOver_loaded buttonDecl (definitions.2 _ (by simp)) panelType_loaded (by decide)

def panelListener : Candidate :=
  ⟨"onClick", listenerType, panelType, setter "setOnClickListener" listenerDecl.name, true, true⟩

def buttonSetter : Candidate :=
  ⟨"onClick", listenerType, buttonType, setter "setOnClick" listenerDecl.name, false, false⟩

def buttonListener : Candidate :=
  ⟨"onClick", listenerType, buttonType, setter "setOnClickListener" listenerDecl.name, true, true⟩

def candidates : List Candidate := [panelListener, buttonSetter, buttonListener]

theorem candidates_loaded : ∀ candidate ∈ candidates, candidate.Loaded library := by
  intro candidate member
  simp only [candidates, List.mem_cons, List.not_mem_nil, or_false] at member
  rcases member with rfl | rfl | rfl
  · exact ⟨listenerType_loaded, panelType_loaded⟩
  · exact ⟨listenerType_loaded, buttonType_loaded⟩
  · exact ⟨listenerType_loaded, buttonType_loaded⟩

theorem candidates_split :
    Candidate.eliminateOverrides candidates = ([buttonSetter], [panelListener, buttonListener]) := by
  rfl

theorem panelListener_represented :
    (∀ candidate ∈ candidates, candidate.Loaded library) ∧
      panelListener ∈ (Candidate.eliminateOverrides candidates).2 ∧
      ∃ stays ∈ (Candidate.eliminateOverrides candidates).1,
        stays.valueType = panelListener.valueType ∧
          stays.declaring.Within panelListener.declaring := by
  have gone : panelListener ∈ (Candidate.eliminateOverrides candidates).2 := by
    simp [candidates_split]
  have partition := Candidate.eliminateOverrides_partition library candidates candidates_loaded
  exact ⟨candidates_loaded, gone, partition.2.2.2.1 panelListener gone⟩

end Sample

end WidgetDsl
