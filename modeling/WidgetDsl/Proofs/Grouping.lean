import WidgetDsl.Proofs.BranchOrder

/-!
Groups as they come out for candidates in any order. Which candidate of several with one test stays
depends on which comes first, and on nothing else in the order of the candidates. Those that stay are
told apart by their places among the others, so that sorting leaves them no choice.
-/

namespace WidgetDsl

namespace Candidate

variable {lib : Library} {candidates others : List Candidate} {a b c : Candidate}

def sameEntry (a b : Candidate) : Bool :=
  a.name = b.name && a.sameTest b

/-- The same candidates in another order, in which those that set one attribute and have one test
follow each other as before. -/
structure Reorders (candidates others : List Candidate) : Prop where
  perm : candidates.Perm others
  inTurn : ∀ c ∈ candidates, candidates.filter (·.sameEntry c) = others.filter (·.sameEntry c)

def Before (a b : Candidate) : Prop :=
  a.specificity.le b.specificity = true ∧ a.sameTest b = false

instance : Std.Irrefl Before :=
  ⟨fun c before => absurd before.2 (by simp [sameTest_self c])⟩

instance : Std.Antisymm Before where
  antisymm a b first second := by
    have place := Specificity.le_antisymm first.1 second.1
    simp only [specificity, Specificity.mk.injEq] at place
    have same := sameTest_iff.mpr place.2.2
    simp [first.2] at same

theorem inOrder_before (candidates : List Candidate) :
    (inOrder (eliminateOverrides candidates).1).Pairwise Before :=
  (inOrder_pairwise _).imp₂ (fun _ _ le different => ⟨le, different⟩)
    (distinct_of_perm (List.mergeSort_perm _ _))

/-- The same candidates stay if for each test the same one comes first. -/
theorem inOrder_eliminateOverrides_eq (perm : candidates.Perm others)
    (first : ∀ c ∈ candidates, candidates.find? (·.sameTest c) = others.find? (·.sameTest c)) :
    inOrder (eliminateOverrides candidates).1 = inOrder (eliminateOverrides others).1 := by
  -- both are strictly sorted by `Before`, so only their members can differ
  apply (inOrder_before candidates).eq_of_mem_iff (inOrder_before others)
  intro c
  rw [inOrder, inOrder, List.mem_mergeSort, List.mem_mergeSort, stays_iff, stays_iff]
  refine and_congr ?_ ?_
  · exact forall_congr' fun other => by rw [perm.mem_iff]
  · by_cases member : c ∈ candidates
    · rw [first c member]
    · have absent (all : List Candidate) (out : c ∉ all) : all.find? (·.sameTest c) ≠ some c :=
        fun found => out (List.mem_of_find?_eq_some found)
      simp [absent candidates member, absent others (perm.mem_iff.not.mp member)]

namespace Reorders

variable (reorders : Reorders candidates others)

include reorders

theorem find?_sameTest (member : c ∈ candidates) :
    (candidates.filter (·.name = c.name)).find? (·.sameTest c) =
      (others.filter (·.name = c.name)).find? (·.sameTest c) := by
  have entry (all : List Candidate) : (all.filter (·.name = c.name)).find? (·.sameTest c) =
      (all.filter (·.sameEntry c)).head? := by
    rw [← List.head?_filter, List.filter_filter]
    simp only [sameEntry, Bool.and_comm]
  rw [entry, entry, reorders.inTurn c member]

theorem ofCandidates_eq (name : String) :
    (Group.ofCandidates name (candidates.filter (·.name = name))).candidates =
      (Group.ofCandidates name (others.filter (·.name = name))).candidates := by
  refine inOrder_eliminateOverrides_eq (reorders.perm.filter _) fun c member => ?_
  obtain ⟨inside, named⟩ := List.mem_filter.mp member
  obtain rfl := of_decide_eq_true named
  exact reorders.find?_sameTest inside

theorem eliminated_perm (name : String) :
    (Group.ofCandidates name (candidates.filter (·.name = name))).eliminated.Perm
      (Group.ofCandidates name (others.filter (·.name = name))).eliminated := by
  have all := Group.ofCandidates_perm name (candidates.filter (·.name = name))
  have allToo := Group.ofCandidates_perm name (others.filter (·.name = name))
  rw [← reorders.ofCandidates_eq] at allToo
  exact (List.perm_append_left_iff _).mp
    ((all.trans (reorders.perm.filter _)).trans allToo.symm)

theorem groupNames_eq : Descriptor.sorted (candidates.map (·.name)).eraseDups =
    Descriptor.sorted (others.map (·.name)).eraseDups := by
  apply (Descriptor.sorted_eraseDups_increasing _).eq_of_mem_iff
    (Descriptor.sorted_eraseDups_increasing _)
  intro name
  rw [Descriptor.mem_sorted_eraseDups, Descriptor.mem_sorted_eraseDups,
    (reorders.perm.map _).mem_iff]

end Reorders

theorem inOrder_narrower_first (loaded : ∀ c ∈ candidates, c.Loaded lib) :
    (inOrder candidates).Pairwise fun a b => b.valueType.isSubtypeOf a.valueType = false := by
  refine (inOrder_pairwise candidates).imp_of_mem fun {a b} first second le => ?_
  rw [inOrder, List.mem_mergeSort] at first second
  rw [Bool.eq_false_iff, ne_eq,
    Library.isSubtypeOf_iff (loaded b second).1 (loaded a first).1]
  intro narrower
  have deeper := ResolvedType.depth_lt_of_above narrower
  have place := Specificity.le_iff.mp le
  simp only [specificity] at place
  omega

/-- Candidates of a library fall into the same groups, with the same candidates that stay in the same
order, in whatever order they come, as long as those for one attribute with one test keep theirs. In a
group none that stays stands before one for a narrower type. -/
theorem groups_of_reorders (lib : Library) (candidates others : List Candidate)
    (loaded : ∀ c ∈ candidates, c.Loaded lib) (reorders : Reorders candidates others) :
    List.Forall₂ (fun group again => group.name = again.name ∧
      group.candidates = again.candidates ∧ group.eliminated.Perm again.eliminated)
      (Group.ofAll candidates) (Group.ofAll others) ∧
    ∀ group ∈ Group.ofAll candidates,
      group.candidates.Pairwise fun a b => b.valueType.isSubtypeOf a.valueType = false := by
  constructor
  · rw [Group.ofAll, Group.ofAll, reorders.groupNames_eq, List.forall₂_map_left_iff,
      List.forall₂_map_right_iff, List.forall₂_same]
    intro name _
    exact ⟨rfl, reorders.ofCandidates_eq name, reorders.eliminated_perm name⟩
  · intro group member
    have loadedToo : ∀ c ∈ (eliminateOverrides (candidates.filter (·.name = group.name))).1,
        c.Loaded lib :=
      fun c stays => loaded c (List.mem_of_mem_filter (mem_of_stays stays))
    rw [Group.name_of_mem_ofAll member]
    exact inOrder_narrower_first loadedToo

end Candidate

/-! The attribute of the panel and the button once more, with setters for a panel and for a button. -/

namespace Sample

def panelOnPanel : Candidate :=
  ⟨"onClick", panelType, panelType, setter "setOnClick" panelDecl.name, false, false⟩

def buttonOnPanel : Candidate :=
  ⟨"onClick", buttonType, panelType, setter "setOnClick" buttonDecl.name, false, false⟩

def moreCandidates : List Candidate := panelOnPanel :: buttonOnPanel :: candidates

def reordered : List Candidate :=
  [buttonSetter, buttonOnPanel, panelListener, panelOnPanel, buttonListener]

theorem moreCandidates_loaded : ∀ c ∈ moreCandidates, c.Loaded library := by
  intro c member
  rcases List.mem_cons.mp member with rfl | member
  · exact ⟨panelType_loaded, panelType_loaded⟩
  rcases List.mem_cons.mp member with rfl | member
  · exact ⟨buttonType_loaded, panelType_loaded⟩
  · exact candidates_loaded c member

theorem reordered_reorders : Candidate.Reorders moreCandidates reordered where
  perm := by
    have setterFirst :=
      @List.perm_middle _ buttonSetter [panelOnPanel, buttonOnPanel, panelListener] [buttonListener]
    have panelLater :=
      @List.perm_middle _ panelOnPanel [buttonOnPanel, panelListener] [buttonListener]
    exact setterFirst.trans (panelLater.symm.cons _)
  inTurn := by
    intro c member
    simp only [moreCandidates, candidates, List.mem_cons, List.not_mem_nil, or_false] at member
    rcases member with rfl | rfl | rfl | rfl | rfl <;> rfl

theorem reordered_groups :
    (∀ c ∈ moreCandidates, c.Loaded library) ∧ Candidate.Reorders moreCandidates reordered ∧
    List.Forall₂ (fun group again => group.name = again.name ∧
      group.candidates = again.candidates ∧ group.eliminated.Perm again.eliminated)
      (Group.ofAll moreCandidates) (Group.ofAll reordered) ∧
    ∀ group ∈ Group.ofAll moreCandidates,
      group.candidates.Pairwise fun a b => b.valueType.isSubtypeOf a.valueType = false :=
  ⟨moreCandidates_loaded, reordered_reorders,
    Candidate.groups_of_reorders library moreCandidates reordered moreCandidates_loaded
      reordered_reorders⟩

end Sample

end WidgetDsl
