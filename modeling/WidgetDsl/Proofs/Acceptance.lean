import WidgetDsl.Proofs.Overriding

/-!
Which targets and values some candidate accepts, before and after overridden candidates are taken
out.
-/

namespace WidgetDsl

namespace Candidate

variable {lib : Library} {candidates : List Candidate} {a b : Candidate}
  {target value : ResolvedType}

def Accepts (candidate : Candidate) (target value : ResolvedType) : Prop :=
  target.Within candidate.declaring ∧ value.Within candidate.valueType

theorem Accepts.of_same (accepts : b.Accepts target value) (values : a.valueType = b.valueType)
    (classes : a.declaring = b.declaring) : a.Accepts target value := by
  rw [Accepts, values, classes]
  exact accepts

/-- A target and a value are accepted after the elimination exactly if an unshadowed candidate
accepted them. In particular they are if a candidate accepted them and so did, as far as the target
goes, every candidate that shadows it. -/
theorem accepted_iff_unshadowed (lib : Library) (candidates : List Candidate)
    (loaded : ∀ candidate ∈ candidates, candidate.Loaded lib) (target value : ResolvedType) :
    ((∃ stays ∈ (eliminateOverrides candidates).1, stays.Accepts target value) ↔
      ∃ candidate ∈ candidates, candidate.Accepts target value ∧
        ∀ other ∈ candidates, other.shadows candidate = false) ∧
    ∀ candidate ∈ candidates, candidate.Accepts target value →
      (∀ other ∈ candidates, other.shadows candidate = true → target.Within other.declaring) →
      ∃ stays ∈ (eliminateOverrides candidates).1, stays.Accepts target value := by
  have kept : ∀ candidate ∈ candidates, candidate.Accepts target value →
      Unshadowed candidates candidate →
      ∃ stays ∈ (eliminateOverrides candidates).1, stays.Accepts target value := by
    intro candidate member accepts unshadowed
    obtain ⟨stays, inside, values, classes⟩ := exists_stays loaded member unshadowed
    exact ⟨stays, inside, accepts.of_same values classes⟩
  refine ⟨⟨?_, ?_⟩, ?_⟩
  · rintro ⟨stays, inside, accepts⟩
    exact ⟨stays, mem_of_stays inside, accepts, unshadowed_of_stays inside⟩
  · rintro ⟨candidate, member, accepts, unshadowed⟩
    exact kept candidate member accepts unshadowed
  · intro candidate member accepts reaches
    obtain ⟨top, inside, atop, unshadowed⟩ := exists_unshadowed loaded member
    have values := (Loaded.within (loaded _ inside) (loaded _ member) atop).1
    refine kept top inside ⟨?_, values ▸ accepts.2⟩ unshadowed
    rcases atop with rfl | shadows
    · exact accepts.1
    · exact reaches top inside shadows

end Candidate

namespace Sample

theorem button_stays_accepted :
    (∀ candidate ∈ candidates, candidate.Loaded library) ∧
      panelListener.Accepts buttonType listenerType ∧
      ∃ stays ∈ (Candidate.eliminateOverrides candidates).1,
        stays.Accepts buttonType listenerType := by
  have accepts : panelListener.Accepts buttonType listenerType :=
    ⟨.inr (by decide +kernel), .inl rfl⟩
  have reaches : ∀ other ∈ candidates, other.shadows panelListener = true →
      buttonType.Within other.declaring := by
    intro other member _
    simp only [candidates, List.mem_cons, List.not_mem_nil, or_false] at member
    rcases member with rfl | rfl | rfl
    · exact accepts.1
    · exact .inl rfl
    · exact .inl rfl
  exact ⟨candidates_loaded, accepts,
    (Candidate.accepted_iff_unshadowed library candidates candidates_loaded buttonType
      listenerType).2 panelListener (by simp [candidates]) accepts reaches⟩

/-- A panel takes its listener before the elimination and none of the candidates after it: the
setter of the button, which is not above the panel, has taken the place of the panel's listener. -/
theorem panel_loses_listener :
    (∀ candidate ∈ candidates, candidate.Loaded library ∧ candidate.name = "onClick") ∧
      library.Loaded panelType ∧ library.Loaded listenerType ∧
      (∃ candidate ∈ candidates, candidate.Accepts panelType listenerType) ∧
      ¬ ∃ stays ∈ (Candidate.eliminateOverrides candidates).1,
        stays.Accepts panelType listenerType := by
  have named : ∀ candidate ∈ candidates, candidate.name = "onClick" := by
    simp [candidates, panelListener, buttonSetter, buttonListener]
  refine ⟨fun candidate member => ⟨candidates_loaded candidate member, named candidate member⟩,
    panelType_loaded, listenerType_loaded, ?_, ?_⟩
  · exact ⟨panelListener, by simp [candidates], .inl rfl, .inl rfl⟩
  · rintro ⟨stays, inside, target, -⟩
    rw [candidates_split, List.mem_singleton] at inside
    subst inside
    rcases target with same | below
    · have names : panelType.name = buttonType.name := congrArg ResolvedType.name same
      revert names
      decide +kernel
    · revert below
      decide +kernel

end Sample

end WidgetDsl
