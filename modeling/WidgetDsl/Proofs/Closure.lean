import WidgetDsl.Proofs.Loading

/-!
Which names have a type, and what is wrong with the others: a name resolves if all that it leads to
is defined and nothing of it leads back to itself, and else the failure is the one at the end of the
path of names that fail first.
-/

namespace WidgetDsl

namespace Library

open Relation

variable {lib : Library}

def firstFailing? (lib : Library) (name : String) : Option String :=
  (lib.define? name).bind (·.dependencies.find? fun needed => !(lib.resolve needed).isOk)

def FailsAt (lib : Library) (a b : String) : Prop :=
  lib.firstFailing? a = some b

/-- Everything that a name leads to, itself included, is defined. -/
def Closed (lib : Library) (name : String) : Prop :=
  ∀ other, ReflTransGen lib.Needs name other → (lib.define? other).isSome

/-- Nothing that a name leads to, itself included, leads back to itself. -/
def Acyclic (lib : Library) (name : String) : Prop :=
  ∀ other, ReflTransGen lib.Needs name other → ¬ TransGen lib.Needs other other

theorem failsAt_eq_firstLacking : lib.FailsAt = lib.FirstLacking := by
  classical
  have same : (fun needed => !(lib.resolve needed).isOk) =
      fun needed => decide (¬ lib.Buildable needed) := by
    funext needed
    simp [buildable_iff_isOk]
  funext a b
  rw [FirstLacking.iff_find?, FailsAt, firstFailing?, same]

theorem Buildable.closed {name : String} (buildable : lib.Buildable name) : lib.Closed name := by
  intro other reaches
  obtain ⟨type, built⟩ := buildable.reaches reaches
  exact Option.isSome_iff_exists.mpr built.defined

theorem Buildable.reaches_acyclic {name : String} (buildable : lib.Buildable name) :
    lib.Acyclic name :=
  fun _ reaches => (buildable.reaches reaches).acyclic

/-- The path of a name without a type ends at an undefined name or runs into a cycle. -/
theorem failing_path {name : String} (fails : ¬ lib.Buildable name) :
    (∃ last, ReflTransGen lib.FirstLacking name last ∧ lib.define? last = none) ∨
      ∃ again, ReflTransGen lib.FirstLacking name again ∧ TransGen lib.FirstLacking again again := by
  have answers := resolve_answers lib name
  match lib.resolve name, answers with
  | .ok type, built => exact absurd ⟨type, built⟩ fails
  | .error (.unresolved _ _), ⟨_, lacks, _⟩ => exact .inl lacks.path
  | .error (.cyclic again), cycle =>
    exact .inr ⟨again, cycle.follow.1, ClosesCycle.back cycle⟩

theorem buildable_iff_closed_acyclic {name : String} :
    lib.Buildable name ↔ lib.Closed name ∧ lib.Acyclic name := by
  constructor
  · exact fun buildable => ⟨buildable.closed, buildable.reaches_acyclic⟩
  · rintro ⟨closed, acyclic⟩
    by_contra fails
    rcases failing_path fails with ⟨last, path, absent⟩ | ⟨again, path, back⟩
    · have defined := closed last (FirstLacking.reaches path)
      simp [absent] at defined
    · exact acyclic again (FirstLacking.reaches path) (FirstLacking.leads back)

theorem resolve_of_undefined {name last : String} (path : ReflTransGen lib.FirstLacking name last)
    (absent : lib.define? last = none) :
    ∃ missing, lib.resolve name = .error (.unresolved name missing) ∧
      (last ≠ "" → missing = last) := by
  obtain ⟨noted, lacks, named⟩ := Lacks.of_path path absent
  have answers : lib.Answers [] name (.error (.ofMissing name noted)) := ⟨noted, lacks, rfl⟩
  refine ⟨if noted = "" then name else noted, (resolve_answers lib name).unique answers, ?_⟩
  intro nonempty
  rw [named nonempty, if_neg nonempty]

theorem resolve_of_cycle {name again : String} (path : ReflTransGen lib.FirstLacking name again)
    (back : TransGen lib.FirstLacking again again) :
    ∃ other, lib.resolve name = .error (.cyclic other) := by
  have answers := resolve_answers lib name
  match result : lib.resolve name, answers with
  | .ok type, built =>
    have acyclic := Buildable.reaches_acyclic ⟨type, built⟩ again (FirstLacking.reaches path)
    exact absurd (FirstLacking.leads back) acyclic
  | .error (.unresolved _ _), ⟨_, lacks, _⟩ =>
    exact absurd back (not_transGen_of_acc (lacks.acc_of_path path))
  | .error (.cyclic other), _ => exact ⟨other, rfl⟩

end Library

namespace Loader

open Relation

theorem resolve_performAll (lib : Library) (calls : List Call) (name : String) :
    (((ofLibrary lib).performAll calls).2.resolve name).1 = lib.resolve name :=
  (resolve_idle (performAll_idle (ofLibrary_idle lib) calls).2 name).1

/-- After any calls a loader resolves a name if the name is closed and acyclic. Else the path of names
that fail first decides: at its end there is an undefined name, which is reported unless it is
empty, or it runs into a cycle. -/
theorem resolve_iff_closed_acyclic (lib : Library) (calls : List Call) (name : String) :
    let answer := (((ofLibrary lib).performAll calls).2.resolve name).1
    ((∃ type, answer = .ok type) ↔ lib.Closed name ∧ lib.Acyclic name) ∧
    ((∀ type, answer ≠ .ok type) →
      (∃ last, ReflTransGen lib.FailsAt name last ∧ lib.define? last = none) ∨
        ∃ again, ReflTransGen lib.FailsAt name again ∧ TransGen lib.FailsAt again again) ∧
    (∀ last, ReflTransGen lib.FailsAt name last → lib.define? last = none →
      ∃ missing, answer = .error (.unresolved name missing) ∧ (last ≠ "" → missing = last)) ∧
    ∀ again, ReflTransGen lib.FailsAt name again → TransGen lib.FailsAt again again →
      ∃ other, answer = .error (.cyclic other) := by
  simp only [resolve_performAll, Library.failsAt_eq_firstLacking]
  refine ⟨?_, ?_, ?_, ?_⟩
  · rw [← Library.buildable_iff_closed_acyclic]
    simp only [Library.Buildable, Library.builds_iff_resolve]
  · intro fails
    refine Library.failing_path ?_
    rintro ⟨type, built⟩
    exact fails type (Library.builds_iff_resolve.mp built)
  · intro last path absent
    exact Library.resolve_of_undefined path absent
  · intro again path back
    exact Library.resolve_of_cycle path back

end Loader

end WidgetDsl
