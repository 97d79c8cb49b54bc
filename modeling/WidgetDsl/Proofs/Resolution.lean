import Mathlib.Logic.Relation
import WidgetDsl.Library.Loader

/-!
What resolving a name comes to, as derivations over the definitions of a library: nothing that was
looked up before plays a part. A name has a type, lacks another name, or closes a cycle.
-/

namespace WidgetDsl

namespace Library

open Relation

variable {lib : Library}

def Needs (lib : Library) (a b : String) : Prop :=
  ∃ definition, lib.define? a = some definition ∧ b ∈ definition.dependencies

/-- The type of a name, given the types of all that it needs. -/
inductive Builds (lib : Library) : String → ResolvedType → Prop where
  | intro {name : String} {definition : Definition} (types : String → ResolvedType)
      (defined : lib.define? name = some definition)
      (parts : ∀ needed ∈ definition.dependencies, Builds lib needed (types needed)) :
      Builds lib name (definition.assemble name (definition.dependencies.map types))

def Buildable (lib : Library) (name : String) : Prop :=
  ∃ type, lib.Builds name type

def FirstLacking (lib : Library) (a b : String) : Prop :=
  ∃ definition before after, lib.define? a = some definition ∧
    definition.dependencies = before ++ b :: after ∧
    (∀ other ∈ before, lib.Buildable other) ∧ ¬ lib.Buildable b

/-- The name whose absence is noted for a name without a type. A noted empty name is passed on as
the name that it was noted for. -/
inductive Lacks (lib : Library) : String → String → Prop where
  | undefined {name : String} (absent : lib.define? name = none) : Lacks lib name name
  | through {name needed missing : String} (first : lib.FirstLacking name needed)
      (rest : Lacks lib needed missing) :
      Lacks lib name (if missing = "" then needed else missing)

/-- The name that is met again when a name is followed from inside the resolution of others. -/
inductive ClosesCycle (lib : Library) : List String → String → String → Prop where
  | met {path : List String} {name : String} (inside : name ∈ path) :
      ClosesCycle lib path name name
  | through {path : List String} {name needed again : String} (fresh : name ∉ path)
      (first : lib.FirstLacking name needed) (rest : ClosesCycle lib (name :: path) needed again) :
      ClosesCycle lib path name again

theorem Builds.unique {name : String} {s t : ResolvedType} (first : lib.Builds name s)
    (second : lib.Builds name t) : s = t := by
  induction first generalizing t with
  | intro types defined parts ih =>
    cases second with
    | intro others definedToo partsToo =>
      obtain rfl := Option.some.inj (defined.symm.trans definedToo)
      congr 1
      exact List.map_congr_left fun needed member => ih needed member (partsToo needed member)

theorem Builds.defined {name : String} {type : ResolvedType} (built : lib.Builds name type) :
    ∃ definition, lib.define? name = some definition := by
  cases built with
  | intro types defined parts => exact ⟨_, defined⟩

theorem Builds.name_eq {name : String} {type : ResolvedType} (built : lib.Builds name type) :
    type.name = name := by
  cases built with
  | @intro _ definition types defined parts => cases definition <;> rfl

theorem Buildable.needs {a b : String} (buildable : lib.Buildable a) (needs : lib.Needs a b) :
    lib.Buildable b := by
  obtain ⟨type, built⟩ := buildable
  obtain ⟨definition, defined, member⟩ := needs
  cases built with
  | intro types definedToo parts =>
    obtain rfl := Option.some.inj (defined.symm.trans definedToo)
    exact ⟨types b, parts b member⟩

theorem Buildable.reaches {a b : String} (buildable : lib.Buildable a)
    (reaches : ReflTransGen lib.Needs a b) : lib.Buildable b := by
  induction reaches with
  | refl => exact buildable
  | tail _ needs ih => exact ih.needs needs

def AllLead (lib : Library) (path : List String) (name : String) : Prop :=
  ∀ above ∈ path, TransGen lib.Needs above name

theorem allLead_nil (name : String) : lib.AllLead [] name := nofun

theorem AllLead.needs {path : List String} {a b : String} (leads : lib.AllLead path a)
    (needs : lib.Needs a b) : lib.AllLead (a :: path) b := by
  intro above inside
  rcases List.mem_cons.mp inside with rfl | inside
  · exact .single needs
  · exact (leads above inside).tail needs

theorem Builds.acc {name : String} {type : ResolvedType} (built : lib.Builds name type) :
    Acc (fun a b => lib.Needs b a) name := by
  induction built with
  | intro types defined parts ih =>
    refine Acc.intro _ fun needed needs => ?_
    obtain ⟨definition, definedToo, member⟩ := needs
    obtain rfl := Option.some.inj (defined.symm.trans definedToo)
    exact ih needed member

theorem not_transGen_of_acc {r : String → String → Prop} {name : String}
    (ends : Acc (fun a b => r b a) name) : ¬ TransGen r name name := by
  induction ends with
  | intro name _ ih =>
    intro cycle
    obtain ⟨next, step, back⟩ := TransGen.head'_iff.mp cycle
    -- the cycle can be entered one step further on
    exact ih next step (TransGen.tail' back step)

theorem Buildable.acyclic {name : String} (buildable : lib.Buildable name) :
    ¬ TransGen lib.Needs name name := by
  obtain ⟨type, built⟩ := buildable
  exact not_transGen_of_acc built.acc

namespace FirstLacking

theorem needs {a b : String} (first : lib.FirstLacking a b) : lib.Needs a b := by
  obtain ⟨definition, before, after, defined, split, -, -⟩ := first
  exact ⟨definition, defined, by simp [split]⟩

theorem define?_ne_none {a b : String} (first : lib.FirstLacking a b) : lib.define? a ≠ none := by
  obtain ⟨definition, before, after, defined, -⟩ := first
  simp [defined]

theorem lacking {a b : String} (first : lib.FirstLacking a b) : ¬ lib.Buildable b := by
  obtain ⟨definition, before, after, -, -, -, lacking⟩ := first
  exact lacking

theorem not_buildable {a b : String} (first : lib.FirstLacking a b) : ¬ lib.Buildable a :=
  fun buildable => first.lacking (buildable.needs first.needs)

theorem iff_find? {a b : String} [DecidablePred lib.Buildable] : lib.FirstLacking a b ↔
    (lib.define? a).bind (·.dependencies.find? fun other => ¬ lib.Buildable other) = some b := by
  simp only [FirstLacking, Option.bind_eq_some_iff, List.find?_eq_some_iff_append]
  constructor
  · rintro ⟨definition, before, after, defined, split, built, lacking⟩
    exact ⟨definition, defined, by simpa using lacking, before, after, split,
      fun other member => by simpa using built other member⟩
  · rintro ⟨definition, defined, lacking, before, after, split, built⟩
    exact ⟨definition, before, after, defined, split,
      fun other member => by simpa using built other member, by simpa using lacking⟩

theorem unique {a b c : String} (first : lib.FirstLacking a b) (second : lib.FirstLacking a c) :
    b = c := by
  classical
  exact Option.some.inj ((iff_find?.mp first).symm.trans (iff_find?.mp second))

theorem reaches {a b : String} (path : ReflTransGen lib.FirstLacking a b) :
    ReflTransGen lib.Needs a b :=
  ReflTransGen.mono (fun _ _ => needs) _ _ path

theorem leads {a b : String} (path : TransGen lib.FirstLacking a b) : TransGen lib.Needs a b :=
  TransGen.mono (fun _ _ => needs) _ _ path

end FirstLacking

namespace Lacks

theorem not_buildable {name missing : String} (lacks : lib.Lacks name missing) :
    ¬ lib.Buildable name := by
  cases lacks with
  | undefined absent =>
    rintro ⟨type, built⟩
    obtain ⟨definition, defined⟩ := built.defined
    simp [absent] at defined
  | through first rest => exact first.not_buildable

theorem unique {name a b : String} (first : lib.Lacks name a) (second : lib.Lacks name b) :
    a = b := by
  induction first generalizing b with
  | undefined absent =>
    cases second with
    | undefined => rfl
    | through first rest => exact absurd absent first.define?_ne_none
  | through first rest ih =>
    cases second with
    | undefined absent => exact absurd absent first.define?_ne_none
    | through firstToo restToo =>
      obtain rfl := first.unique firstToo
      rw [ih restToo]

theorem acc {name missing : String} (lacks : lib.Lacks name missing) :
    Acc (fun a b => lib.FirstLacking b a) name := by
  induction lacks with
  | undefined absent =>
    exact Acc.intro _ fun needed first => absurd absent first.define?_ne_none
  | through first rest ih =>
    refine Acc.intro _ fun needed firstToo => ?_
    obtain rfl := first.unique firstToo
    exact ih

theorem acc_of_path {name other missing : String} (lacks : lib.Lacks name missing)
    (path : ReflTransGen lib.FirstLacking name other) :
    Acc (fun a b => lib.FirstLacking b a) other := by
  induction path with
  | refl => exact lacks.acc
  | tail _ first ih => exact ih.inv first

/-- A name is lacking because of an undefined one at the end of its path, which is the name noted
unless it is empty. -/
theorem of_path {name last : String} (path : ReflTransGen lib.FirstLacking name last)
    (absent : lib.define? last = none) :
    ∃ missing, lib.Lacks name missing ∧ (last ≠ "" → missing = last) := by
  induction path using ReflTransGen.head_induction_on with
  | refl => exact ⟨last, .undefined absent, fun _ => rfl⟩
  | head first _ ih =>
    obtain ⟨missing, lacks, noted⟩ := ih
    refine ⟨_, .through first lacks, fun named => ?_⟩
    simp [noted named, named]

theorem path {name missing : String} (lacks : lib.Lacks name missing) :
    ∃ last, ReflTransGen lib.FirstLacking name last ∧ lib.define? last = none := by
  induction lacks with
  | undefined absent => exact ⟨_, .refl, absent⟩
  | through first _ ih =>
    obtain ⟨last, path, absent⟩ := ih
    exact ⟨last, .head first path, absent⟩

end Lacks

namespace ClosesCycle

theorem unique {path : List String} {name a b : String} (first : lib.ClosesCycle path name a)
    (second : lib.ClosesCycle path name b) : a = b := by
  induction first generalizing b with
  | met inside =>
    cases second with
    | met => rfl
    | through fresh => exact absurd inside fresh
  | through fresh first rest ih =>
    cases second with
    | met inside => exact absurd inside fresh
    | through _ firstToo restToo =>
      obtain rfl := first.unique firstToo
      exact ih restToo

theorem follow {path : List String} {name again : String} (cycle : lib.ClosesCycle path name again) :
    ReflTransGen lib.FirstLacking name again ∧
      (again ∈ path ∨ TransGen lib.FirstLacking again again) := by
  induction cycle with
  | met inside => exact ⟨.refl, .inl inside⟩
  | @through path name needed again fresh first rest ih =>
    obtain ⟨reaches, inside | back⟩ := ih
    · refine ⟨.head first reaches, ?_⟩
      rcases List.mem_cons.mp inside with rfl | inside
      · exact .inr (TransGen.head' first reaches)
      · exact .inl inside
    · exact ⟨.head first reaches, .inr back⟩

theorem back {name again : String} (cycle : lib.ClosesCycle [] name again) :
    TransGen lib.FirstLacking again again := by
  rcases cycle.follow.2 with inside | back
  · cases inside
  · exact back

theorem not_buildable {path : List String} {name again : String}
    (cycle : lib.ClosesCycle path name again)
    (leads : lib.AllLead path name) : ¬ lib.Buildable name := by
  cases cycle with
  | met inside => exact fun buildable => buildable.acyclic (leads _ inside)
  | through fresh first rest => exact first.not_buildable

end ClosesCycle

/-- A result of resolving a name from inside the resolution of others, the innermost first. -/
def Answers (lib : Library) (path : List String) (name : String) :
    Except ResolveError ResolvedType → Prop
  | .ok type => lib.Builds name type
  | .error (.unresolved given missing) =>
    ∃ noted, lib.Lacks name noted ∧ ResolveError.unresolved given missing = .ofMissing name noted
  | .error (.cyclic again) => lib.ClosesCycle path name again

theorem not_buildable_of_answers {path : List String} {name : String} {fault : ResolveError}
    (answers : lib.Answers path name (.error fault))
    (leads : lib.AllLead path name) : ¬ lib.Buildable name := by
  cases fault with
  | unresolved given missing =>
    obtain ⟨noted, lacks, -⟩ := answers
    exact lacks.not_buildable
  | cyclic again => exact answers.not_buildable leads

theorem Lacks.not_closesCycle {name missing again : String} (lacks : lib.Lacks name missing) :
    ¬ lib.ClosesCycle [] name again :=
  fun cycle => not_transGen_of_acc (lacks.acc_of_path cycle.follow.1) cycle.back

/-- A name resolved on its own has one result. -/
theorem Answers.unique {name : String} {a b : Except ResolveError ResolvedType}
    (first : lib.Answers [] name a) (second : lib.Answers [] name b) : a = b := by
  have clash {type : ResolvedType} {fault : ResolveError} (built : lib.Builds name type)
      (failed : lib.Answers [] name (.error fault)) : False :=
    not_buildable_of_answers failed (allLead_nil name) ⟨type, built⟩
  match a, b with
  | .ok s, .ok t => rw [Builds.unique first second]
  | .ok s, .error fault => exact (clash first second).elim
  | .error fault, .ok t => exact (clash second first).elim
  | .error (.unresolved _ _), .error (.unresolved _ _) =>
    obtain ⟨noted, lacks, same⟩ := first
    obtain ⟨notedToo, lacksToo, sameToo⟩ := second
    rw [same, sameToo, lacks.unique lacksToo]
  | .error (.unresolved _ _), .error (.cyclic _) =>
    obtain ⟨noted, lacks, -⟩ := first
    exact (lacks.not_closesCycle second).elim
  | .error (.cyclic _), .error (.unresolved _ _) =>
    obtain ⟨noted, lacks, -⟩ := second
    exact (lacks.not_closesCycle first).elim
  | .error (.cyclic _), .error (.cyclic _) => rw [ClosesCycle.unique first second]

end Library

end WidgetDsl
