import Mathlib.Logic.Function.Basic
import WidgetDsl.Proofs.Resolution

/-!
What a loader keeps does not show in its answers: everything in its cache is what resolution comes to
without any cache, whatever was asked before and however that went.
-/

namespace WidgetDsl

open Relation

structure Cache.Valid (lib : Library) (cache : Cache) : Prop where
  resolved : ∀ name type, cache.resolved.get? name = some type → lib.Builds name type
  failed : ∀ name missing, cache.failed.get? name = some missing → lib.Lacks name missing

namespace Cache.Valid

variable {lib : Library} {cache : Cache}

theorem empty : Cache.empty.Valid lib := by
  constructor <;> simp [Cache.empty, Entries.get?]

theorem enter (valid : cache.Valid lib) (name : String) : (cache.enter name).Valid lib :=
  ⟨valid.resolved, valid.failed⟩

theorem leave (valid : cache.Valid lib) (name : String) : (cache.leave name).Valid lib :=
  ⟨valid.resolved, valid.failed⟩

theorem keepType (valid : cache.Valid lib) {name : String} {type : ResolvedType}
    (built : lib.Builds name type) : (cache.keepType name type).Valid lib := by
  refine ⟨fun other found hit => ?_, valid.failed⟩
  simp only [Cache.keepType, Entries.get?_insert] at hit
  split at hit
  · rename_i same
    obtain rfl := Option.some.inj hit
    exact same ▸ built
  · exact valid.resolved other found hit

theorem keepFailure (valid : cache.Valid lib) {name missing : String}
    (lacks : lib.Lacks name missing) : (cache.keepFailure name missing).Valid lib := by
  refine ⟨valid.resolved, fun other found hit => ?_⟩
  simp only [Cache.keepFailure, Entries.get?_insert] at hit
  split at hit
  · rename_i same
    obtain rfl := Option.some.inj hit
    exact same ▸ lacks
  · exact valid.failed other found hit

end Cache.Valid

namespace Library

variable {lib : Library}

/-- What resolving names one after the other comes to: a type for each, or the failure of the first
that has none. -/
def AnswersAll (lib : Library) (path names : List String) :
    Except ResolveError (List ResolvedType) → Prop
  | .ok types => ∃ typeOf : String → ResolvedType, types = names.map typeOf ∧
      ∀ name ∈ names, lib.Builds name (typeOf name)
  | .error fault => ∃ before name after, names = before ++ name :: after ∧
      (∀ other ∈ before, lib.Buildable other) ∧ lib.Answers path name (.error fault)

theorem AnswersAll.cons_ok {path rest : List String} {name : String} {type : ResolvedType}
    {types : List ResolvedType} (built : lib.Builds name type)
    (answers : lib.AnswersAll path rest (.ok types)) :
    lib.AnswersAll path (name :: rest) (.ok (type :: types)) := by
  obtain ⟨typeOf, rfl, parts⟩ := answers
  -- a name that is needed twice has the same type both times
  have same : ∀ other ∈ rest, Function.update typeOf name type other = typeOf other := by
    intro other member
    by_cases again : other = name
    · subst again
      simpa using built.unique (parts other member)
    · simp [Function.update_of_ne again]
  refine ⟨Function.update typeOf name type, ?_, ?_⟩
  · simp only [List.map_cons, Function.update_self]
    rw [List.map_congr_left same]
  · intro other member
    rcases List.mem_cons.mp member with rfl | later
    · simpa using built
    · rw [same other later]
      exact parts other later

theorem AnswersAll.cons_error {path rest : List String} {name : String} {fault : ResolveError}
    (buildable : lib.Buildable name) (answers : lib.AnswersAll path rest (.error fault)) :
    lib.AnswersAll path (name :: rest) (.error fault) := by
  obtain ⟨before, failed, after, rfl, built, answers⟩ := answers
  refine ⟨name :: before, failed, after, rfl, ?_, answers⟩
  rintro other (_ | ⟨_, member⟩)
  · exact buildable
  · exact built other member

theorem AnswersAll.firstLacking {path : List String} {name : String} {definition : Definition}
    {fault : ResolveError} (defined : lib.define? name = some definition)
    (leads : lib.AllLead path name)
    (answers : lib.AnswersAll (name :: path) definition.dependencies (.error fault)) :
    ∃ needed, lib.FirstLacking name needed ∧ lib.Answers (name :: path) needed (.error fault) := by
  obtain ⟨before, needed, after, split, built, failed⟩ := answers
  have needs : lib.Needs name needed := ⟨definition, defined, by simp [split]⟩
  have lacking := not_buildable_of_answers failed (leads.needs needs)
  exact ⟨needed, ⟨definition, before, after, defined, split, built, lacking⟩, failed⟩

mutual

theorem resolveFrom_answers (lib : Library) (name : String) (cache : Cache)
    (valid : cache.Valid lib) (leads : lib.AllLead cache.resolving name) :
    lib.Answers cache.resolving name (lib.resolveFrom name cache).1 ∧
      (lib.resolveFrom name cache).2.val.Valid lib := by
  unfold resolveFrom
  split
  · rename_i type kept
    exact ⟨valid.resolved name type kept, valid⟩
  split
  · rename_i missing kept
    exact ⟨⟨missing, valid.failed name missing kept, rfl⟩, valid⟩
  split
  · rename_i inside
    exact ⟨.met inside, valid⟩
  rename_i fresh
  split
  · rename_i absent
    exact ⟨⟨name, .undefined absent, rfl⟩, valid.keepFailure (.undefined absent)⟩
  rename_i definition defined
  have parts := resolveAll_answers lib (lib.rank cache.resolving name) definition.dependencies
    (cache.enter name) (fun _ member => rank_dependency fresh defined member) (valid.enter name)
    (fun _ member => leads.needs ⟨definition, defined, member⟩)
  split
  · rename_i types after result
    rw [result] at parts
    obtain ⟨⟨typeOf, rfl, built⟩, validAfter⟩ := parts
    have whole := Builds.intro typeOf defined built
    exact ⟨whole, (validAfter.leave name).keepType whole⟩
  · rename_i given missing after result
    rw [result] at parts
    obtain ⟨answers, validAfter⟩ := parts
    obtain ⟨needed, first, noted, lacks, same⟩ := answers.firstLacking defined leads
    obtain ⟨rfl, rfl⟩ := ResolveError.unresolved.inj same
    have whole := Lacks.through first lacks
    exact ⟨⟨_, whole, rfl⟩, (validAfter.leave name).keepFailure whole⟩
  · rename_i other after result
    rw [result] at parts
    obtain ⟨answers, validAfter⟩ := parts
    obtain ⟨needed, first, cycle⟩ := answers.firstLacking defined leads
    exact ⟨.through fresh first cycle, validAfter.leave name⟩
termination_by ((lib.rank cache.resolving name).1, (lib.rank cache.resolving name).2,
  ((lib.define? name).elim 0 fun definition => definition.dependencies.length) + 1)
decreasing_by
  rename_i defined
  simp [defined, Prod.lex_def]

theorem resolveAll_answers (lib : Library) (bound : Nat × Nat) (names : List String) (cache : Cache)
    (sooner : ∀ name ∈ names, Sooner (lib.rank cache.resolving name) bound)
    (valid : cache.Valid lib)
    (leads : ∀ name ∈ names, lib.AllLead cache.resolving name) :
    lib.AnswersAll cache.resolving names (lib.resolveAll bound names cache sooner).1 ∧
      (lib.resolveAll bound names cache sooner).2.val.Valid lib := by
  match names with
  | [] =>
    unfold resolveAll
    exact ⟨⟨fun _ => ⟨"", .voidType, [], none, [], [], none⟩, rfl, by simp⟩, valid⟩
  | name :: rest =>
    have first := resolveFrom_answers lib name cache valid (leads name (by simp))
    unfold resolveAll
    split
    · rename_i fault after result
      rw [result] at first
      exact ⟨⟨[], name, rest, rfl, by simp, first.1⟩, first.2⟩
    rename_i type after result
    rw [result] at first
    obtain ⟨built, validAfter⟩ := first
    have later := resolveAll_answers lib bound rest after.val (fun other member => by
      rw [after.property]
      exact sooner other (List.mem_cons_of_mem _ member)) validAfter (by
      rw [after.property]
      exact fun other member => leads other (List.mem_cons_of_mem _ member))
    split
    · rename_i fault last resultLater
      rw [resultLater] at later
      exact ⟨.cons_error ⟨type, built⟩ (after.property ▸ later.1), later.2⟩
    · rename_i types last resultLater
      rw [resultLater] at later
      exact ⟨.cons_ok built (after.property ▸ later.1), later.2⟩
termination_by (bound.1, bound.2, names.length)
decreasing_by
  · have first := sooner name (by simp)
    simp only [Sooner, Prod.lex_def] at first
    simp_wf
    simp only [Prod.lex_def]
    omega
  · simp_wf
    simp [Prod.lex_def]

end

theorem resolve_answers (lib : Library) (name : String) :
    lib.Answers [] name (lib.resolve name) :=
  (resolveFrom_answers lib name .empty .empty (allLead_nil name)).1

theorem builds_iff_resolve {name : String} {type : ResolvedType} :
    lib.Builds name type ↔ lib.resolve name = .ok type := by
  have answers := resolve_answers lib name
  constructor
  · intro built
    have expected : lib.Answers [] name (.ok type) := built
    exact answers.unique expected
  · intro result
    rw [result] at answers
    exact answers

theorem buildable_iff_isOk {name : String} :
    lib.Buildable name ↔ (lib.resolve name).isOk = true := by
  simp only [Buildable, builds_iff_resolve]
  cases lib.resolve name <;> simp [Except.isOk, Except.toBool]

end Library

namespace Loader

variable {lib : Library} {loader : Loader}

inductive Call where
  | resolve (name : String)
  | link (type : ResolvedType)

abbrev Outcome := Except ResolveError (Option ResolvedType)

def perform (loader : Loader) : Call → Outcome × Loader
  | .resolve name =>
    let (result, loader) := loader.resolve name
    (result.map some, loader)
  | .link type =>
    let (result, loader) := loader.link type
    (result.map fun _ => none, loader)

def performAll : Loader → List Call → List Outcome × Loader
  | loader, [] => ([], loader)
  | loader, call :: rest =>
    let (outcome, loader) := loader.perform call
    let (outcomes, loader) := performAll loader rest
    (outcome :: outcomes, loader)

/-- A loader between two calls: its cache is valid and nothing is being resolved. -/
structure Idle (lib : Library) (loader : Loader) : Prop where
  library : loader.library = lib
  valid : loader.cache.Valid lib
  resolving : loader.cache.resolving = []

theorem ofLibrary_idle (lib : Library) : Idle lib (ofLibrary lib) :=
  ⟨rfl, .empty, rfl⟩

theorem resolve_idle (idle : Idle lib loader) (name : String) :
    (loader.resolve name).1 = lib.resolve name ∧ Idle lib (loader.resolve name).2 := by
  obtain ⟨library, cache⟩ := loader
  obtain ⟨rfl, valid, resolving⟩ := idle
  simp only at valid resolving
  obtain ⟨answers, validAfter⟩ :=
    Library.resolveFrom_answers library name cache valid (resolving ▸ Library.allLead_nil name)
  rw [resolving] at answers
  have kept := (library.resolveFrom name cache).2.property
  exact ⟨answers.unique (library.resolve_answers name), rfl, validAfter, kept.trans resolving⟩

theorem linkAll_idle (idle : Idle lib loader) (type : String) (names : List String) :
    (loader.linkAll type names).1 = lib.linkAll type names ∧
      Idle lib (loader.linkAll type names).2 := by
  induction names generalizing loader with
  | nil => exact ⟨rfl, idle⟩
  | cons name rest ih =>
    obtain ⟨first, idleAfter⟩ := resolve_idle idle name
    have later := ih idleAfter
    rw [Library.linkAll, ← first, linkAll]
    match loader.resolve name, idleAfter, later with
    | (.ok _, after), _, later => exact later
    | (.error (.unresolved _ _), after), idleAfter, _ => exact ⟨rfl, idleAfter⟩
    | (.error (.cyclic _), after), idleAfter, _ => exact ⟨rfl, idleAfter⟩

theorem link_idle (idle : Idle lib loader) (type : ResolvedType) :
    (loader.link type).1 = lib.link type ∧ Idle lib (loader.link type).2 :=
  linkAll_idle idle type.name _

theorem perform_idle (idle : Idle lib loader) (call : Call) :
    (loader.perform call).1 = ((ofLibrary lib).perform call).1 ∧
      Idle lib (loader.perform call).2 := by
  cases call with
  | resolve name =>
    have here := resolve_idle idle name
    have fresh := resolve_idle (ofLibrary_idle lib) name
    exact ⟨congrArg (Except.map some) (here.1.trans fresh.1.symm), here.2⟩
  | link type =>
    have here := link_idle idle type
    have fresh := link_idle (ofLibrary_idle lib) type
    exact ⟨congrArg (Except.map fun _ => none) (here.1.trans fresh.1.symm), here.2⟩

theorem performAll_idle (idle : Idle lib loader) (calls : List Call) :
    (loader.performAll calls).1 = calls.map (fun call => ((ofLibrary lib).perform call).1) ∧
      Idle lib (loader.performAll calls).2 := by
  induction calls generalizing loader with
  | nil => exact ⟨rfl, idle⟩
  | cons call rest ih =>
    obtain ⟨first, idleAfter⟩ := perform_idle idle call
    obtain ⟨later, idleLast⟩ := ih idleAfter
    refine ⟨?_, idleLast⟩
    simp only [performAll, List.map_cons]
    rw [first, later]

/-- Whatever was asked of a loader before, and however it went, a call has the outcome that it has on
a loader that was asked nothing, and no name is left in resolution. -/
theorem history_irrelevant (lib : Library) (calls : List Call) :
    ((ofLibrary lib).performAll calls).1 =
        calls.map (fun call => ((ofLibrary lib).perform call).1) ∧
      ((ofLibrary lib).performAll calls).2.cache.resolving = [] := by
  obtain ⟨outcomes, idle⟩ := performAll_idle (ofLibrary_idle lib) calls
  exact ⟨outcomes, idle.resolving⟩

end Loader

end WidgetDsl
