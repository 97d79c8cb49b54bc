import Mathlib.Data.List.Forall2
import WidgetDsl.Proofs.Completion

/-!
What one override can change. Of two tables that differ in a single replacement, both lead to the same
candidates and the same table, except for the branches that the replacement is for.
-/

namespace WidgetDsl

/-- Two results that are one failure, or ends that are related. -/
inductive EndAlike {ε α β : Type} (R : α → β → Prop) : Except ε α → Except ε β → Prop where
  | failed (e : ε) : EndAlike R (.error e) (.error e)
  | ended {a : α} {b : β} (related : R a b) : EndAlike R (.ok a) (.ok b)

namespace EndAlike

variable {ε ε' α β γ δ : Type} {R : α → β → Prop} {S : γ → δ → Prop} {x : Except ε α} {y : Except ε β}

theorem of_eq {R : α → α → Prop} (refl : ∀ a, R a a) (x : Except ε α) : EndAlike R x x := by
  cases x with
  | error e => exact .failed e
  | ok a => exact .ended (refl a)

theorem bind {f : α → Except ε γ} {g : β → Except ε δ} (alike : EndAlike R x y)
    (next : ∀ a b, x = .ok a → y = .ok b → R a b → EndAlike S (f a) (g b)) :
    EndAlike S (x >>= f) (y >>= g) := by
  cases alike with
  | failed e => exact .failed e
  | ended related => exact next _ _ rfl rfl related

theorem after (x : Except ε α) {f : α → Except ε γ} {g : α → Except ε δ}
    (next : ∀ a, EndAlike S (f a) (g a)) : EndAlike S (x >>= f) (x >>= g) := by
  cases x with
  | error e => exact .failed e
  | ok a => exact next a

theorem mapError (f : ε → ε') (alike : EndAlike R x y) : EndAlike R (x.mapError f) (y.mapError f) := by
  cases alike with
  | failed e => exact .failed (f e)
  | ended related => exact .ended related

end EndAlike

/-- Whether an override can be put for the code of a branch, or asks for the branch that would be made
anyway. -/
def Override.IsReplacement : Override → Prop
  | .excluded => False
  | .computed result => ∀ c, (result c).isCode = true
  | .default | .text _ | .code _ => True

namespace OverrideTable

variable {a b : OverrideTable} {className key : String} {c : Candidate}

def get? (table : OverrideTable) (className key : String) : Option Override :=
  (table.ofClass className).get? key

def keyFor? (table : OverrideTable) (c : Candidate) : Option String :=
  (candidateKeys c).find? fun key => (table.get? c.declaring.canonicalName key).isSome

theorem lookup_eq (table : OverrideTable) (c : Candidate) :
    table.lookup c = (table.keyFor? c).bind (table.get? c.declaring.canonicalName) := by
  unfold lookup keyFor?
  induction candidateKeys c with
  | nil => rfl
  | cons key rest ih =>
    rw [List.findSome?_cons, List.find?_cons]
    cases found : table.get? c.declaring.canonicalName key with
    | none =>
      rw [get?] at found
      simpa [found] using ih
    | some override =>
      have foundHere := found
      rw [get?] at found
      simp [found, foundHere]

/-- Tables with replacements under one key of a class, and otherwise the same overrides. -/
structure DiffersOnlyAt (a : OverrideTable) (className key : String) (b : OverrideTable) : Prop where
  first : ∃ override, a.get? className key = some override ∧ override.IsReplacement
  second : ∃ override, b.get? className key = some override ∧ override.IsReplacement
  elsewhere : ∀ otherClass otherKey, ¬(otherClass = className ∧ otherKey = key) →
    a.get? otherClass otherKey = b.get? otherClass otherKey

def Decides (table : OverrideTable) (className key : String) (c : Candidate) : Prop :=
  c.declaring.canonicalName = className ∧ table.keyFor? c = some key

namespace DiffersOnlyAt

theorem isSome_eq (differ : a.DiffersOnlyAt className key b) (otherClass otherKey : String) :
    (a.get? otherClass otherKey).isSome = (b.get? otherClass otherKey).isSome := by
  by_cases here : otherClass = className ∧ otherKey = key
  · obtain ⟨first, found, -⟩ := differ.first
    obtain ⟨second, foundToo, -⟩ := differ.second
    rw [here.1, here.2, found, foundToo]
    rfl
  · rw [differ.elsewhere otherClass otherKey here]

theorem keyFor?_eq (differ : a.DiffersOnlyAt className key b) (c : Candidate) :
    a.keyFor? c = b.keyFor? c := by
  unfold keyFor?
  simp only [differ.isSome_eq]

theorem lookup_cases (differ : a.DiffersOnlyAt className key b) (c : Candidate) :
    a.lookup c = b.lookup c ∨ a.Decides className key c ∧ ∃ first second,
      a.lookup c = some first ∧ first.IsReplacement ∧
      b.lookup c = some second ∧ second.IsReplacement := by
  rw [lookup_eq a, lookup_eq b, ← differ.keyFor?_eq]
  cases found : a.keyFor? c with
  | none => exact .inl rfl
  | some decides =>
    by_cases here : c.declaring.canonicalName = className ∧ decides = key
    · obtain ⟨named, rfl⟩ := here
      obtain ⟨first, inFirst, replaces⟩ := differ.first
      obtain ⟨second, inSecond, replacesToo⟩ := differ.second
      rw [← named] at inFirst inSecond
      exact .inr ⟨⟨named, found⟩, first, second, inFirst, replaces, inSecond, replacesToo⟩
    · exact .inl (differ.elsewhere _ _ here)

theorem excludesMethod_eq (differ : a.DiffersOnlyAt className key b) (c : Candidate) :
    a.excludesMethod c = b.excludesMethod c := by
  have kept {table : OverrideTable} {override : Override} (found : table.lookup c = some override)
      (replaces : override.IsReplacement) : table.excludesMethod c = false := by
    unfold excludesMethod
    rw [found]
    cases override with
    | excluded => exact replaces.elim
    | _ => rfl
  rcases differ.lookup_cases c with same | ⟨-, first, second, found, replaces, foundToo, replacesToo⟩
  · rw [excludesMethod, excludesMethod, same]
  · rw [kept found replaces, kept foundToo replacesToo]

theorem classAlias_eq (differ : a.DiffersOnlyAt className key b) (method : key ≠ aliasKey)
    (otherClass : String) : a.classAlias otherClass = b.classAlias otherClass := by
  have same := differ.elsewhere otherClass aliasKey fun here => method here.2.symm
  unfold get? at same
  unfold classAlias
  rw [same]

theorem replacement_cases (differ : a.DiffersOnlyAt className key b) (c : Candidate) :
    a.replacement c = b.replacement c ∨ a.Decides className key c ∧
      (∃ code, a.replacement c = .ok code) ∧ ∃ code, b.replacement c = .ok code := by
  have replaced {table : OverrideTable} {override : Override} (found : table.lookup c = some override)
      (replaces : override.IsReplacement) : ∃ code, table.replacement c = .ok code := by
    cases ended : table.replacement c with
    | ok code => exact ⟨code, rfl⟩
    | error fault =>
      obtain ⟨result, foundHere, noCode, -⟩ := replacement_eq_error_iff.mp ended
      rw [found] at foundHere
      cases foundHere
      rw [replaces c] at noCode
      cases noCode
  rcases differ.lookup_cases c with
    same | ⟨decides, first, second, found, replaces, foundToo, replacesToo⟩
  · left
    rw [replacement, replacement, same]
  · exact .inr ⟨decides, replaced found replaces, replaced foundToo replacesToo⟩

end DiffersOnlyAt

end OverrideTable

namespace Dispatch

variable {P : Candidate → Prop} {root : ResolvedType} {names : RuntimeNames} {a b : OverrideTable}
  {className key : String}

structure Branch.AlikeBut (P : Candidate → Prop) (first second : Branch) : Prop where
  candidate : second.candidate = first.candidate
  differ : first ≠ second → P first.candidate

structure Case.AlikeBut (P : Candidate → Prop) (first second : Case) : Prop where
  name : second.name = first.name
  branches : List.Forall₂ (Branch.AlikeBut P) first.branches second.branches

structure Table.AlikeBut (P : Candidate → Prop) (first second : Table) : Prop where
  cases : List.Forall₂ (Case.AlikeBut P) first.cases second.cases
  wrappers : second.wrappers = first.wrappers
  warnings : second.warnings = first.warnings

theorem Branch.AlikeBut.refl (branch : Branch) : branch.AlikeBut P branch :=
  ⟨rfl, fun different => absurd rfl different⟩

theorem branch_alike (differ : a.DiffersOnlyAt className key b) (c : Candidate) (last : Bool) :
    EndAlike (Branch.AlikeBut (a.Decides className key)) (branch root names a c last)
      (branch root names b c last) := by
  rcases differ.replacement_cases c with same | ⟨decides, ⟨code, replaced⟩, ⟨codeToo, replacedToo⟩⟩
  · have whole : branch root names a c last = branch root names b c last := by
      unfold branch
      rw [same]
    rw [whole]
    exact .of_eq Branch.AlikeBut.refl _
  · obtain ⟨first, made⟩ := exists_branch replaced root names last
    obtain ⟨second, madeToo⟩ := exists_branch replacedToo root names last
    have candidate := branch_candidate made
    rw [made, madeToo]
    exact .ended ⟨(branch_candidate madeToo).trans candidate.symm, fun _ => candidate ▸ decides⟩

theorem branches_alike (differ : a.DiffersOnlyAt className key b) (candidates : List Candidate) :
    EndAlike (List.Forall₂ (Branch.AlikeBut (a.Decides className key)))
      (branches root names a candidates) (branches root names b candidates) := by
  induction candidates with
  | nil => exact .ended .nil
  | cons c rest ih =>
    apply (branch_alike differ c rest.isEmpty).bind
    intro first second _ _ alike
    apply ih.bind
    intro others othersToo _ _ later
    exact .ended (.cons alike later)

theorem caseOf_alike (differ : a.DiffersOnlyAt className key b) (group : Group) :
    EndAlike (Case.AlikeBut (a.Decides className key)) (caseOf root names a group)
      (caseOf root names b group) := by
  apply (branches_alike differ _).bind
  intro made madeToo covered coveredToo alike
  rw [(covers_of_branches covered).ofBranches, (covers_of_branches coveredToo).ofBranches]
  exact .ended ⟨rfl, alike⟩

theorem wrappers_congr {builder other : Builder} (libraries : builder.library = other.library)
    (oracles : builder.oracle = other.oracle) (group : Group) :
    builder.wrappers group = other.wrappers group := by
  have each : builder.wrapper group = other.wrapper group := by
    funext valueType
    unfold Builder.wrapper
    -- else the name would be read character by character to decide a match on it
    generalize Java.TypeName.ofBinary valueType = type
    rw [libraries, oracles]
  unfold Builder.wrappers
  rw [each]

theorem ofSorted_alike (builder : Builder) (differ : a.DiffersOnlyAt className key b)
    (groups : List Group) :
    EndAlike (Table.AlikeBut (a.Decides className key))
      ({ builder with overrides := a }.ofSorted groups)
      ({ builder with overrides := b }.ofSorted groups) := by
  induction groups with
  | nil => exact .ended ⟨.nil, rfl, rfl⟩
  | cons group rest ih =>
    unfold Builder.ofSorted
    split
    · exact ih
    · apply ((caseOf_alike differ group).mapError _).bind
      intro first second _ _ case
      have wrappers : { builder with overrides := a }.wrappers group =
          { builder with overrides := b }.wrappers group := by
        apply wrappers_congr <;> rfl
      rw [wrappers]
      apply EndAlike.after
      intro made
      apply ih.bind
      intro others othersToo _ _ later
      exact .ended ⟨.cons case later.cases, by rw [later.wrappers], by rw [later.warnings]⟩

end Dispatch

theorem Analysis.collect_congr {a b : OverrideTable} (lib : Library) (root : ResolvedType)
    (oracle : NullabilityOracle) (aliases : ∀ name, a.classAlias name = b.classAlias name)
    (excludes : ∀ c, a.excludesMethod c = b.excludesMethod c) (types : List ResolvedType) :
    collect lib root a oracle types = collect lib root b oracle types := by
  have leftOut (name : String) : a.excludesClass name = b.excludesClass name := by
    rw [OverrideTable.excludesClass, OverrideTable.excludesClass, aliases]
  induction types with
  | nil => rfl
  | cons type rest ih => simp only [collect, leftOut, excludes, ih]

theorem Factory.ofClassesTaken_congr {a b : OverrideTable}
    (aliases : ∀ name, a.classAlias name = b.classAlias name) (taken : Entries String)
    (types : List ResolvedType) : ofClassesTaken a taken types = ofClassesTaken b taken types := by
  have named (type : ResolvedType) : nameFor? type a = nameFor? type b := by
    rw [nameFor?, nameFor?, aliases]
  induction types generalizing taken with
  | nil => rfl
  | cons type rest ih => simp only [ofClassesTaken, named, ih]

/-- Two drafts of one analysis that are the same except for the branches of certain candidates. -/
structure Draft.AlikeBut (P : Candidate → Prop) (first second : Draft) : Prop where
  analysis : second.analysis = first.analysis
  unit : second.unit = { first.unit with cases := second.unit.cases }
  cases : List.Forall₂ (Dispatch.Case.AlikeBut P) first.unit.cases second.unit.cases

namespace Generator

variable {generator : Generator} {a b : OverrideTable} {className key : String}

def overriding (generator : Generator) (overrides : OverrideTable) : Generator :=
  { generator with overrides }

theorem analyzeScan_eq (differ : a.DiffersOnlyAt className key b) (method : key ≠ aliasKey)
    (scan : Scan) :
    (generator.overriding a).analyzeScan scan = (generator.overriding b).analyzeScan scan := by
  unfold analyzeScan Analysis.ofCatalog
  simp only [overriding, catalog, effectiveOracle,
    Analysis.collect_congr _ _ _ (differ.classAlias_eq method) differ.excludesMethod_eq]

theorem table_alike_but (differ : a.DiffersOnlyAt className key b) (lib : Library)
    (analysis : Analysis) :
    EndAlike (Dispatch.Table.AlikeBut (a.Decides className key))
      ((generator.overriding a).table lib analysis) ((generator.overriding b).table lib analysis) :=
  (Dispatch.ofSorted_alike (generator.builder lib analysis.root) differ _).mapError _

/-- Of two runs whose overrides differ only in a replacement under one key of a class, either both fail
alike, or both have the same outcome except for branches that this key decides about. -/
theorem replacement_contained (generator : Generator) (scan : Scan) (a b : OverrideTable)
    (className key : String) (differ : a.DiffersOnlyAt className key b) (method : key ≠ aliasKey) :
    EndAlike (Draft.AlikeBut (a.Decides className key)) ((generator.overriding a).draftScan scan)
      ((generator.overriding b).draftScan scan) := by
  unfold draftScan
  rw [← analyzeScan_eq differ method]
  apply EndAlike.after
  intro analysis
  apply (table_alike_but differ scan.library analysis).bind
  intro first second _ _ tables
  have factories : Factory.ofClasses analysis.classes a = Factory.ofClasses analysis.classes b :=
    Factory.ofClassesTaken_congr (differ.classAlias_eq method) [] analysis.classes
  obtain ⟨source, rendered⟩ := (CompilationUnit.ofTable generator.config first
    (Factory.ofClasses analysis.classes b).1).exists_render
  obtain ⟨sourceToo, renderedToo⟩ := (CompilationUnit.ofTable generator.config second
    (Factory.ofClasses analysis.classes b).1).exists_render
  simp only [overriding, factories, rendered, renderedToo, Except.mapError, bind, Except.bind]
  refine .ended ⟨?_, ?_, tables.cases⟩
  · simp only [tables.warnings]
  · simp only [CompilationUnit.ofTable, tables.wrappers]

end Generator

namespace Gallery

def handmade (label : Override) : OverrideTable :=
  ⟨[(buttonDecl.name, [("setLabel", label), ("setOnTouch", .excluded), (aliasKey, .text "Knob")])]⟩

def byHand : Override := .text "// by hand"

def byMethod : Override := .computed fun c => .plain (.text ("// " ++ c.method.key))

theorem get?_handmade (label : Override) (className key : String) :
    (handmade label).get? className key =
      if className = buttonDecl.name ∧ key = "setLabel" then some label
      else (handmade .default).get? className key := by
  by_cases here : className = buttonDecl.name
  · by_cases method : key = "setLabel"
    · simp [handmade, OverrideTable.get?, OverrideTable.ofClass, Entries.get?, here, method]
    · simp [handmade, OverrideTable.get?, OverrideTable.ofClass, Entries.get?, here, method,
        List.lookup_cons, beq_false_of_ne method]
  · simp [handmade, OverrideTable.get?, OverrideTable.ofClass, Entries.get?, here, List.lookup_cons,
      beq_false_of_ne here]

theorem handmade_differ {first second : Override} (replaces : first.IsReplacement)
    (replacesToo : second.IsReplacement) :
    (handmade first).DiffersOnlyAt buttonDecl.name "setLabel" (handmade second) := by
  refine ⟨⟨first, ?_, replaces⟩, ⟨second, ?_, replacesToo⟩, fun className key other => ?_⟩
  · rw [get?_handmade, if_pos ⟨rfl, rfl⟩]
  · rw [get?_handmade, if_pos ⟨rfl, rfl⟩]
  · rw [get?_handmade first, get?_handmade second, if_neg other, if_neg other]

theorem handmade_drafts :
    ∃ draft, (generator.overriding (handmade byHand)).draftScan scan = .ok draft := by
  obtain ⟨analysis, analyzed⟩ := spans.exists_analysis
  obtain ⟨catalog, listed, -⟩ := bind_eq_ok.mp analyzed
  have listed : (generator.overriding (handmade byHand)).catalog scan = .ok catalog := listed
  obtain ⟨analysis, analyzed⟩ := Generator.exists_analysis_of_catalog listed
  apply Generator.exists_draft analyzed
  apply Dispatch.replaces_of_isCode
  intro result member
  simp [Generator.overriding, handmade, byHand, OverrideTable.overrides] at member

theorem label_contained : "setLabel" ≠ aliasKey ∧
    (handmade byHand).DiffersOnlyAt buttonDecl.name "setLabel" (handmade byMethod) ∧
    ∃ first second, (generator.overriding (handmade byHand)).draftScan scan = .ok first ∧
      (generator.overriding (handmade byMethod)).draftScan scan = .ok second ∧
      first.AlikeBut ((handmade byHand).Decides buttonDecl.name "setLabel") second := by
  have method : "setLabel" ≠ aliasKey := by decide
  have differ : (handmade byHand).DiffersOnlyAt buttonDecl.name "setLabel" (handmade byMethod) :=
    handmade_differ trivial fun _ => rfl
  refine ⟨method, differ, ?_⟩
  obtain ⟨first, made⟩ := handmade_drafts
  have alike := Generator.replacement_contained generator scan _ _ _ _ differ method
  generalize (generator.overriding (handmade byMethod)).draftScan scan = other at alike ⊢
  rw [made] at alike
  cases alike with
  | ended related => exact ⟨first, _, made, rfl, related⟩

end Gallery

end WidgetDsl
