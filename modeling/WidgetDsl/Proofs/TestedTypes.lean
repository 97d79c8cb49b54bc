import WidgetDsl.Proofs.BinaryNames
import WidgetDsl.Proofs.BranchOrder

/-!
What the branches of a case compare values with. Binary names tell types apart, but a primitive type
and its box are compared with alike.
-/

namespace WidgetDsl

namespace Java

def boxOf (name : String) : String :=
  (primitives.lookup name).getD name

def Boxes (primitive box : String) : Prop :=
  (primitive, box) ∈ primitives

theorem lookup_eq_some_iff {name box : String} :
    primitives.lookup name = some box ↔ Boxes name box := by
  have found : ∀ entry ∈ primitives, primitives.lookup entry.1 = some entry.2 := by decide +kernel
  constructor
  · intro lookup
    obtain ⟨before, after, split, -⟩ := List.lookup_eq_some_iff.mp lookup
    simp [Boxes, split]
  · exact found (name, box)

theorem boxOf_eq_iff {a b : String} : boxOf a = boxOf b ↔ a = b ∨ Boxes a b ∨ Boxes b a := by
  have ofBox : ∀ entry ∈ primitives, boxOf entry.1 = boxOf entry.2 := by decide +kernel
  have distinct : ∀ entry ∈ primitives, ∀ other ∈ primitives, entry.2 = other.2 →
      entry.1 = other.1 := by
    decide +kernel
  constructor
  · intro same
    unfold boxOf at same
    match first : primitives.lookup a, second : primitives.lookup b with
    | none, none => exact .inl (by simpa [first, second] using same)
    | some x, none =>
      obtain rfl : x = b := by simpa [first, second] using same
      exact .inr (.inl (lookup_eq_some_iff.mp first))
    | none, some y =>
      obtain rfl : a = y := by simpa [first, second] using same
      exact .inr (.inr (lookup_eq_some_iff.mp second))
    | some x, some y =>
      obtain rfl : x = y := by simpa [first, second] using same
      exact .inl (distinct (a, x) (lookup_eq_some_iff.mp first) (b, x)
        (lookup_eq_some_iff.mp second) rfl)
  · rintro (rfl | boxes | boxes)
    · rfl
    · exact ofBox (a, b) boxes
    · exact (ofBox (b, a) boxes).symm

/-- A name as compilers make them: in no package without a name, and of a class that is nested in none
called like a primitive type. -/
structure ProperName (name : String) : Prop where
  noLeadingDot : ¬ LeadingDot name
  primitive : (TypeName.ofBinary name).isPrimitive = true → isPrimitive name = true

instance (name : String) : Decidable (ProperName name) :=
  decidable_of_iff (¬ LeadingDot name ∧
      ((TypeName.ofBinary name).isPrimitive = true → isPrimitive name = true))
    ⟨fun ⟨plain, primitive⟩ => ⟨plain, primitive⟩, fun proper => ⟨proper.1, proper.2⟩⟩

theorem boxed_ofBinary {name : String} (proper : ProperName name) :
    (TypeName.ofBinary name).boxed = TypeName.ofBinary (boxOf name) := by
  have ofBox : ∀ entry ∈ primitives,
      (TypeName.ofBinary entry.1).boxed = TypeName.ofBinary entry.2 := by
    decide +kernel
  unfold boxOf
  match found : primitives.lookup name with
  | some box => exact ofBox (name, box) (lookup_eq_some_iff.mp found)
  | none =>
    have notPrimitive : (TypeName.ofBinary name).isPrimitive = false := by
      rw [Bool.eq_false_iff]
      intro reads
      simpa [isPrimitive, found] using proper.primitive reads
    simp [TypeName.boxed, notPrimitive]

theorem noLeadingDot_boxOf {name : String} (plain : ¬ LeadingDot name) : ¬ LeadingDot (boxOf name) := by
  have boxes : ∀ entry ∈ primitives, entry.2.toList.head? ≠ some '.' := by decide +kernel
  unfold boxOf
  match found : primitives.lookup name with
  | some box => exact boxes (name, box) (lookup_eq_some_iff.mp found)
  | none => exact plain

theorem boxed_eq_iff {a b : String} (proper : ProperName a) (properToo : ProperName b) :
    (TypeName.ofBinary a).boxed = (TypeName.ofBinary b).boxed ↔ a = b ∨ Boxes a b ∨ Boxes b a := by
  rw [boxed_ofBinary proper, boxed_ofBinary properToo, ← boxOf_eq_iff]
  refine ⟨TypeName.ofBinary_injective ?_ ?_, congrArg _⟩
  · exact noLeadingDot_boxOf proper.noLeadingDot
  · exact noLeadingDot_boxOf properToo.noLeadingDot

def asksFor (text : String) : Bool :=
  "arg instanceof ".toList.isSuffixOf text.toList

def comparedIn : List Part → Option TypeName
  | [] => none
  | .type _ :: rest => comparedIn rest
  | .text s :: rest =>
    if asksFor s then
      match rest with
      | .type name :: _ => some name
      | _ => none
    else comparedIn rest

/-- The type that the value is compared with to enter a block. -/
def CodeBlock.comparedType? (code : CodeBlock) : Option TypeName :=
  code.lines.head?.bind fun line => comparedIn line.parts

theorem Writer.perform_grows (w : Writer) (call : Call) : w.lines <+: (w.perform call).lines := by
  cases call <;> simp [perform, addLine, deepen]

theorem Writer.run_grows (w : Writer) (calls : List Call) : w.lines <+: (w.run calls).lines := by
  induction calls generalizing w with
  | nil => exact List.prefix_refl _
  | cons call rest ih => exact (w.perform_grows call).trans (ih (w.perform call))

theorem comparedType?_ofCalls {parts : List Part} {rest : List Call} {code : CodeBlock}
    (written : CodeBlock.ofCalls (.opening parts :: rest) = .ok code) :
    code.comparedType? = comparedIn (parts ++ [.text " \x7b"]) := by
  obtain ⟨later, lines⟩ := (Writer.empty.perform (.opening parts)).run_grows rest
  rw [CodeBlock.comparedType?, (CodeBlock.ofCalls_eq_ok_iff.mp written).2]
  simp only [Writer.run, List.foldl_cons] at lines ⊢
  rw [← lines]
  rfl

end Java

namespace Dispatch

open Java (comparedIn asksFor TypeName)

theorem comparedType?_setterBranch {candidate : Candidate} {root : ResolvedType}
    {code : Java.CodeBlock} (sets : setterBranch candidate root = .ok code) :
    code.comparedType? = some (TypeName.ofBinary candidate.valueType.name).boxed := by
  have asks : asksFor "arg instanceof " = true := by decide +kernel
  have passes : ∀ text ∈ ["if (", "if (v instanceof ", " && ", "(", "arg == null || "],
      asksFor text = false := by
    decide +kernel
  simp only [List.forall_mem_cons] at passes
  unfold setterBranch at sets
  split at sets
  · rw [Java.comparedType?_ofCalls sets]
    cases nullable : candidate.isNullable <;> simp [valueTest, nullable, comparedIn, asks, passes]
  · rw [Java.comparedType?_ofCalls sets]
    cases nullable : candidate.isNullable <;> simp [valueTest, nullable, comparedIn, asks, passes]

theorem comparedType?_listenerBranch {candidate : Candidate} {root : ResolvedType}
    {names : RuntimeNames} {exhaustive : Bool} {code : Java.CodeBlock}
    (onRoot : exhaustive = true → candidate.declaring.name = root.name)
    (listens : listenerBranch candidate root names exhaustive = .ok code) :
    code.comparedType? =
      if exhaustive then none else some (TypeName.ofBinary candidate.valueType.name) := by
  have asks : ∀ text ∈ ["if (arg == null || arg instanceof ", " && (arg == null || arg instanceof "],
      asksFor text = true := by
    decide +kernel
  have passes : ∀ text ∈ ["if (v instanceof ", "if (arg != null)", " \x7b"],
      asksFor text = false := by
    decide +kernel
  simp only [List.forall_mem_cons] at asks passes
  obtain ⟨body, -, written⟩ := bind_eq_ok.mp listens
  unfold listenerGuard at written
  by_cases here : candidate.declaring.name = root.name
  · cases exhaustive
    · simp only [here, decide_true, if_true] at written
      rw [Java.comparedType?_ofCalls written]
      simp [comparedIn, asks]
    · simp only [here, decide_true, if_true] at written
      rw [Java.comparedType?_ofCalls written]
      simp [comparedIn, passes]
  · cases exhaustive
    · simp only [here, decide_false] at written
      rw [Java.comparedType?_ofCalls written]
      simp [comparedIn, asks, passes]
    · exact absurd (onRoot rfl) here

/-- The type that values are told by for a branch. -/
def Branch.testedType (b : Branch) : TypeName :=
  (TypeName.ofBinary b.candidate.valueType.name).boxed

end Dispatch

theorem Library.Loaded.not_isPrimitive {lib : Library} {type : ResolvedType}
    (loaded : lib.Loaded type) (interface : type.isInterface = true) :
    Java.isPrimitive type.name = false := by
  rw [Bool.eq_false_iff]
  intro primitive
  have notVoid : type.name ≠ "void" := by
    intro same
    rw [same] at primitive
    revert primitive
    decide +kernel
  generalize named : type.name = name at primitive notVoid
  have built := named ▸ loaded.builds
  cases built with
  | intro types defined parts =>
    simp only [Library.define?, if_neg notVoid, primitive, if_true, Option.some.injEq] at defined
    subst defined
    simp [Definition.assemble, ResolvedType.isInterface] at interface

namespace Generator

open Dispatch Candidate

variable {generator : Generator} {scan : Scan} {analysis : Analysis} {case : Case} {b : Branch}

theorem Forms.listener_interface (forms : generator.Forms scan analysis case)
    (member : b ∈ case.branches) (listener : b.candidate.isListener = true) :
    b.candidate.valueType.isInterface = true := by
  obtain ⟨-, -, derived, admits, -, -, same⟩ := forms.finds.candidate (forms.candidate member).1
  have callback := admits.callback (same ▸ listener)
  simp only [isCallback, Bool.and_eq_true] at callback
  exact callback.1

theorem Forms.setter_not_exhaustive (forms : generator.Forms scan analysis case)
    (member : b ∈ case.branches) (setter : b.candidate.isListener = false) : b.exhaustive = false := by
  obtain ⟨last, result⟩ := forms.covers.each b member
  rcases branch_cases result with ⟨code, -, same⟩ | ⟨listener, -⟩ | ⟨-, code, -, same⟩
  · rw [same]
  · simp [setter] at listener
  · rw [same]

theorem Forms.comparedType? (forms : generator.Forms scan analysis case)
    (member : b ∈ case.branches) (proper : Java.ProperName b.candidate.valueType.name)
    (generated : b.replaced = false) :
    b.code.comparedType? = if b.exhaustive then none else some b.testedType := by
  obtain ⟨last, result⟩ := forms.covers.each b member
  rcases branch_cases result with ⟨code, -, same⟩ | ⟨listener, code, listens, same⟩ |
    ⟨-, code, sets, same⟩
  · rw [same] at generated
    cases generated
  · -- a listener's guard names the type without its box, and an interface has none
    have interface := forms.listener_interface member listener
    have noBox := Option.isSome_eq_false_iff.mp ((forms.loaded member).1.not_isPrimitive interface)
    have unboxed : b.testedType = .ofBinary b.candidate.valueType.name := by
      rw [Branch.testedType, Java.boxed_ofBinary proper, Java.boxOf, Option.isNone_iff_eq_none.mp noBox]
      rfl
    have made : b.code = code := congrArg Branch.code same
    have ends : b.exhaustive = (last && b.candidate.declaring.name = analysis.root.name) :=
      congrArg Branch.exhaustive same
    rw [made, unboxed, ends]
    refine comparedType?_listenerBranch (fun exhaustive => ?_) listens
    exact of_decide_eq_true (Bool.and_eq_true_iff.mp exhaustive).2
  · have compared := comparedType?_setterBranch sets
    have made : b.code = code := congrArg Branch.code same
    have ends : b.exhaustive = false := congrArg Branch.exhaustive same
    rw [made, ends]
    exact compared

/-- Two branches of one class are told by different types, unless one is for a primitive type and the
other one for its box; and what is not written by hand compares the value with the type it is told
by, if with any. -/
theorem tested_alike_iff_boxes (generator : Generator) (scan : Scan) (case : Case)
    (makes : generator.Makes scan case) (i j : Branch) (precedes : case.Precedes i j)
    (same : i.candidate.declaring.name = j.candidate.declaring.name)
    (proper : Java.ProperName i.candidate.valueType.name)
    (properToo : Java.ProperName j.candidate.valueType.name) :
    (i.testedType = j.testedType ↔
      Java.Boxes i.candidate.valueType.name j.candidate.valueType.name ∨
        Java.Boxes j.candidate.valueType.name i.candidate.valueType.name) ∧
    ∀ b ∈ [i, j], b.replaced = false →
      b.code.comparedType? = if b.exhaustive then none else some b.testedType := by
  obtain ⟨analysis, forms⟩ := makes.forms
  constructor
  · have different : i.candidate.valueType.name ≠ j.candidate.valueType.name := by
      intro values
      have distinct := forms.distinct precedes
      simp [sameTest_iff.mpr ⟨values, same⟩] at distinct
    rw [Branch.testedType, Branch.testedType, Java.boxed_eq_iff proper properToo]
    simp [different]
  · intro b member generated
    simp only [List.mem_cons, List.not_mem_nil, or_false] at member
    rcases member with rfl | rfl
    · exact forms.comparedType? precedes.left_mem proper generated
    · exact forms.comparedType? precedes.right_mem properToo generated

end Generator

namespace Gallery

open Dispatch

theorem hints_tested_apart : ∃ case i j, Tries case i j ∧
    i.candidate.declaring.name = j.candidate.declaring.name ∧
    Java.ProperName i.candidate.valueType.name ∧ Java.ProperName j.candidate.valueType.name ∧
    i.testedType ≠ j.testedType ∧ i.code.comparedType? = some i.testedType ∧
    j.code.comparedType? = some j.testedType := by
  obtain ⟨case, i, j, tries, isFirst, isSecond⟩ := exists_tries
    ⟨"hint", "java.lang.String", widgetDecl.name, false⟩
    ⟨"hint", Java.objectName, widgetDecl.name, false⟩ (by decide +kernel) rfl (by decide +kernel)
  obtain ⟨analysis, forms⟩ := tries.makes.forms
  have same : i.candidate.declaring.name = j.candidate.declaring.name := by
    rw [isFirst.declaring, isSecond.declaring]
  have proper : Java.ProperName i.candidate.valueType.name := by
    rw [isFirst.valueType]
    decide +kernel
  have properToo : Java.ProperName j.candidate.valueType.name := by
    rw [isSecond.valueType]
    decide +kernel
  obtain ⟨alike, compared⟩ := Generator.tested_alike_iff_boxes generator scan case tries.makes i j
    tries.precedes same proper properToo
  have noBoxes : ¬ (Java.Boxes i.candidate.valueType.name j.candidate.valueType.name ∨
      Java.Boxes j.candidate.valueType.name i.candidate.valueType.name) := by
    rw [isFirst.valueType, isSecond.valueType]
    unfold Java.Boxes
    decide +kernel
  have first := compared i (by simp) (tries.notReplaced i tries.precedes.left_mem)
  have second := compared j (by simp) (tries.notReplaced j tries.precedes.right_mem)
  rw [forms.setter_not_exhaustive tries.precedes.left_mem isFirst.isListener] at first
  rw [forms.setter_not_exhaustive tries.precedes.right_mem isSecond.isListener] at second
  exact ⟨case, i, j, tries, same, proper, properToo, fun tested => noBoxes (alike.mp tested), first,
    second⟩

theorem comparedType?_setter {case : Case} {i j b : Branch} {purpose : Purpose} (tries : Tries case i j)
    (member : b ∈ case.branches) (isFor : IsFor b purpose) (setter : purpose.listener = false)
    (proper : Java.ProperName (scan.library.typeOf purpose.value).name) :
    b.code.comparedType? =
      some (Java.TypeName.ofBinary (scan.library.typeOf purpose.value).name).boxed := by
  obtain ⟨analysis, forms⟩ := tries.makes.forms
  rw [← isFor.valueType] at proper ⊢
  rw [forms.comparedType? member proper (tries.notReplaced b member),
    forms.setter_not_exhaustive member (isFor.isListener.trans setter)]
  rfl

/-- The sizes of the widget, one boxed and one primitive, have two branches with one test. -/
theorem sizes_tested_alike : ∃ case i j, Tries case i j ∧
    i.candidate.declaring.name = j.candidate.declaring.name ∧
    i.code.comparedType? = some ⟨"java.lang", ["Integer"], 0⟩ ∧
    j.code.comparedType? = some ⟨"java.lang", ["Integer"], 0⟩ := by
  obtain ⟨case, i, j, tries, isFirst, isSecond⟩ := exists_tries
    ⟨"size", "java.lang.Integer", widgetDecl.name, false⟩
    ⟨"size", "int", widgetDecl.name, false⟩ (by decide +kernel) rfl (by decide +kernel)
  refine ⟨case, i, j, tries, ?_, ?_, ?_⟩
  · rw [isFirst.declaring, isSecond.declaring]
  · rw [comparedType?_setter tries tries.precedes.left_mem isFirst rfl (by decide +kernel)]
    decide +kernel
  · rw [comparedType?_setter tries tries.precedes.right_mem isSecond rfl (by decide +kernel)]
    decide +kernel

end Gallery

end WidgetDsl
