import Mathlib.Data.List.Find
import WidgetDsl.Proofs.ControlFlow
import WidgetDsl.Proofs.Retelling

/-!
What wrappers tell callers about null. A wrapper is for one of the branches for its values, the one
that is tried first, and tells what is known of the first method that its class declares for them.
-/

namespace WidgetDsl

theorem find?_filter_of_find? {α : Type} {keep test : α → Bool} {as : List α} {a : α}
    (found : as.find? test = some a) (kept : keep a = true) :
    (as.filter keep).find? test = some a := by
  obtain ⟨passes, before, after, rfl, others⟩ := List.find?_eq_some_iff_append.mp found
  rw [List.filter_append, List.filter_cons_of_pos kept, List.find?_eq_some_iff_append]
  refine ⟨passes, before.filter keep, after.filter keep, rfl, fun other member => ?_⟩
  exact others other (List.mem_of_mem_filter member)

theorem find?_of_filter_eq_cons {α : Type} {keep : α → Bool} {as : List α} {a : α}
    (found : as.find? keep = some a) : ∃ rest, as.filter keep = a :: rest := by
  have head : (as.filter keep).head? = some a := List.head?_filter.trans found
  exact ⟨(as.filter keep).tail, List.eq_cons_of_mem_head? head⟩

namespace Java

def Part.passesNull : Part → Bool
  | .text s => "arg == null".toList <:+: s.toList
  | .type _ => false

/-- Whether null is among the values that a block is entered for. -/
def CodeBlock.acceptsNull (code : CodeBlock) : Bool :=
  code.lines.head?.any (·.parts.any (·.passesNull))

theorem acceptsNull_ofCalls {parts : List Part} {rest : List Call} {code : CodeBlock}
    (written : CodeBlock.ofCalls (.opening parts :: rest) = .ok code) :
    code.acceptsNull = (parts ++ [Part.text " \x7b"]).any (·.passesNull) := by
  obtain ⟨later, lines⟩ := (Writer.empty.perform (.opening parts)).run_grows rest
  rw [CodeBlock.acceptsNull, (CodeBlock.ofCalls_eq_ok_iff.mp written).2]
  simp only [Writer.run, List.foldl_cons] at lines ⊢
  rw [← lines]
  rfl

theorem isPrimitive_ofBinary {name : String} (primitive : isPrimitive name = true) :
    (TypeName.ofBinary name).isPrimitive = true := by
  have each : ∀ known ∈ primitives.map (·.1), (TypeName.ofBinary known).isPrimitive = true := by
    decide +kernel
  exact each name (mem_primitives_of_isPrimitive primitive)

end Java

theorem Library.Loaded.isPrimitive_name {lib : Library} {type : ResolvedType}
    (loaded : lib.Loaded type) (primitive : type.isPrimitive = true) :
    Java.isPrimitive type.name = true := by
  generalize named : type.name = name
  have built := named ▸ loaded.builds
  cases built with
  | @intro _ definition types defined parts =>
    unfold define? at defined
    split at defined
    · cases Option.some.inj defined
      cases primitive
    split at defined
    · assumption
    split at defined
    · cases Option.some.inj defined
      cases primitive
    · obtain ⟨found, -, rfl⟩ := Option.map_eq_some_iff.mp defined
      simp only [ResolvedType.isPrimitive, Definition.assemble] at primitive
      split at primitive <;> cases primitive

namespace Dispatch

open Java (Part)

theorem acceptsNull_setterBranch {c : Candidate} {root : ResolvedType} {code : Java.CodeBlock}
    (sets : setterBranch c root = .ok code) : code.acceptsNull = c.isNullable := by
  have passes : (Part.text "arg == null || ").passesNull = true := by decide +kernel
  have stops : ∀ text ∈ ["if (", "if (v instanceof ", " && ", "(", "arg instanceof ", ")", " \x7b"],
      (Part.text text).passesNull = false := by
    decide +kernel
  have types (type : Java.TypeName) : (Part.type type).passesNull = false := rfl
  simp only [List.forall_mem_cons] at stops
  unfold setterBranch at sets
  split at sets
  · rw [Java.acceptsNull_ofCalls sets]
    cases nullable : c.isNullable <;> simp [valueTest, nullable, passes, stops, types]
  · rw [Java.acceptsNull_ofCalls sets]
    cases nullable : c.isNullable <;> simp [valueTest, nullable, passes, stops, types]

theorem Case.precedes_of_find? {case : Case} {test : Branch → Bool} {b other : Branch}
    (first : case.branches.find? test = some b) (member : other ∈ case.branches)
    (passes : test other = true) (different : other ≠ b) : case.Precedes b other := by
  obtain ⟨-, before, after, split, failing⟩ := List.find?_eq_some_iff_append.mp first
  have later : other ∈ after := by
    rw [split, List.mem_append, List.mem_cons] at member
    rcases member with earlier | rfl | later
    · have fails := failing other earlier
      rw [passes] at fails
      cases fails
    · exact absurd rfl different
    · exact later
  rw [Case.Precedes, split]
  exact ((List.singleton_sublist.mpr later).cons_cons b).trans (List.sublist_append_right _ _)

theorem find?_branchOrder {root : ResolvedType} {candidates : List Candidate}
    {test : Candidate → Bool} {part : CasePart}
    (within : ∀ c ∈ candidates, test c = true → partOf root.name c = part) :
    (branchOrder root candidates).find? test = candidates.find? test := by
  have here {cs : List Candidate} (inside : ∀ c ∈ cs, c ∈ candidates) :
      cs.find? test = (cs.filter (partOf root.name · = part)).find? test := by
    rw [List.find?_filter]
    apply List.find?_congr
    intro c member
    cases passes : test c with
    | true => simp [within c (inside c member) passes]
    | false => simp
  rw [here fun c member => mem_branchOrder.mp member, branchOrder_filter, ← here fun _ => id]

/-- What a wrapper tells is looked up under the method of the first candidate for its values. -/
theorem Builder.nullability_of_wrapper {builder : Builder} {group : Group} {valueType : String}
    {wrapper : Wrapper} {c : Candidate} (made : builder.wrapper group valueType = .ok wrapper)
    (first : group.candidates.find? (·.valueType.name = valueType) = some c)
    (loaded : builder.library.Loaded c.declaring)
    (typed : c.method.parameters = [valueType]) {m : Method}
    (declared : c.declaring.methods.find? (·.signature = c.method.signature) = some m) :
    wrapper.nullability =
      if wrapper.valueType.isPrimitive then .unknown else builder.oracle.ofParameter m 0 := by
  have test : (c.declaring.methods.find? fun other =>
      other.name = c.method.name && other.parameters = [valueType]) = some m := by
    rw [← declared, ← typed]
    simp [Method.signature]
  rw [(wrapper_fields made).2]
  unfold Builder.wrapper at made
  dsimp only at made
  cases primitive : (Java.TypeName.ofBinary valueType).isPrimitive with
  | true =>
    rw [primitive] at made
    cases made
    rfl
  | false =>
    rw [primitive, first] at made
    obtain ⟨answer, asked, same⟩ := bind_eq_ok.mp made
    cases same
    cases oracle : builder.oracle with
    | silent =>
      rw [oracle] at asked
      cases asked
      rfl
    | annotations nullable nonNull =>
      simp only [oracle, NullabilityOracle.ofMethod, loaded.resolve, test] at asked
      cases asked
      rfl

end Dispatch

namespace Analysis

variable {lib : Library} {root type : ResolvedType} {oracle : NullabilityOracle} {c : Candidate}

theorem kept_empty (type : ResolvedType) (own : List Candidate) : kept .empty type own = own := by
  simp [kept, OverrideTable.excludesClass_eq_false OverrideTable.empty_keeps,
    OverrideTable.excludesMethod_eq_false OverrideTable.empty_keeps]

theorem find?_own {test : Candidate → Bool} (first : (own lib root oracle type).find? test = some c) :
    (type.methods.filter (·.signature = c.method.signature)).find?
        (fun m => (Candidate.made? lib root oracle type m).any test) = some c.method ∧
      Candidate.made? lib root oracle type c.method = some c := by
  rw [own, List.find?_filterMap] at first
  obtain ⟨method, found, made⟩ := Option.bind_eq_some_iff.mp first
  obtain rfl : c.method = method := (Candidate.origin_of_made? made).2
  let keep (other : Method) : Bool := decide (other.signature = c.method.signature)
  have kept := find?_filter_of_find? found (show keep c.method = true by simp [keep])
  have sorted : (Method.inOrder type.methods).filter keep = type.methods.filter keep :=
    Method.filter_signature_inOrder type.methods c.method.signature
  rw [sorted] at kept
  exact ⟨kept, made⟩

end Analysis

namespace Generator

open Dispatch Candidate

variable {generator : Generator} {scan : Scan} {analysis : Analysis} {case : Case} {c : Candidate}

/-- Without overrides, a candidate that stays is made by the first method that its class declares with
the signature, unless that one cannot make any. -/
theorem method_of_stays (plain : generator.overrides = .empty)
    (analyzed : generator.analyzeScan scan = .ok analysis) {name : String}
    (stays : c ∈ (eliminateOverrides (analysis.candidates.filter (·.name = name))).1) {m : Method}
    (declared : c.declaring.methods.find? (·.signature = c.method.signature) = some m)
    (isPublic : m.isPublic = true) (notSynthetic : m.synthetic = false)
    (notBridge : m.bridge = false) (notDeprecated : m.isDeprecated = false) : c.method = m := by
  have first := find?_of_stays stays
  rw [List.find?_filter, (readOff_of_analyzeScan analyzed).candidates, plain, List.find?_flatMap]
    at first
  obtain ⟨declaring, -, first⟩ := List.exists_of_findSome?_eq_some first
  have named := List.find?_some first
  simp only [decide_eq_true_eq] at named
  rw [Analysis.kept_empty] at first
  obtain ⟨found, made⟩ := Analysis.find?_own first
  obtain ⟨valueType, derived, admits, fresh, same⟩ :=
    ofMethod?_eq_some_iff.mp (made?_eq_some_iff.mp made)
  obtain rfl : c.declaring = declaring := congrArg Candidate.declaring same
  have signature : m.signature = c.method.signature := by simpa using List.find?_some declared
  have madeToo : made? scan.library analysis.root generator.effectiveOracle c.declaring m =
      some (ofAdmitted generator.effectiveOracle c.declaring m valueType derived) := by
    refine made?_eq_some_iff.mpr (ofMethod?_eq_some_iff.mpr ⟨valueType, derived, ?_, ?_, rfl⟩)
    · exact admits.of_signature_eq signature isPublic notSynthetic notBridge notDeprecated
    · rw [isRedundant_eq_any, signature, ← isRedundant_eq_any]
      exact fresh
  have alike : c.name = derived.name ∧ c.valueType = valueType := by
    rw [same]
    exact ⟨rfl, rfl⟩
  obtain ⟨rest, front⟩ := find?_of_filter_eq_cons declared
  rw [front, List.find?_cons_of_pos] at found
  · exact (Option.some.inj found).symm
  · simp [madeToo, ofAdmitted, sameTest, ← alike.1, ← alike.2, named]

theorem unit_of_draftScan {draft : Draft} (ran : generator.draftScan scan = .ok draft) :
    ∃ analysis table, generator.analyzeScan scan = .ok analysis ∧
      (generator.builder scan.library analysis.root).build analysis.groups = .ok table ∧
      draft.unit = .ofTable generator.config table
        (Factory.ofClasses analysis.classes generator.overrides).1 := by
  obtain ⟨analysis, analyzed, rest⟩ := bind_eq_ok.mp ran
  obtain ⟨table, tabled, rest⟩ := bind_eq_ok.mp rest
  obtain ⟨source, rendered, same⟩ := bind_eq_ok.mp rest
  cases same
  exact ⟨analysis, table, analyzed, mapError_eq_ok.mp tabled, rfl⟩

theorem forms_of_draftScan {draft : Draft} (ran : generator.draftScan scan = .ok draft)
    (listed : case ∈ draft.unit.cases) :
    ∃ analysis, generator.analyzeScan scan = .ok analysis ∧ generator.Forms scan analysis case := by
  obtain ⟨analysis, table, analyzed, built, unit⟩ := unit_of_draftScan ran
  rw [unit] at listed
  exact ⟨analysis, analyzed, forms_of_mem_cases analyzed (mapError_of_ok built) listed⟩

/-- A wrapper for values of a type is made of the same group as a case. -/
structure Leads (generator : Generator) (scan : Scan) (wrapper : Wrapper) (analysis : Analysis)
    (case : Case) (valueType : String) : Prop where
  analyzed : generator.analyzeScan scan = .ok analysis
  forms : generator.Forms scan analysis case
  survives : ∃ b ∈ case.branches, b.candidate.valueType.name = valueType
  wraps : (generator.builder scan.library analysis.root).wrapper (Group.ofCandidates case.name
    (analysis.candidates.filter (·.name = case.name))) valueType = .ok wrapper

theorem leads_of_mem_wrappers {draft : Draft} (ran : generator.draftScan scan = .ok draft)
    {wrapper : Wrapper} (member : wrapper ∈ draft.unit.wrappers) :
    ∃ case ∈ draft.unit.cases, ∃ analysis valueType,
      generator.Leads scan wrapper analysis case valueType := by
  obtain ⟨analysis, table, analyzed, built, unit⟩ := unit_of_draftScan ran
  have finds := finds_of_analyzeScan analyzed
  obtain ⟨entries, enters, rfl⟩ := Builder.entries_of_ofSorted built
  rw [unit] at member ⊢
  obtain ⟨entry, listed, inside⟩ := List.mem_flatMap.mp member
  obtain ⟨group, present, enter⟩ := exists_left_of_forall₂ enters listed
  have grouped : group ∈ Group.ofAll analysis.candidates := by
    rw [← finds.groups]
    exact List.mem_mergeSort.mp (List.mem_filter.mp present).1
  obtain ⟨named, covers⟩ := covers_of_caseOf enter.case
  have wrappers := enter.wrappers
  rw [Group.name_of_mem_ofAll grouped, ← named] at covers wrappers
  unfold Builder.wrappers at wrappers
  split at wrappers
  · obtain ⟨made, each, same⟩ := map_eq_ok.mp wrappers
    obtain rfl : made = entry.wrappers := congrArg Prod.fst same
    obtain ⟨valueType, values, wraps⟩ := (mem_of_mapM_eq_ok each).mp inside
    obtain ⟨c, stays, rfl⟩ := Group.mem_valueTypes.mp values
    have kept : c ∈ entry.case.branches.map (·.candidate) := by
      rw [covers.candidates]
      exact mem_branchOrder.mpr stays
    obtain ⟨b, branch, rfl⟩ := List.mem_map.mp kept
    exact ⟨entry.case, List.mem_map_of_mem listed, analysis, _, analyzed, ⟨finds, covers⟩,
      ⟨b, branch, rfl⟩, wraps⟩
  · have none : [] = entry.wrappers := congrArg Prod.fst (Except.ok.inj wrappers)
    rw [← none] at inside
    cases inside

theorem exists_wrapper {draft : Draft} (ran : generator.draftScan scan = .ok draft)
    (analyzed : generator.analyzeScan scan = .ok analysis) (member : c ∈ analysis.candidates)
    (free : Java.isFreeIdentifier c.name = true) : ∃ wrapper ∈ draft.unit.wrappers,
      wrapper.name = c.name ∧ wrapper.valueType = .ofBinary c.valueType.name := by
  obtain ⟨_, table, analyzedToo, built, unit⟩ := unit_of_draftScan ran
  obtain rfl := Except.ok.inj (analyzed.symm.trans analyzedToo)
  have finds := finds_of_analyzeScan analyzed
  obtain ⟨entries, enters, rfl⟩ := Builder.entries_of_ofSorted built
  obtain ⟨group, inside, named, stays, kept, values, -⟩ := finds.exists_stays_within member
  have present : group ∈ (Group.inNameOrder analysis.groups).filter (!·.candidates.isEmpty) := by
    rw [List.mem_filter]
    exact ⟨List.mem_mergeSort.mpr inside, by simpa using List.ne_nil_of_mem kept⟩
  obtain ⟨entry, listed, enter⟩ := exists_left_of_forall₂ enters.flip present
  have wrappers := enter.wrappers
  rw [Builder.wrappers, named, if_pos free] at wrappers
  obtain ⟨made, each, same⟩ := map_eq_ok.mp wrappers
  obtain rfl : made = entry.wrappers := congrArg Prod.fst same
  have answer := List.mem_map_of_mem (f := (generator.builder scan.library analysis.root).wrapper group)
    (Group.mem_valueTypes.mpr ⟨stays, kept, congrArg ResolvedType.name values⟩)
  rw [mapM_eq_ok.mp each] at answer
  obtain ⟨wrapper, inEntry, wraps⟩ := List.mem_map.mp answer
  obtain ⟨name, valueType⟩ := Builder.wrapper_fields wraps.symm
  rw [unit]
  exact ⟨wrapper, List.mem_flatMap.mpr ⟨entry, listed, inEntry⟩, name.trans named, valueType⟩

namespace Forms

variable {i j b : Branch}

theorem stays (forms : generator.Forms scan analysis case) (member : b ∈ case.branches) :
    b.candidate ∈ (eliminateOverrides (analysis.candidates.filter (·.name = case.name))).1 := by
  have kept : b.candidate ∈ case.branches.map (·.candidate) := List.mem_map_of_mem member
  rw [forms.covers.candidates, mem_branchOrder] at kept
  exact List.mem_mergeSort.mp kept

/-- Of branches for the same values all are for the root or all for classes below it: one that is for a
class below shadows one for the root. -/
theorem declaring_root (forms : generator.Forms scan analysis case) (first : i ∈ case.branches)
    (second : j ∈ case.branches)
    (values : i.candidate.valueType.name = j.candidate.valueType.name)
    (onRoot : j.candidate.declaring.name = analysis.root.name) :
    i.candidate.declaring.name = analysis.root.name := by
  by_contra notRoot
  have found := (forms.candidate first).1
  have below := (forms.finds.class_below (forms.finds.candidate found).1).resolve_left notRoot
  have shadows : i.candidate.shadows j.candidate = true := by
    refine shadows_iff.mpr ⟨values, ?_⟩
    rw [ResolvedType.isSubtypeOf, onRoot]
    exact below
  have unshadowed := unshadowed_of_stays (forms.stays second) i.candidate
    (mem_of_stays (forms.stays first))
  rw [shadows] at unshadowed
  cases unshadowed

theorem find?_branches (forms : generator.Forms scan analysis case) {valueType : String}
    (setters : ∀ b ∈ case.branches, b.candidate.valueType.name = valueType →
      b.candidate.isListener = false) :
    (case.branches.find? (·.candidate.valueType.name = valueType)).map (·.candidate) =
      (Group.ofCandidates case.name (analysis.candidates.filter
        (·.name = case.name))).candidates.find? (·.valueType.name = valueType) := by
  generalize grouped : (Group.ofCandidates case.name
    (analysis.candidates.filter (·.name = case.name))).candidates = candidates
  have covered : case.branches.map (·.candidate) = branchOrder analysis.root candidates := by
    rw [forms.covers.candidates, grouped]
  have branchOf {c : Candidate} (member : c ∈ candidates) : ∃ b ∈ case.branches, b.candidate = c := by
    have inOrder : c ∈ branchOrder analysis.root candidates := mem_branchOrder.mpr member
    rw [← covered] at inOrder
    exact List.mem_map.mp inOrder
  have within : ∃ part, ∀ c ∈ candidates, decide (c.valueType.name = valueType) = true →
      partOf analysis.root.name c = part := by
    by_cases some : ∃ first ∈ candidates, first.valueType.name = valueType
    · obtain ⟨first, member, value⟩ := some
      refine ⟨partOf analysis.root.name first, fun c memberToo valueToo => ?_⟩
      obtain ⟨i, branch, rfl⟩ := branchOf member
      obtain ⟨j, branchToo, rfl⟩ := branchOf memberToo
      have values : i.candidate.valueType.name = j.candidate.valueType.name :=
        value.trans (of_decide_eq_true valueToo).symm
      have onRoot : i.candidate.declaring.name = analysis.root.name ↔
          j.candidate.declaring.name = analysis.root.name :=
        ⟨forms.declaring_root branchToo branch values.symm, forms.declaring_root branch branchToo values⟩
      simp [partOf, onRoot, setters i branch value, setters j branchToo (of_decide_eq_true valueToo)]
    · exact ⟨.belowRoot, fun c member value => absurd ⟨c, member, of_decide_eq_true value⟩ some⟩
  obtain ⟨part, within⟩ := within
  rw [← find?_branchOrder within, ← covered, List.find?_map]
  rfl

theorem acceptsNull (forms : generator.Forms scan analysis case)
    (plain : generator.overrides = .empty) (member : b ∈ case.branches)
    (setter : b.candidate.isListener = false) : b.code.acceptsNull = b.candidate.isNullable := by
  obtain ⟨last, result⟩ := forms.covers.each b member
  rcases branch_cases result with ⟨code, replaced, -⟩ | ⟨listener, -⟩ | ⟨-, code, sets, made⟩
  · rw [plain] at replaced
    cases replaced
  · rw [setter] at listener
    cases listener
  · have written : b.code = code := congrArg Branch.code made
    rw [written, acceptsNull_setterBranch sets]

end Forms

namespace Leads

variable {wrapper : Wrapper} {valueType : String} {b : Branch}

theorem name_eq (leads : generator.Leads scan wrapper analysis case valueType) :
    wrapper.name = case.name :=
  (Builder.wrapper_fields leads.wraps).1

theorem valueType_eq (leads : generator.Leads scan wrapper analysis case valueType) :
    wrapper.valueType = .ofBinary valueType :=
  (Builder.wrapper_fields leads.wraps).2

theorem exists_first (leads : generator.Leads scan wrapper analysis case valueType) :
    ∃ b, case.branches.find? (·.candidate.valueType.name = valueType) = some b := by
  obtain ⟨b, member, value⟩ := leads.survives
  apply Option.isSome_iff_exists.mp
  exact List.find?_isSome.mpr ⟨b, member, by simp [value]⟩

theorem nullability_eq (leads : generator.Leads scan wrapper analysis case valueType)
    (setters : ∀ b ∈ case.branches, b.candidate.valueType.name = valueType →
      b.candidate.isListener = false)
    (first : case.branches.find? (·.candidate.valueType.name = valueType) = some b) {m : Method}
    (declared : b.candidate.declaring.methods.find? (·.signature = b.candidate.method.signature) =
      some m) :
    wrapper.nullability = if wrapper.valueType.isPrimitive then .unknown
      else generator.effectiveOracle.ofParameter m 0 := by
  have candidate := leads.forms.find?_branches setters
  rw [first, Option.map_some] at candidate
  have found := (leads.forms.candidate (List.mem_of_find?_eq_some first)).1
  have value : b.candidate.valueType.name = valueType := by simpa using List.find?_some first
  have typed := (leads.forms.finds.candidate_parameter found).1
  rw [value] at typed
  exact Builder.nullability_of_wrapper leads.wraps candidate.symm
    (leads.forms.finds.candidate_loaded found).2 typed declared

end Leads

theorem Finds.isNullable_eq (finds : generator.Finds scan analysis) (member : c ∈ analysis.candidates)
    (setter : c.isListener = false) : c.isNullable = (!c.valueType.isPrimitive &&
      generator.effectiveOracle.ofParameter c.method 0 = .nullable) := by
  obtain ⟨_, _, _, _, _, _, makes⟩ := (finds.candidates _).mp member
  obtain ⟨valueType, derived, -, -, same⟩ := ofMethod?_eq_some_iff.mp makes
  rw [same] at setter ⊢
  have notListener : derived.isListener = false := setter
  simp [ofAdmitted, notListener]

/-- Where a wrapper tells what is known of a branch's own method, that branch does as it tells. -/
theorem Leads.accepts_as_told {valueType : String}
    (leads : generator.Leads scan wrapper analysis case valueType)
    (plain : generator.overrides = .empty) (member : b ∈ case.branches)
    (value : b.candidate.valueType.name = valueType) (setter : b.candidate.isListener = false)
    (tells : wrapper.nullability = if wrapper.valueType.isPrimitive then .unknown
      else generator.effectiveOracle.ofParameter b.candidate.method 0) :
    (wrapper.nullability = .nonNullable → b.code.acceptsNull = false) ∧
      (wrapper.nullability = .nullable → b.code.acceptsNull = true) := by
  have found := (leads.forms.candidate member).1
  have accepts := (leads.forms.acceptsNull plain member setter).trans
    (leads.forms.finds.isNullable_eq found setter)
  rw [accepts, tells]
  cases primitive : wrapper.valueType.isPrimitive with
  | true => simp
  | false =>
    have notPrimitive : b.candidate.valueType.isPrimitive = false := by
      rw [Bool.eq_false_iff]
      intro isPrimitive
      have named := (leads.forms.loaded member).1.isPrimitive_name isPrimitive
      rw [leads.valueType_eq, ← value, Java.isPrimitive_ofBinary named] at primitive
      cases primitive
    constructor
    · intro nonNull
      simp only [Bool.false_eq_true, if_false] at nonNull
      simp [nonNull]
    · intro nullable
      simp only [Bool.false_eq_true, if_false] at nullable
      simp [nullable, notPrimitive]

/-- What wrappers tell by default is about the branch that is tried first for their values, as far as
all of these call plain setters: what is known of the first method of its class and signature. If that
method can be called, it is the branch's, and callers are told of null just what the branch does. -/
theorem contract_of_first_branch (generator : Generator) (plain : generator.overrides = .empty)
    (annotated : generator.oracle = none) (scan : Scan) (draft : Draft)
    (ran : generator.draftScan scan = .ok draft) (wrapper : Wrapper)
    (member : wrapper ∈ draft.unit.wrappers) :
    ∃ case ∈ draft.unit.cases, ∃ valueType, wrapper.name = case.name ∧
      wrapper.valueType = .ofBinary valueType ∧
      ((∀ b ∈ case.branches, b.candidate.valueType.name = valueType →
          b.candidate.isListener = false) →
        ∃ b m, case.branches.find? (·.candidate.valueType.name = valueType) = some b ∧
          b.candidate.declaring.methods.find? (·.signature = b.candidate.method.signature) = some m ∧
          wrapper.nullability = (if wrapper.valueType.isPrimitive then .unknown
            else generator.config.annotationOracle.ofParameter m 0) ∧
          (m.isPublic = true → m.synthetic = false → m.bridge = false → m.isDeprecated = false →
            b.candidate.method = m ∧
            (wrapper.nullability = .nonNullable → b.code.acceptsNull = false) ∧
            (wrapper.nullability = .nullable → b.code.acceptsNull = true))) := by
  obtain ⟨case, listed, analysis, valueType, leads⟩ := leads_of_mem_wrappers ran member
  refine ⟨case, listed, valueType, leads.name_eq, leads.valueType_eq, fun setters => ?_⟩
  obtain ⟨b, first⟩ := leads.exists_first
  have branch := List.mem_of_find?_eq_some first
  have value : b.candidate.valueType.name = valueType := by simpa using List.find?_some first
  have found := (leads.forms.candidate branch).1
  have owned := (leads.forms.finds.candidate found).2.1
  obtain ⟨m, declared⟩ : ∃ m, b.candidate.declaring.methods.find?
      (·.signature = b.candidate.method.signature) = some m := by
    apply Option.isSome_iff_exists.mp
    exact List.find?_isSome.mpr ⟨b.candidate.method, owned, by simp⟩
  have tells := leads.nullability_eq setters first declared
  have oracle : generator.effectiveOracle = generator.config.annotationOracle := by
    rw [effectiveOracle, annotated]
    rfl
  refine ⟨b, m, first, declared, oracle ▸ tells, fun isPublic notSynthetic notBridge current => ?_⟩
  have own := method_of_stays plain leads.analyzed (leads.forms.stays branch) declared isPublic
    notSynthetic notBridge current
  rw [← own] at tells
  exact ⟨own, leads.accepts_as_told plain branch value (setters b branch value) tells⟩

end Generator

namespace Storefront

open Dispatch
open Sample (setter)

variable {analysis : Analysis} {case : Case} {wrapper : Wrapper} {valueType : String} {b : Branch}

theorem exists_ran : ∃ draft, generator.draftScan scan = .ok draft := by
  obtain ⟨analysis, analyzed⟩ := spans.exists_analysis
  exact Generator.exists_draft analyzed (replaces_empty _)

theorem branch_profile (forms : generator.Forms scan analysis case)
    (analyzed : generator.analyzeScan scan = .ok analysis) (member : b ∈ case.branches) :
    profileOf b.candidate ∈ profiles.filter (·.name = case.name) := by
  obtain ⟨found, named⟩ := forms.candidate member
  have listed := (mem_profiles analyzed).mpr ⟨_, found, rfl⟩
  exact List.mem_filter.mpr ⟨listed, decide_eq_true named⟩

theorem setters (forms : generator.Forms scan analysis case)
    (analyzed : generator.analyzeScan scan = .ok analysis) (member : b ∈ case.branches) :
    b.candidate.isListener = false := by
  have plain : ∀ profile ∈ profiles, profile.isListener = false := by decide +kernel
  exact plain _ (List.mem_filter.mp (branch_profile forms analyzed member)).1

theorem find?_declared (forms : generator.Forms scan analysis case) (member : b ∈ case.branches) :
    b.candidate.declaring.methods.find? (·.signature = b.candidate.method.signature) =
      (scan.library.methodsOf (profileOf b.candidate).place.declaringName).find?
        (·.signature = (profileOf b.candidate).method.signature) := by
  rw [Library.methods_of_resolve (forms.loaded member).2.resolve]
  rfl

structure Serves (draft : Draft) (wrapper : Wrapper) (case : Case) : Prop where
  wrapperListed : wrapper ∈ draft.unit.wrappers
  caseListed : case ∈ draft.unit.cases
  name : wrapper.name = case.name
  valueType : wrapper.valueType = .ofBinary "java.lang.String"
  setters : ∀ b ∈ case.branches, b.candidate.isListener = false

theorem exists_serves {profile : Profile} (listed : profile ∈ profiles)
    (value : profile.place.valueName = "java.lang.String") {draft : Draft}
    (ran : generator.draftScan scan = .ok draft) :
    ∃ wrapper case analysis, Serves draft wrapper case ∧ case.name = profile.name ∧
      generator.Leads scan wrapper analysis case "java.lang.String" := by
  have free : ∀ profile ∈ profiles, Java.isFreeIdentifier profile.name = true := by decide +kernel
  have oneType : ∀ first ∈ profiles, ∀ second ∈ profiles, first.name = second.name →
      first.place.valueName = second.place.valueName := by
    decide +kernel
  obtain ⟨analysis, analyzed⟩ := spans.exists_analysis
  obtain ⟨c, member, rfl⟩ := (mem_profiles analyzed).mp listed
  obtain ⟨wrapper, inside, named, -⟩ :=
    Generator.exists_wrapper ran analyzed member (free _ listed)
  obtain ⟨case, caseListed, analysis, valueType, leads⟩ := Generator.leads_of_mem_wrappers ran inside
  have caseNamed : case.name = c.name := leads.name_eq.symm.trans named
  obtain ⟨b, branch, valued⟩ := leads.survives
  obtain ⟨inProfiles, sameName⟩ := List.mem_filter.mp (branch_profile leads.forms leads.analyzed branch)
  have texts : b.candidate.valueType.name = "java.lang.String" :=
    (oneType _ inProfiles _ listed ((of_decide_eq_true sameName).trans caseNamed)).trans value
  obtain rfl : valueType = "java.lang.String" := valued.symm.trans texts
  exact ⟨wrapper, case, analysis, ⟨inside, caseListed, leads.name_eq, leads.valueType_eq,
    fun b member => setters leads.forms leads.analyzed member⟩, caseNamed, leads⟩

theorem exists_branch (forms : generator.Forms scan analysis case)
    (analyzed : generator.analyzeScan scan = .ok analysis) {profile : Profile}
    (listed : profile ∈ profiles) (named : case.name = profile.name) :
    ∃ b ∈ case.branches, profileOf b.candidate = profile := by
  have onePlace : ∀ first ∈ profiles, ∀ second ∈ profiles, first.name = second.name →
      first.place = second.place → first = second := by
    decide +kernel
  obtain ⟨c, found, rfl⟩ := (mem_profiles analyzed).mp listed
  obtain ⟨b, branch, values, classes⟩ := forms.exists_branch found named.symm
    fun other inside _ => unshadowed analyzed found inside
  obtain ⟨inProfiles, sameName⟩ := List.mem_filter.mp (branch_profile forms analyzed branch)
  have place : b.candidate.specificity = c.specificity := by
    rw [Candidate.specificity, Candidate.specificity, values, classes]
  have name : b.candidate.name = c.name := (of_decide_eq_true sameName).trans named
  exact ⟨b, branch, onePlace _ inProfiles _ listed name place⟩

theorem first_text (forms : generator.Forms scan analysis case)
    (analyzed : generator.analyzeScan scan = .ok analysis) (named : case.name = "text")
    (first : case.branches.find? (·.candidate.valueType.name = "java.lang.String") = some b) :
    profileOf b.candidate = labelText := by
  have texts : profiles.filter (·.name = "text") = [labelText, panelText] := by decide +kernel
  have profile := branch_profile forms analyzed (List.mem_of_find?_eq_some first)
  rw [named, texts, List.mem_cons, List.mem_singleton] at profile
  rcases profile with label | panel
  · exact label
  obtain ⟨other, branch, label⟩ :=
    exists_branch forms analyzed (show labelText ∈ profiles by decide) named
  have different : other ≠ b := by
    rintro rfl
    exact absurd (label.symm.trans panel) (by decide)
  have place : b.candidate.specificity = panelText.place := congrArg Profile.place panel
  have placeToo : other.candidate.specificity = labelText.place := congrArg Profile.place label
  have valued : other.candidate.valueType.name = "java.lang.String" :=
    congrArg Candidate.Specificity.valueName placeToo
  have onPanel : b.candidate.declaring.name = panelDecl.name :=
    congrArg Candidate.Specificity.declaringName place
  have onLabel : other.candidate.declaring.name = labelDecl.name :=
    congrArg Candidate.Specificity.declaringName placeToo
  have precedes := Case.precedes_of_find? first branch (decide_eq_true valued) different
  rcases forms.ordered precedes with earlier | ⟨-, le⟩
  · have panelBelow : partOf generator.config.root b.candidate = .belowRoot :=
      partOf_eq_belowRoot_iff.mpr (by rw [onPanel]; decide)
    have labelBelow : partOf generator.config.root other.candidate = .belowRoot :=
      partOf_eq_belowRoot_iff.mpr (by rw [onLabel]; decide)
    rw [panelBelow, labelBelow] at earlier
    exact absurd earlier (Nat.lt_irrefl _)
  · rw [place, placeToo] at le
    exact absurd le (by decide)

theorem text_told : generator.overrides = .empty ∧ generator.oracle = none ∧
    ∃ draft, generator.draftScan scan = .ok draft ∧ ∃ wrapper ∈ draft.unit.wrappers,
      wrapper.nullability = .nonNullable ∧ ∃ case ∈ draft.unit.cases, case.name = "text" ∧
        ∃ b, case.branches.find? (·.candidate.valueType.name = "java.lang.String") = some b ∧
          b.code.acceptsNull = false := by
  obtain ⟨draft, ran⟩ := exists_ran
  obtain ⟨wrapper, textCase, _, serves, named, -⟩ :=
    exists_serves (show labelText ∈ profiles by decide) rfl ran
  obtain ⟨case, listed, valueType, caseNamed, -, contract⟩ :=
    Generator.contract_of_first_branch generator rfl rfl scan draft ran wrapper serves.wrapperListed
  obtain ⟨analysis, analyzed, forms⟩ := Generator.forms_of_draftScan ran listed
  have text : case.name = "text" := caseNamed.symm.trans (serves.name.trans named)
  obtain ⟨b, m, first, declared, tells, agrees⟩ :=
    contract fun b member _ => setters forms analyzed member
  have branch := List.mem_of_find?_eq_some first
  have strings : ∀ profile ∈ profiles.filter (·.name = "text"),
      profile.place.valueName = "java.lang.String" := by
    decide +kernel
  have value : b.candidate.valueType.name = valueType := by simpa using List.find?_some first
  obtain rfl : valueType = "java.lang.String" :=
    value.symm.trans (strings _ (text ▸ branch_profile forms analyzed branch))
  have label := first_text forms analyzed text first
  rw [find?_declared forms branch, label] at declared
  obtain rfl : m = labelText.method := Option.some.inj <|
    declared.symm.trans (show _ = some labelText.method by decide +kernel)
  have nonNull : wrapper.nullability = .nonNullable := by
    rw [tells, serves.valueType]
    decide +kernel
  exact ⟨rfl, rfl, draft, ran, wrapper, serves.wrapperListed, nonNull, case, listed, text, b, first,
    (agrees rfl rfl rfl rfl).2.1 nonNull⟩

/-- A wrapper for texts does not take null although a branch does, and another one takes null although
no branch does. -/
theorem contracts_broken : generator.overrides = .empty ∧ generator.oracle = none ∧
    ∃ draft, generator.draftScan scan = .ok draft ∧
      (∃ wrapper case, Serves draft wrapper case ∧ wrapper.nullability = .nonNullable ∧
        ∃ b ∈ case.branches, b.candidate.valueType.name = "java.lang.String" ∧
          b.code.acceptsNull = true) ∧
      ∃ wrapper case, Serves draft wrapper case ∧ wrapper.nullability = .nullable ∧
        ∀ b ∈ case.branches, b.candidate.valueType.name = "java.lang.String" →
          b.code.acceptsNull = false := by
  obtain ⟨draft, ran⟩ := exists_ran
  refine ⟨rfl, rfl, draft, ran, ?_, ?_⟩
  · obtain ⟨wrapper, case, analysis, serves, named, leads⟩ :=
      exists_serves (show labelText ∈ profiles by decide) rfl ran
    obtain ⟨b, first⟩ := leads.exists_first
    have label := first_text leads.forms leads.analyzed named first
    have declared := find?_declared leads.forms (List.mem_of_find?_eq_some first)
    rw [label] at declared
    have tells := leads.nullability_eq (fun b member _ => serves.setters b member) first
      (declared.trans (show _ = some labelText.method by decide +kernel))
    refine ⟨wrapper, case, serves, ?_, ?_⟩
    · rw [tells, serves.valueType]
      decide +kernel
    · obtain ⟨b, branch, panel⟩ :=
        exists_branch leads.forms leads.analyzed (show panelText ∈ profiles by decide) named
      refine ⟨b, branch, congrArg (·.place.valueName) panel, ?_⟩
      rw [leads.forms.acceptsNull rfl branch (serves.setters b branch)]
      exact congrArg Profile.isNullable panel
  · obtain ⟨wrapper, case, analysis, serves, named, leads⟩ :=
      exists_serves (show labelTitle ∈ profiles by decide) rfl ran
    have titles : profiles.filter (·.name = "title") = [labelTitle] := by decide +kernel
    have title {b : Branch} (member : b ∈ case.branches) : profileOf b.candidate = labelTitle := by
      have profile := branch_profile leads.forms leads.analyzed member
      rw [named] at profile
      exact List.mem_singleton.mp (titles ▸ profile)
    obtain ⟨b, first⟩ := leads.exists_first
    have branch := List.mem_of_find?_eq_some first
    have declared := find?_declared leads.forms branch
    rw [title branch] at declared
    have tells := leads.nullability_eq (fun b member _ => serves.setters b member) first
      (declared.trans (show _ = some { annotated "androidx.annotation.Nullable"
        (setter "setTitle" "java.lang.String") with bridge := true } by decide +kernel))
    refine ⟨wrapper, case, serves, ?_, fun b member _ => ?_⟩
    · rw [tells, serves.valueType]
      decide +kernel
    · rw [leads.forms.acceptsNull rfl member (serves.setters b member)]
      exact congrArg Profile.isNullable (title member)

end Storefront

end WidgetDsl
