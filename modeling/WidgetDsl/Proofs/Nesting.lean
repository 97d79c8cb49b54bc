import WidgetDsl.Proofs.Completion
import WidgetDsl.Proofs.Scopes

/-!
The nesting of a unit's class where none of its code is given by hand. Blocks are closed at the depth
that they are opened at, and braces are balanced unless a name has one.
-/

namespace WidgetDsl

open Java

variable {imports : ImportTable} {clean : Prop}

namespace Java

@[simp] theorem isBraceless_repr (n : Nat) : isBraceless n.repr = true := by
  have digits : ∀ c ∈ n.repr.toList, c.isDigit = true := by
    intro c member
    have digit : c ∈ Nat.toDigits 10 n := by simpa using member
    exact Nat.isDigit_of_mem_toDigits (by decide) (by decide) digit
  simp only [isBraceless, List.all_eq_true, Bool.and_eq_true, bne_iff_ne]
  intro c member
  constructor
  · rintro rfl
    exact absurd (digits _ member) (by decide)
  · rintro rfl
    exact absurd (digits _ member) (by decide)

end Java

namespace Dispatch

theorem isBraceless_parameterParts (index : Nat) (types : List String) :
    ∀ part ∈ parameterParts index types, part.isBraceless = true := by
  induction types generalizing index with
  | nil => nofun
  | cons type rest ih =>
    simp only [parameterParts, List.forall_mem_append, List.forall_mem_cons]
    refine ⟨⟨?_, rfl, ?_, nofun⟩, ih (index + 1)⟩
    · split <;> simp +decide
    · simp +decide

@[simp] theorem isBraceless_argumentList (count : Nat) : isBraceless (argumentList count) = true := by
  refine isBraceless_intercalate ", " rfl fun s member => ?_
  obtain ⟨index, -, rfl⟩ := List.mem_map.mp member
  simp +decide

theorem structured_forwardingMethod (listener : TypeName) (names : RuntimeNames) {m : Method}
    (named : clean → isBraceless m.name = true) :
    Structured imports clean (forwardingMethod listener names m) where
  leaves inside := by
    unfold forwardingMethod
    split <;> rfl
  tidy := by
    have parameters := isBraceless_parameterParts 0 m.parameters
    unfold forwardingMethod
    split <;> simp +contextual +decide [Call.Tidy, or_imp, parameters, named]

theorem structured_separated {blocks : List (List Call)}
    (each : ∀ calls ∈ blocks, Structured imports clean calls) :
    Structured imports clean (separated blocks) := by
  induction blocks using separated.induct with
  | case1 => exact .nil
  | case2 calls => exact each calls (by simp)
  | case3 calls rest more ih =>
    rw [separated]
    · exact (each calls (by simp)).append
        (.append .emptyLine (ih fun other member => each other (by simp [member])))
    · exact more

theorem nested_implementation (imports : ImportTable) {interface : ResolvedType}
    {names : RuntimeNames} {code : CodeBlock}
    (named : ∀ member ∈ interface.abstractMethods, clean → isBraceless member.method.name = true)
    (written : implementation interface names = .ok code) :
    Nested imports clean [] 0 code.lines := by
  refine (structured_separated fun calls member => ?_).nested written
  obtain ⟨required, inside, rfl⟩ := List.mem_map.mp member
  exact structured_forwardingMethod _ _ (named required inside)

theorem isBraceless_receiver (candidate : Candidate) (onRoot : Bool) :
    ∀ part ∈ receiver candidate onRoot, part.isBraceless = true := by
  cases onRoot <;> simp +decide [receiver]

theorem structured_guarded {candidate : Candidate} {listener : TypeName} {onRoot exhaustive : Bool}
    {calls : List Call} (inner : Structured imports clean calls) :
    Structured imports clean (listenerGuard candidate listener onRoot exhaustive ++ calls ++
      if (listenerGuard candidate listener onRoot exhaustive).isEmpty then [] else [.closing ""]) := by
  unfold listenerGuard
  split
  · split
    · simpa using inner
    · exact inner.block (by simp +decide)
  · exact inner.block (by simp +decide)

theorem nested_listenerBranch (imports : ImportTable) {candidate : Candidate}
    {root : ResolvedType} {names : RuntimeNames} {exhaustive : Bool} {code : CodeBlock}
    (setter : clean → isBraceless candidate.method.name = true)
    (callbacks : ∀ member ∈ candidate.valueType.abstractMethods,
      clean → isBraceless member.method.name = true)
    (listens : listenerBranch candidate root names exhaustive = .ok code) :
    Nested imports clean [] 0 code.lines := by
  obtain ⟨members, implemented, written⟩ := bind_eq_ok.mp listens
  have inner := nested_implementation imports callbacks implemented
  have target := isBraceless_receiver candidate (candidate.declaring.name = root.name)
  refine Structured.nested (structured_guarded ⟨fun inside => rfl, ?_⟩) written
  simp +contextual +decide [Call.Tidy, or_imp, target, setter, inner]

theorem isBraceless_valueTest (candidate : Candidate) (value : TypeName) :
    ∀ part ∈ valueTest candidate value, part.isBraceless = true := by
  unfold valueTest
  split <;> simp +decide

theorem nested_setterBranch (imports : ImportTable) {candidate : Candidate}
    {root : ResolvedType} {code : CodeBlock}
    (setter : clean → isBraceless candidate.method.name = true)
    (sets : setterBranch candidate root = .ok code) : Nested imports clean [] 0 code.lines := by
  have test := isBraceless_valueTest candidate (.ofBinary candidate.valueType.name)
  unfold setterBranch at sets
  split at sets
  · refine Structured.nested ⟨fun inside => rfl, ?_⟩ sets
    simp +contextual +decide [Call.Tidy, or_imp, test, setter]
  · refine Structured.nested ⟨fun inside => rfl, ?_⟩ sets
    cases candidate.isNullable <;>
      simp +contextual +decide [Call.Tidy, or_imp, test, setter]

/-- Whether a branch is the one that is made for its candidate where no override replaces it. -/
def Branch.IsDefault (b : Branch) : Prop :=
  b.replaced = false ∧
    ∃ root names overrides last, branch root names overrides b.candidate last = .ok b

theorem nested_of_isDefault {b : Branch} (default : b.IsDefault)
    (setter : clean → isBraceless b.candidate.method.name = true)
    (callbacks : b.candidate.isListener = true → ∀ member ∈ b.candidate.valueType.abstractMethods,
      clean → isBraceless member.method.name = true) : Nested imports clean [] 0 b.code.lines := by
  obtain ⟨kept, root, names, overrides, last, made⟩ := default
  rcases branch_cases made with ⟨code, -, same⟩ | ⟨listener, code, listens, same⟩ |
    ⟨-, code, sets, same⟩
  · rw [same] at kept
    cases kept
  · have nested := nested_listenerBranch imports setter (callbacks listener) listens
    rw [same]
    exact nested
  · have nested := nested_setterBranch imports setter sets
    rw [same]
    exact nested

end Dispatch

namespace CompilationUnit

theorem structured_factoryMethods (names : RuntimeNames) {factory : Factory}
    (named : clean → isBraceless factory.name = true) :
    Structured imports clean (factoryMethods names factory) where
  leaves _ := rfl
  tidy := by simp +contextual +decide [factoryMethods, Call.Tidy, named]

theorem structured_wrapperMethod (names : RuntimeNames) {wrapper : Dispatch.Wrapper}
    (named : clean → isBraceless wrapper.name = true) :
    Structured imports clean (wrapperMethod names wrapper) where
  leaves _ := rfl
  tidy := by
    have contract : ∀ part ∈ contract names wrapper.nullability, part.isBraceless = true := by
      cases wrapper.nullability <;> simp +decide [contract]
    simp +contextual +decide [wrapperMethod, Call.Tidy, or_imp, contract, named]

theorem structured_caseCalls {case : Dispatch.Case} (named : clean → isBraceless case.name = true)
    (nested : ∀ b ∈ case.branches, Nested imports clean [] 0 b.code.lines) :
    Structured imports clean (caseCalls case) := by
  have plain : ("case \"" ++ case.name ++ "\":").toList.getLast? ≠ some '\x7b' := by
    rw [String.toList_append, List.getLast?_append_of_ne_nil _ (by decide)]
    decide
  have label : Structured imports clean [.line ["case \"" ++ case.name ++ "\":"]] :=
    .line plain fun cleanly => by simp +decide [named cleanly]
  have branches : Structured imports clean (case.branches.map fun b => .block b.code) := by
    rw [← List.flatMap_singleton' (case.branches.map fun b => Call.block b.code), List.flatMap_map]
    exact .flatMap fun b member => .code (nested b member)
  have ending : Structured imports clean
      (if case.exhaustive then [] else [.statement ["break"]]) := by
    split
    · exact .nil
    · exact .statement (by simp +decide)
  have whole := label.append (branches.append ending).margin
  simpa only [caseCalls, List.append_assoc, List.cons_append, List.nil_append] using whole

theorem structured_setMethod (names : RuntimeNames) {cases : List Dispatch.Case}
    (each : ∀ case ∈ cases, Structured imports clean (caseCalls case)) :
    Structured imports clean (setMethod names cases) := by
  have switch : Structured imports clean
      (.opening ["switch (name)"] :: cases.flatMap caseCalls ++ [.closing ""]) :=
    (Structured.flatMap each).block (by simp +decide)
  have last : Structured imports clean [.statement ["return false"]] :=
    .statement (by simp +decide)
  have whole : Structured imports clean (.opening ["public boolean set(", names.root, " v, ",
      stringType, " name, final ", objectType, " arg, final ", objectType, " old)"] ::
      ((.opening ["switch (name)"] :: cases.flatMap caseCalls ++ [.closing ""]) ++
        [.statement ["return false"]]) ++ [.closing ""]) :=
    (switch.append last).block (by simp +decide)
  simpa only [setMethod, List.append_assoc, List.cons_append, List.nil_append] using whole

theorem structured_spaced {members : List (List Call)}
    (each : ∀ calls ∈ members, Structured imports clean calls) :
    Structured imports clean (spaced members) :=
  .flatMap fun calls member => Structured.append .emptyLine (each calls member)

@[mk_iff]
structure Braceless (unit : CompilationUnit) : Prop where
  className : isBraceless unit.className = true
  factories : ∀ factory ∈ unit.factories, isBraceless factory.name = true
  wrappers : ∀ wrapper ∈ unit.wrappers, isBraceless wrapper.name = true
  cases : ∀ case ∈ unit.cases, isBraceless case.name = true
  setters : ∀ case ∈ unit.cases, ∀ b ∈ case.branches, isBraceless b.candidate.method.name = true
  callbacks : ∀ case ∈ unit.cases, ∀ b ∈ case.branches, b.candidate.isListener = true →
    ∀ member ∈ b.candidate.valueType.abstractMethods, isBraceless member.method.name = true

variable {unit : CompilationUnit}

instance : Decidable unit.Braceless :=
  decidable_of_iff _ (braceless_iff unit).symm

def memberCalls (unit : CompilationUnit) : List Call :=
  (.opening ["static"] ::
    [.statement [unit.names.runtime, ".registerAttributeSetter(new " ++ unit.className ++ "())"]] ++
    [.closing ""]) ++
    spaced (unit.factories.map (factoryMethods unit.names)) ++
    spaced (unit.wrappers.map (wrapperMethod unit.names)) ++
    spaced [setMethod unit.names unit.cases]

theorem bodyCalls_eq (unit : CompilationUnit) :
    unit.bodyCalls = .opening unit.header :: unit.memberCalls ++ [.closing ""] := by
  simp only [bodyCalls, memberCalls, List.append_assoc, List.cons_append, List.nil_append]

theorem structured_memberCalls
    (default : ∀ case ∈ unit.cases, ∀ b ∈ case.branches, b.IsDefault) :
    Structured imports unit.Braceless unit.memberCalls := by
  have static : Structured imports unit.Braceless [.statement [unit.names.runtime,
      ".registerAttributeSetter(new " ++ unit.className ++ "())"]] :=
    .statement fun free => by simp +decide [free.className]
  have cases : ∀ case ∈ unit.cases, Structured imports unit.Braceless (caseCalls case) :=
    fun case member => structured_caseCalls (fun free => free.cases case member) fun b inside =>
      Dispatch.nested_of_isDefault (default case member b inside)
        (fun free => free.setters case member b inside)
        fun listener required listed free => free.callbacks case member b inside listener required listed
  refine (((static.block (by simp +decide)).append (structured_spaced ?_)).append
    (structured_spaced ?_)).append (structured_spaced ?_)
  · rintro _ member
    obtain ⟨factory, inside, rfl⟩ := List.mem_map.mp member
    exact structured_factoryMethods unit.names fun free => free.factories factory inside
  · rintro _ member
    obtain ⟨wrapper, inside, rfl⟩ := List.mem_map.mp member
    exact structured_wrapperMethod unit.names fun free => free.wrappers wrapper inside
  · simpa using structured_setMethod unit.names cases

theorem isBraceless_header (free : unit.Braceless) :
    ∀ part ∈ unit.header, part.isBraceless = true := by
  unfold header
  cases unit.superclass <;> simp +decide [free.className]

/-- Where no override replaces a branch, the class of a unit comes out nested. Its first and its last
line are at depth zero, and no line is at less. A line that opens a block is followed by deeper ones, if
any, up to one at its own depth that begins with a closing brace. Unless a name has a brace, no prefix
of the text has more that close than that open, and the whole of it has as many of either. -/
theorem body_nested (unit : CompilationUnit)
    (default : ∀ case ∈ unit.cases, ∀ b ∈ case.branches, b.IsDefault) :
    ∃ body, unit.body = .ok body ∧
      (∀ line ∈ body.lines, 0 ≤ line.depth) ∧
      (∃ first inner last, body.lines = first :: inner ++ [last] ∧
        first.depth = 0 ∧ last.depth = 0) ∧
      (∀ before line after, body.lines = before ++ line :: after →
        " \x7b".toList <:+ (line.render (unit.importTable body)).toList →
        ∃ inner closer rest, after = inner ++ closer :: rest ∧ (∀ l ∈ inner, line.depth < l.depth) ∧
          closer.depth = line.depth ∧ (indentation line.depth ++ "\x7d").toList <+:
            (closer.render (unit.importTable body)).toList) ∧
      (unit.Braceless → (∀ type ∈ body.typeNames, type.isBraceless = true) →
        ∀ text, text = (String.intercalate "\n" (body.render (unit.importTable body))).toList →
          (∀ initial, initial <+: text → initial.count '\x7d' ≤ initial.count '\x7b') ∧
            text.count '\x7b' = text.count '\x7d') := by
  obtain ⟨body, written⟩ := CodeBlock.exists_ofCalls (rise_bodyCalls unit)
  have inner : Structured (unit.importTable body) unit.Braceless unit.memberCalls :=
    structured_memberCalls default
  rw [bodyCalls_eq] at written
  have nested := (inner.block isBraceless_header).nested written
  obtain ⟨lines, ends⟩ := inner.lines_of_block written
  refine ⟨body, by rw [CompilationUnit.body, bodyCalls_eq, written], ?_,
    ⟨_, lines, _, ends, rfl, rfl⟩, ?_, ?_⟩
  · simpa using nested.deep
  · intro before line after split opening
    have matched := nested.matched
    rw [split] at matched
    obtain ⟨inner, closer, rest, same, between, level, closes⟩ :=
      matched.closesAt (opens_of_render opening)
    exact ⟨inner, closer, rest, same, between, level, level ▸ render_of_closes closes⟩
  · rintro free types _ rfl
    have leveled := nested.leveled free 0
    simp only [List.count_nil, Nat.add_zero] at leveled
    rw [← level_render_block types] at leveled
    exact ⟨fun initial first => by simpa using count_le_of_level leveled first,
      by simpa using count_of_level leveled⟩

end CompilationUnit

namespace Dispatch

variable {overrides : OverrideTable}

theorem isDefault_of_caseOf {root : ResolvedType} {names : RuntimeNames} {group : Group}
    {case : Case}
    (unreplaced : ∀ c ∈ group.candidates, overrides.replacement c = .ok none)
    (made : caseOf root names overrides group = .ok case) : ∀ b ∈ case.branches, b.IsDefault := by
  intro b member
  have covers := (covers_of_caseOf made).2
  obtain ⟨last, branched⟩ := covers.each b member
  have candidate : b.candidate ∈ group.candidates := by
    apply mem_branchOrder.mp
    rw [← covers.candidates]
    exact List.mem_map_of_mem member
  refine ⟨?_, root, names, overrides, last, branched⟩
  rcases branch_cases branched with ⟨code, replaced, -⟩ | ⟨-, code, -, same⟩ | ⟨-, code, -, same⟩
  · rw [unreplaced b.candidate candidate] at replaced
    cases replaced
  · rw [same]
  · rw [same]

end Dispatch

namespace Sample

def config : Config :=
  .ofNames panelDecl.name "com.example.dsl" "DSL"

def clicks : Group :=
  ⟨"onClick", [panelListener, buttonSetter], []⟩

def clickUnit (case : Dispatch.Case) : CompilationUnit :=
  .ofTable config ⟨[case], [⟨"onClick", .ofBinary listenerDecl.name, .nullable⟩], []⟩
    [⟨"button", .ofBinary buttonDecl.name⟩]

theorem clicks_nested : ∃ case body,
    (∀ b ∈ case.branches, b.IsDefault) ∧
    case.branches.map (·.candidate.isListener) = [false, true] ∧
    (clickUnit case).body = .ok body ∧ (∀ line ∈ body.lines, 0 ≤ line.depth) ∧
    ∀ text, text = (String.intercalate "\n"
        (body.render ((clickUnit case).importTable body))).toList →
      text.count '\x7b' = text.count '\x7d' := by
  have evaluated : (Dispatch.caseOf panelType (.ofConfig config) .empty clicks).toOption.map
      (fun case => (case.branches.map (·.candidate.isListener), decide (clickUnit case).Braceless,
        (clickUnit case).body.toOption.map fun body => body.typeNames.all TypeName.isBraceless)) =
      some ([false, true], true, some true) := by
    decide +kernel
  obtain ⟨case, accepted, checks⟩ := Option.map_eq_some_iff.mp evaluated
  simp only [Prod.mk.injEq] at checks
  obtain ⟨listeners, free, types⟩ := checks
  have default : ∀ b ∈ case.branches, b.IsDefault :=
    Dispatch.isDefault_of_caseOf (fun _ _ => rfl) (toOption_eq_some.mp accepted)
  obtain ⟨body, written, deep, -, -, balanced⟩ := CompilationUnit.body_nested (clickUnit case) <| by
    intro other member
    obtain rfl := List.mem_singleton.mp member
    exact default
  rw [written] at types
  have clean : ∀ type ∈ body.typeNames, type.isBraceless = true :=
    List.all_eq_true.mp (Option.some.inj types)
  exact ⟨case, body, default, listeners, written, deep, fun text same =>
    (balanced (of_decide_eq_true free) clean text same).2⟩

end Sample

end WidgetDsl
