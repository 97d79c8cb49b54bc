import WidgetDsl.Config.Settings
import WidgetDsl.Proofs.Contracts
import WidgetDsl.Proofs.Spelling

/-!
The static methods of a generated class. No two factories and no two wrappers are called with the same
types, but a wrapper and a factory can be, as neither is checked against the other.
-/

namespace WidgetDsl

namespace Java

structure StaticMethod where
  name : String
  parameters : List TypeName
  deriving DecidableEq, Repr

namespace StaticMethod

def spelled (imports : ImportTable) (m : StaticMethod) : String × List String :=
  (m.name, m.parameters.map imports.spell)

/-- A method's name in what follows its return type: it ends where the parameters begin. -/
def nameIn (text : String) : String :=
  String.ofList ((text.toList.drop 1).takeWhile (· != '('))

def typesIn : List Part → List TypeName
  | [] => []
  | .text s :: .type t :: rest => if s = "@" then typesIn rest else t :: typesIn rest
  | .text _ :: rest => typesIn rest
  | .type t :: rest => t :: typesIn rest

theorem nameIn_eq {name : String} (plain : '(' ∉ name.toList) (rest : String) :
    nameIn (" " ++ name ++ "(" ++ rest) = name := by
  have chars : (" " ++ name ++ "(" ++ rest).toList = ' ' :: (name.toList ++ '(' :: rest.toList) := by
    simp
  rw [nameIn, chars, List.drop_one, List.tail_cons,
    List.takeWhile_append_of_pos (Text.passes_of_not_mem plain)]
  simp

def ofHeader? : List Part → Option StaticMethod
  | .text first :: .type _ :: .text name :: parameters =>
    if first = "public static " then some ⟨nameIn name, typesIn parameters⟩ else none
  | _ => none

end StaticMethod

namespace Call

def staticMethod? : Call → Option StaticMethod
  | .opening parts => StaticMethod.ofHeader? parts
  | _ => none

@[simp] theorem staticMethod?_opening (parts : List Part) :
    (opening parts).staticMethod? = StaticMethod.ofHeader? parts := rfl

@[simp] theorem staticMethod?_line (parts : List Part) : (line parts).staticMethod? = none := rfl

@[simp] theorem staticMethod?_statement (parts : List Part) :
    (statement parts).staticMethod? = none := rfl

@[simp] theorem staticMethod?_closing (ending : String) :
    (closing ending).staticMethod? = none := rfl

@[simp] theorem staticMethod?_indent : indent.staticMethod? = none := rfl

@[simp] theorem staticMethod?_unindent : unindent.staticMethod? = none := rfl

@[simp] theorem staticMethod?_block (code : CodeBlock) : (block code).staticMethod? = none := rfl

end Call

theorem mem_typeNames_of_opening {calls : List Call} {code : CodeBlock}
    (written : CodeBlock.ofCalls calls = .ok code) {parts : List Part}
    (called : .opening parts ∈ calls) {type : TypeName} (inside : .type type ∈ parts) :
    type ∈ code.typeNames := by
  obtain ⟨before, after, rfl⟩ := List.append_of_mem called
  let w := Writer.empty.run before
  have line : ⟨w.depth, parts ++ [.text " \x7b"]⟩ ∈ code.lines := by
    have lines := (CodeBlock.ofCalls_eq_ok_iff.mp written).2
    rw [Writer.run, List.foldl_append, List.foldl_cons] at lines
    rw [lines]
    -- what is written later leaves the line where it is
    exact ((w.perform (.opening parts)).run_grows after).subset
      (by simp [Writer.perform, Writer.addLine, Writer.deepen])
  refine List.mem_flatMap.mpr ⟨_, line, List.mem_filterMap.mpr ⟨.type type, ?_, rfl⟩⟩
  exact List.mem_append_left _ inside

theorem Spellable.of_subset {few types : List TypeName} (spellable : Spellable types)
    (within : few ⊆ types) : Spellable few where
  named t member := spellable.named t (within member)
  plain t member := spellable.plain t (within member)
  unreserved t member := spellable.unreserved t (within member)
  apart t first u second := spellable.apart t (within first) u (within second)

theorem not_mem_of_isFreeIdentifier {name : String} (free : isFreeIdentifier name = true) :
    '(' ∉ name.toList :=
  not_mem_of_isIdentifier (Bool.and_eq_true_iff.mp free).1 (by decide) (by decide +kernel)

end Java

namespace CompilationUnit

open Java (Call Part StaticMethod)

/-- The static methods of a unit's class: two to each factory, and one to each wrapper. -/
def staticMethods (unit : CompilationUnit) : List StaticMethod :=
  unit.factories.flatMap (fun factory =>
    [⟨factory.name, []⟩, ⟨factory.name, [unit.names.renderable]⟩]) ++
    unit.wrappers.map fun wrapper => ⟨wrapper.name, [wrapper.valueType]⟩

theorem filterMap_spaced (members : List (List Call)) :
    (spaced members).filterMap Call.staticMethod? =
      members.flatMap (·.filterMap Call.staticMethod?) := by
  rw [spaced, List.filterMap_flatMap]
  rfl

theorem staticMethod?_factoryMethods (names : RuntimeNames) {factory : Factory}
    (free : Java.isFreeIdentifier factory.name = true) :
    (factoryMethods names factory).filterMap Call.staticMethod? =
      [⟨factory.name, []⟩, ⟨factory.name, [names.renderable]⟩] := by
  have plain := Java.not_mem_of_isFreeIdentifier free
  -- without parameters the piece with the name also has both parentheses
  have first : StaticMethod.nameIn (" " ++ factory.name ++ "()") = factory.name := by
    simpa [String.append_assoc] using StaticMethod.nameIn_eq plain ")"
  have second : StaticMethod.nameIn (" " ++ factory.name ++ "(") = factory.name := by
    simpa using StaticMethod.nameIn_eq plain ""
  simp [factoryMethods, List.filterMap_cons, StaticMethod.ofHeader?, first, second,
    StaticMethod.typesIn]

theorem staticMethod?_wrapperMethod (names : RuntimeNames) {wrapper : Dispatch.Wrapper}
    (free : Java.isFreeIdentifier wrapper.name = true) :
    (wrapperMethod names wrapper).filterMap Call.staticMethod? =
      [⟨wrapper.name, [wrapper.valueType]⟩] := by
  have name : StaticMethod.nameIn (" " ++ wrapper.name ++ "(") = wrapper.name := by
    simpa using StaticMethod.nameIn_eq (Java.not_mem_of_isFreeIdentifier free) ""
  cases told : wrapper.nullability <;>
    simp [wrapperMethod, contract, told, List.filterMap_cons, StaticMethod.ofHeader?, name,
      StaticMethod.typesIn]

theorem staticMethod?_caseCalls (case : Dispatch.Case) :
    (caseCalls case).filterMap Call.staticMethod? = [] := by
  have branches : (case.branches.map fun branch => .block branch.code).filterMap
      Call.staticMethod? = [] := by
    simp [List.filterMap_map, Function.comp_def]
  unfold caseCalls
  cases case.exhaustive <;>
    simp [-List.filterMap_eq_nil_iff, List.filterMap_append, List.filterMap_cons, branches]

theorem staticMethod?_setMethod (names : RuntimeNames) (cases : List Dispatch.Case) :
    (setMethod names cases).filterMap Call.staticMethod? = [] := by
  have inner : (cases.flatMap caseCalls).filterMap Call.staticMethod? = [] := by
    rw [List.filterMap_flatMap, List.flatMap_eq_nil_iff]
    exact fun case _ => staticMethod?_caseCalls case
  simp [-List.filterMap_eq_nil_iff, setMethod, List.filterMap_cons, StaticMethod.ofHeader?, inner]

theorem ofHeader?_header (unit : CompilationUnit) : StaticMethod.ofHeader? unit.header = none := by
  unfold header
  cases unit.superclass <;> rfl

/-- The class is written with just these static methods, where their names are identifiers. -/
theorem staticMethods_written {unit : CompilationUnit}
    (factories : ∀ factory ∈ unit.factories, Java.isFreeIdentifier factory.name = true)
    (wrappers : ∀ wrapper ∈ unit.wrappers, Java.isFreeIdentifier wrapper.name = true) :
    unit.bodyCalls.filterMap Call.staticMethod? = unit.staticMethods := by
  have ofFactories : (unit.factories.map (factoryMethods unit.names)).flatMap
      (·.filterMap Call.staticMethod?) = unit.factories.flatMap fun factory =>
        [⟨factory.name, []⟩, ⟨factory.name, [unit.names.renderable]⟩] := by
    rw [List.flatMap_map]
    exact List.flatMap_congr fun factory member =>
      staticMethod?_factoryMethods unit.names (factories factory member)
  have ofWrappers : (unit.wrappers.map (wrapperMethod unit.names)).flatMap
      (·.filterMap Call.staticMethod?) =
        unit.wrappers.map fun wrapper => ⟨wrapper.name, [wrapper.valueType]⟩ := by
    rw [List.flatMap_map, List.map_eq_flatMap]
    exact List.flatMap_congr fun wrapper member =>
      staticMethod?_wrapperMethod unit.names (wrappers wrapper member)
  have initializer : StaticMethod.ofHeader? ["static"] = none := rfl
  simp only [bodyCalls, List.filterMap_append, filterMap_spaced, ofFactories, ofWrappers, staticMethods]
  simp [List.filterMap_cons, ofHeader?_header, staticMethod?_setMethod, initializer]

theorem mem_spaced {members : List (List Call)} {member : List Call} (listed : member ∈ members)
    {call : Call} (inside : call ∈ member) : call ∈ spaced members :=
  List.mem_flatMap.mpr ⟨member, listed, List.mem_cons_of_mem _ inside⟩

variable {unit : CompilationUnit} {body : Java.CodeBlock}

theorem renderable_mem_typeNames (written : unit.body = .ok body) {factory : Factory}
    (member : factory ∈ unit.factories) : unit.names.renderable ∈ body.typeNames := by
  let parts : List Part := ["public static ", voidType, " " ++ factory.name ++ "(",
    unit.names.renderable, " r)"]
  have called : Call.opening parts ∈ unit.bodyCalls := by
    have inside := mem_spaced (List.mem_map_of_mem (f := factoryMethods unit.names) member)
      (show Call.opening parts ∈ _ by simp [factoryMethods, parts])
    simp [bodyCalls, inside]
  exact Java.mem_typeNames_of_opening written called (by simp [parts])

theorem valueType_mem_typeNames (written : unit.body = .ok body) {wrapper : Dispatch.Wrapper}
    (member : wrapper ∈ unit.wrappers) : wrapper.valueType ∈ body.typeNames := by
  let parts := [Part.text "public static ", voidType, " " ++ wrapper.name ++ "("] ++
    contract unit.names wrapper.nullability ++ [Part.type wrapper.valueType, " arg)"]
  have called : Call.opening parts ∈ unit.bodyCalls := by
    have inside := mem_spaced (List.mem_map_of_mem (f := wrapperMethod unit.names) member)
      (show Call.opening parts ∈ _ from List.mem_cons_self)
    simp [bodyCalls, inside]
  exact Java.mem_typeNames_of_opening written called (by simp [parts])

theorem exists_body (unit : CompilationUnit) : ∃ body, unit.body = .ok body :=
  Java.CodeBlock.exists_ofCalls (rise_bodyCalls unit)

/-- Whether callers can tell all static methods of a unit's class apart as they are spelled. -/
def TellsApart (unit : CompilationUnit) (imports : Java.ImportTable) : Prop :=
  (unit.staticMethods.map (·.spelled imports)).Nodup

instance (unit : CompilationUnit) (imports : Java.ImportTable) :
    Decidable (unit.TellsApart imports) :=
  inferInstanceAs (Decidable (List.Nodup _))

theorem spelled_staticMethods (unit : CompilationUnit) (imports : Java.ImportTable) :
    unit.staticMethods.map (·.spelled imports) =
      (unit.factories.flatMap fun factory =>
        [(factory.name, []), (factory.name, [imports.spell unit.names.renderable])]) ++
      unit.wrappers.map fun wrapper => (wrapper.name, [imports.spell wrapper.valueType]) := by
  simp [staticMethods, StaticMethod.spelled, List.map_flatMap]

theorem tellsApart_iff (distinct : (unit.factories.map (·.name)).Nodup)
    (imports : Java.ImportTable) : unit.TellsApart imports ↔
      (∀ factory ∈ unit.factories, ∀ wrapper ∈ unit.wrappers, wrapper.name = factory.name →
        imports.spell wrapper.valueType ≠ imports.spell unit.names.renderable) ∧
      unit.wrappers.Pairwise fun w v => w.name = v.name →
        imports.spell w.valueType ≠ imports.spell v.valueType := by
  have factoriesApart : (unit.factories.flatMap fun factory =>
      [(factory.name, []), (factory.name, [imports.spell unit.names.renderable])]).Nodup := by
    refine List.nodup_flatMap.mpr ⟨fun factory _ => by simp, ?_⟩
    refine (List.pairwise_map.mp distinct).imp fun different => ?_
    simp [Function.onFun, different.symm]
  -- so what is left is wrappers among themselves, and wrappers beside factories
  rw [TellsApart, spelled_staticMethods, List.nodup_append, List.Nodup, List.pairwise_map]
  constructor
  · rintro ⟨-, wrappers, crossed⟩
    refine ⟨fun factory listed wrapper member named same => ?_, wrappers.imp ?_⟩
    · refine crossed (factory.name, [imports.spell unit.names.renderable])
        (List.mem_flatMap.mpr ⟨factory, listed, by simp⟩) _ (List.mem_map_of_mem member) ?_
      rw [named, same]
    · exact fun different named same => different (by rw [named, same])
  · rintro ⟨crossed, wrappers⟩
    refine ⟨factoriesApart, wrappers.imp ?_, fun method made other wraps same => ?_⟩
    · intro w v different same
      simp only [Prod.mk.injEq, List.cons.injEq, and_true] at same
      exact different same.1 same.2
    · obtain ⟨factory, listed, inside⟩ := List.mem_flatMap.mp made
      obtain ⟨wrapper, member, rfl⟩ := List.mem_map.mp wraps
      rw [same] at inside
      simp only [List.mem_cons, Prod.mk.injEq, List.cons_ne_nil, and_false, List.cons.injEq, and_true,
        List.not_mem_nil, or_false, false_or] at inside
      exact crossed factory listed wrapper member inside.1 inside.2

theorem tellsApart_iff_of_spellable (written : unit.body = .ok body)
    (distinct : (unit.factories.map (·.name)).Nodup)
    (spellable : Java.Spellable (unit.names.renderable :: unit.wrappers.map (·.valueType)))
    (different : unit.wrappers.Pairwise fun w v => w.name = v.name → w.valueType ≠ v.valueType) :
    unit.TellsApart (unit.importTable body) ↔
      ∀ factory ∈ unit.factories, ∀ wrapper ∈ unit.wrappers, wrapper.name = factory.name →
        wrapper.valueType ≠ unit.names.renderable := by
  have inTypes {wrapper : Dispatch.Wrapper} (member : wrapper ∈ unit.wrappers) :
      wrapper.valueType ∈ unit.names.renderable :: unit.wrappers.map (·.valueType) :=
    List.mem_cons_of_mem _ (List.mem_map_of_mem member)
  rw [tellsApart_iff distinct]
  constructor
  · intro apart factory listed wrapper member named same
    exact apart.1 factory listed wrapper member named (by rw [same])
  · refine fun apart => ⟨fun factory listed wrapper member named same => ?_, ?_⟩
    · refine apart factory listed wrapper member named ?_
      exact Java.ImportTable.eq_of_spell_eq_within spellable (inTypes member) List.mem_cons_self
        (valueType_mem_typeNames written member) (renderable_mem_typeNames written listed) same
    · refine different.imp_of_mem fun first second apart named same => apart named ?_
      exact Java.ImportTable.eq_of_spell_eq_within spellable (inTypes first) (inTypes second)
        (valueType_mem_typeNames written first) (valueType_mem_typeNames written second) same

end CompilationUnit

namespace Factory

variable {overrides : OverrideTable} {taken : Entries String} {classes : List ResolvedType}

theorem ofClassesTaken_cons (overrides : OverrideTable) (taken : Entries String) (type : ResolvedType)
    (rest : List ResolvedType) :
    ((ofClassesTaken overrides taken (type :: rest)).1 = (ofClassesTaken overrides taken rest).1 ∧
      ∀ name, nameFor? type overrides = some name → Java.isFreeIdentifier name = true →
        taken.get? name ≠ none) ∨
    ∃ name, nameFor? type overrides = some name ∧ Java.isFreeIdentifier name = true ∧
      taken.get? name = none ∧ (ofClassesTaken overrides taken (type :: rest)).1 =
        ⟨name, .ofBinary type.name⟩ ::
          (ofClassesTaken overrides (taken.insert name type.canonicalName) rest).1 := by
  cases named : nameFor? type overrides with
  | none => exact .inl ⟨by simp [ofClassesTaken, named], nofun⟩
  | some name =>
    cases free : Java.isFreeIdentifier name with
    | false =>
      refine .inl ⟨by simp [ofClassesTaken, named, free], fun other same freeToo => ?_⟩
      rw [← Option.some.inj same, free] at freeToo
      cases freeToo
    | true =>
      cases holder : taken.get? name with
      | some held =>
        refine .inl ⟨by simp [ofClassesTaken, named, free, holder], fun other same _ none => ?_⟩
        rw [← Option.some.inj same, holder] at none
        cases none
      | none => exact .inr ⟨name, rfl, free, holder, by simp [ofClassesTaken, named, free, holder]⟩

theorem of_mem_ofClassesTaken {factory : Factory}
    (member : factory ∈ (ofClassesTaken overrides taken classes).1) :
    Java.isFreeIdentifier factory.name = true ∧ taken.get? factory.name = none := by
  induction classes generalizing taken with
  | nil => cases member
  | cons type rest ih =>
    rcases ofClassesTaken_cons overrides taken type rest with ⟨skips, -⟩ | ⟨name, -, free, fresh, adds⟩
    · rw [skips] at member
      exact ih member
    · rw [adds] at member
      rcases List.mem_cons.mp member with rfl | later
      · exact ⟨free, fresh⟩
      · obtain ⟨freeToo, unused⟩ := ih later
        rw [Entries.get?_insert] at unused
        split at unused
        · cases unused
        · exact ⟨freeToo, unused⟩

theorem ofClassesTaken_distinct :
    ((ofClassesTaken overrides taken classes).1.map (·.name)).Nodup := by
  induction classes generalizing taken with
  | nil => exact List.nodup_nil
  | cons type rest ih =>
    rcases ofClassesTaken_cons overrides taken type rest with ⟨skips, -⟩ | ⟨name, -, -, -, adds⟩
    · rw [skips]
      exact ih
    · rw [adds, List.map_cons, List.nodup_cons]
      refine ⟨fun member => ?_, ih⟩
      obtain ⟨factory, later, same⟩ := List.mem_map.mp member
      have unused := (of_mem_ofClassesTaken later).2
      rw [Entries.get?_insert, if_pos same] at unused
      cases unused

theorem exists_factory {type : ResolvedType} (member : type ∈ classes) {name : String}
    (named : nameFor? type overrides = some name) (free : Java.isFreeIdentifier name = true)
    (fresh : taken.get? name = none) :
    ∃ factory ∈ (ofClassesTaken overrides taken classes).1, factory.name = name := by
  induction classes generalizing taken with
  | nil => cases member
  | cons first rest ih =>
    rcases ofClassesTaken_cons overrides taken first rest with ⟨skips, held⟩ | ⟨other, own, -, -, adds⟩
    · rw [skips]
      rcases List.mem_cons.mp member with rfl | later
      · exact absurd fresh (held name named free)
      · exact ih later fresh
    · rw [adds]
      by_cases same : name = other
      · exact ⟨_, List.mem_cons_self, same.symm⟩
      · rcases List.mem_cons.mp member with rfl | later
        · exact absurd (Option.some.inj (named.symm.trans own)) same
        · have stillFresh : (taken.insert other first.canonicalName).get? name = none := by
            rw [Entries.get?_insert, if_neg same, fresh]
          obtain ⟨factory, inside, called⟩ := ih later stillFresh
          exact ⟨factory, List.mem_cons_of_mem _ inside, called⟩

end Factory

namespace Dispatch

variable {group : Group} {groups : List Group} {wrappers : List Wrapper} {warnings : List Warning}
  {table : Table}

namespace EntryPoints

theorem free (points : EntryPoints group wrappers warnings) {wrapper : Wrapper}
    (member : wrapper ∈ wrappers) :
    wrapper.name = group.name ∧ Java.isFreeIdentifier wrapper.name = true := by
  cases points with
  | typed free _ _ _ _ each =>
    obtain ⟨type, -, named, -⟩ := exists_left_of_forall₂ each member
    exact ⟨named, named ▸ free⟩
  | reserved => cases member

theorem apart (points : EntryPoints group wrappers warnings)
    (plain : ∀ c ∈ group.candidates, ¬ Java.LeadingDot c.valueType.name) :
    wrappers.Pairwise (·.valueType ≠ ·.valueType) := by
  cases points with
  | typed free types increasing surviving _ each =>
    have undotted : ∀ type ∈ types, ¬ Java.LeadingDot type := by
      intro type member
      obtain ⟨c, inside, rfl⟩ := (surviving type).mp member
      exact plain c inside
    have values : wrappers.map (·.valueType) = types.map Java.TypeName.ofBinary := by
      rw [eq_comm, ← List.forall₂_eq_eq_eq, List.forall₂_map_left_iff, List.forall₂_map_right_iff]
      exact each.imp fun _ _ both => both.2.symm
    have distinct : (types.map Java.TypeName.ofBinary).Nodup := by
      refine List.Nodup.map_on (fun a first b second same => ?_)
        (increasing.imp fun lt => String.ne_of_lt lt)
      exact Java.TypeName.ofBinary_injective (undotted a first) (undotted b second) same
    rw [← values] at distinct
    exact List.pairwise_map.mp distinct
  | reserved => exact .nil

end EntryPoints

namespace Table.Agrees

theorem free (agrees : table.Agrees groups) {wrapper : Wrapper} (member : wrapper ∈ table.wrappers) :
    Java.isFreeIdentifier wrapper.name = true := by
  obtain ⟨present, entries, -, each, rfl⟩ := agrees.entries
  obtain ⟨entry, listed, inside⟩ := List.mem_flatMap.mp member
  obtain ⟨group, -, answers⟩ := exists_left_of_forall₂ each listed
  exact (answers.entryPoints.free inside).2

theorem apart (agrees : table.Agrees groups)
    (plain : ∀ case ∈ table.cases, ∀ b ∈ case.branches,
      ¬ Java.LeadingDot b.candidate.valueType.name) :
    table.wrappers.Pairwise fun w v => w.name = v.name → w.valueType ≠ v.valueType := by
  obtain ⟨present, entries, -, each, rfl⟩ := agrees.entries
  have named {entry : Entry} (listed : entry ∈ entries) {wrapper : Wrapper}
      (inside : wrapper ∈ entry.wrappers) : wrapper.name = entry.case.name := by
    obtain ⟨group, -, answers⟩ := exists_left_of_forall₂ each listed
    exact (answers.entryPoints.free inside).1.trans answers.name.symm
  refine List.pairwise_flatMap.mpr ⟨fun entry listed => ?_, ?_⟩
  · obtain ⟨group, -, answers⟩ := exists_left_of_forall₂ each listed
    have undotted : ∀ c ∈ group.candidates, ¬ Java.LeadingDot c.valueType.name := by
      intro c inside
      have kept : c ∈ entry.case.branches.map (·.candidate) := answers.branches.mem_iff.mpr inside
      obtain ⟨b, branch, rfl⟩ := List.mem_map.mp kept
      exact plain entry.case (List.mem_map_of_mem listed) b branch
    exact (answers.entryPoints.apart undotted).imp fun different => fun _ => different
  · have increasing := agrees.increasing
    rw [Table.ofEntries, List.map_map, List.pairwise_map] at increasing
    refine increasing.imp_of_mem fun first second lt w inside v insideToo same => ?_
    rw [named first inside, named second insideToo] at same
    exact absurd same (String.ne_of_lt lt)

end Table.Agrees

end Dispatch

namespace Generator

variable {generator : Generator} {scan : Scan} {draft : Draft}

theorem exists_factory_of_class (ran : generator.draftScan scan = .ok draft) {analysis : Analysis}
    (analyzed : generator.analyzeScan scan = .ok analysis) {type : ResolvedType}
    (listed : type ∈ analysis.classes) {name : String}
    (named : Factory.nameFor? type generator.overrides = some name)
    (free : Java.isFreeIdentifier name = true) :
    ∃ factory ∈ draft.unit.factories, factory.name = name := by
  obtain ⟨_, table, analyzedToo, -, made⟩ := unit_of_draftScan ran
  obtain rfl := Except.ok.inj (analyzed.symm.trans analyzedToo)
  rw [made]
  exact Factory.exists_factory listed named free rfl

theorem factories_distinct (ran : generator.draftScan scan = .ok draft) :
    (draft.unit.factories.map (·.name)).Nodup := by
  obtain ⟨analysis, table, -, -, made⟩ := unit_of_draftScan ran
  rw [made]
  exact Factory.ofClassesTaken_distinct

theorem names_of_draftScan (ran : generator.draftScan scan = .ok draft) :
    draft.unit.names = .ofConfig generator.config := by
  obtain ⟨analysis, table, -, -, made⟩ := unit_of_draftScan ran
  rw [made]
  rfl

theorem agrees_of_build_groups {analysis : Analysis} {table : Dispatch.Table}
    (analyzed : generator.analyzeScan scan = .ok analysis)
    (built : (generator.builder scan.library analysis.root).build analysis.groups = .ok table) :
    table.Agrees analysis.groups := by
  refine Dispatch.Builder.agrees_of_build ?_ built
  rw [(finds_of_analyzeScan analyzed).groups, Group.ofAll_names]
  exact (Descriptor.sorted_eraseDups_increasing _).imp fun lt => String.ne_of_lt lt

theorem staticMethods_of_draftScan (ran : generator.draftScan scan = .ok draft) :
    draft.unit.bodyCalls.filterMap Java.Call.staticMethod? = draft.unit.staticMethods := by
  obtain ⟨analysis, table, analyzed, built, made⟩ := unit_of_draftScan ran
  have agrees := agrees_of_build_groups analyzed built
  rw [made]
  exact CompilationUnit.staticMethods_written
    (fun factory member => (Factory.of_mem_ofClassesTaken member).1)
    fun wrapper member => agrees.free member

theorem wrappers_apart (ran : generator.draftScan scan = .ok draft)
    (plain : ∀ case ∈ draft.unit.cases, ∀ b ∈ case.branches,
      ¬ Java.LeadingDot b.candidate.valueType.name) :
    draft.unit.wrappers.Pairwise fun w v => w.name = v.name → w.valueType ≠ v.valueType := by
  obtain ⟨analysis, table, analyzed, built, made⟩ := unit_of_draftScan ran
  rw [made] at plain ⊢
  exact (agrees_of_build_groups analyzed built).apart plain

/-- The static methods of the class that a run writes are two to each factory and one to each wrapper.
They can be told apart just if no wrapper clashes with a factory or with another wrapper; with names
that can be spelled apart, just if no wrapper that is called like a factory takes what its second
method takes. -/
theorem tellsApart_iff_factories (generator : Generator) (scan : Scan) (draft : Draft)
    (ran : generator.draftScan scan = .ok draft) : ∃ body, draft.unit.body = .ok body ∧
      draft.unit.bodyCalls.filterMap Java.Call.staticMethod? = draft.unit.staticMethods ∧
      (draft.unit.TellsApart (draft.unit.importTable body) ↔
        (∀ factory ∈ draft.unit.factories, ∀ wrapper ∈ draft.unit.wrappers,
          wrapper.name = factory.name → (draft.unit.importTable body).spell wrapper.valueType ≠
            (draft.unit.importTable body).spell draft.unit.names.renderable) ∧
        draft.unit.wrappers.Pairwise fun w v => w.name = v.name →
          (draft.unit.importTable body).spell w.valueType ≠
            (draft.unit.importTable body).spell v.valueType) ∧
      (Java.Spellable (draft.unit.names.renderable :: draft.unit.wrappers.map (·.valueType)) →
        (∀ case ∈ draft.unit.cases, ∀ b ∈ case.branches,
          ¬ Java.LeadingDot b.candidate.valueType.name) →
        (draft.unit.TellsApart (draft.unit.importTable body) ↔
          ∀ factory ∈ draft.unit.factories, ∀ wrapper ∈ draft.unit.wrappers,
            wrapper.name = factory.name → wrapper.valueType ≠ draft.unit.names.renderable)) := by
  obtain ⟨body, written⟩ := draft.unit.exists_body
  have distinct := factories_distinct ran
  refine ⟨body, written, staticMethods_of_draftScan ran, CompilationUnit.tellsApart_iff distinct _,
    fun spellable plain => ?_⟩
  exact CompilationUnit.tellsApart_iff_of_spellable written distinct spellable
    (wrappers_apart ran plain)

end Generator

namespace Storefront

open Dispatch

def labels : Generator :=
  ⟨{ config with root := labelDecl.name }, .empty, none⟩

theorem labels_span : scan.Spans labels.config.root names where
  listed := spans.listed
  rootListed := by decide +kernel
  rootIsClass := by decide +kernel
  near := spans.near
  parameters := spans.parameters

theorem types_spellable : Java.Spellable
    [(RuntimeNames.ofConfig labels.config).renderable, .ofBinary "java.lang.String"] where
  named := by decide +kernel
  plain := by decide +kernel
  unreserved := by decide +kernel
  apart := by decide +kernel

theorem labels_branch {analysis : Analysis} {case : Case}
    (analyzed : labels.analyzeScan scan = .ok analysis) (forms : labels.Forms scan analysis case)
    {b : Branch} (member : b ∈ case.branches) : b.candidate.valueType.name = "java.lang.String" := by
  have texts : ∀ c ∈ labels.candidatesWithin scan names, c.valueType.name = "java.lang.String" := by
    decide +kernel
  exact texts _ ((labels_span.mem_candidates OverrideTable.empty_keeps analyzed).mp
    (forms.candidate member).1)

theorem labels_wrapper {draft : Draft} (ran : labels.draftScan scan = .ok draft) {wrapper : Wrapper}
    (member : wrapper ∈ draft.unit.wrappers) : wrapper.valueType = .ofBinary "java.lang.String" := by
  obtain ⟨case, -, analysis, valueType, leads⟩ := Generator.leads_of_mem_wrappers ran member
  obtain ⟨b, branch, value⟩ := leads.survives
  rw [leads.valueType_eq, ← value, labels_branch leads.analyzed leads.forms branch]

theorem labels_spellable {draft : Draft} (ran : labels.draftScan scan = .ok draft) :
    Java.Spellable (draft.unit.names.renderable :: draft.unit.wrappers.map (·.valueType)) := by
  refine types_spellable.of_subset fun type member => ?_
  rw [Generator.names_of_draftScan ran] at member
  rcases List.mem_cons.mp member with rfl | inside
  · exact List.mem_cons_self
  · obtain ⟨wrapper, wraps, rfl⟩ := List.mem_map.mp inside
    rw [labels_wrapper ran wraps]
    exact List.mem_cons_of_mem _ List.mem_cons_self

theorem labels_told_apart : ∃ draft, labels.draftScan scan = .ok draft ∧
    (∃ factory ∈ draft.unit.factories, factory.name = "label") ∧
    (∃ wrapper ∈ draft.unit.wrappers, wrapper.name = "title") ∧
    ∃ body, draft.unit.body = .ok body ∧ draft.unit.TellsApart (draft.unit.importTable body) := by
  obtain ⟨analysis, analyzed⟩ := labels_span.exists_analysis
  obtain ⟨draft, ran⟩ := Generator.exists_draft analyzed (replaces_empty _)
  have label : ∃ type ∈ labels.classesWithin scan names,
      Factory.nameFor? type .empty = some "label" := by
    decide +kernel
  obtain ⟨type, within, named⟩ := label
  have factory := Generator.exists_factory_of_class ran analyzed
    ((labels_span.mem_classes analyzed).mpr within) named (by decide +kernel)
  have title : ∃ c ∈ labels.candidatesWithin scan names, c.name = "title" := by decide +kernel
  obtain ⟨c, made, titled⟩ := title
  obtain ⟨wrapper, wraps, called, -⟩ := Generator.exists_wrapper ran analyzed
    ((labels_span.mem_candidates OverrideTable.empty_keeps analyzed).mpr made)
    (by rw [titled]; decide +kernel)
  have plain : ∀ case ∈ draft.unit.cases, ∀ b ∈ case.branches,
      ¬ Java.LeadingDot b.candidate.valueType.name := by
    intro case listed b member
    obtain ⟨analysis, analyzed, forms⟩ := Generator.forms_of_draftScan ran listed
    rw [labels_branch analyzed forms member]
    decide
  obtain ⟨body, written, -, -, told⟩ := Generator.tellsApart_iff_factories labels scan draft ran
  refine ⟨draft, ran, factory, ⟨wrapper, wraps, called.trans titled⟩, body, written,
    (told (labels_spellable ran) plain).mpr fun factory _ wrapper wraps _ => ?_⟩
  rw [labels_wrapper ran wraps, Generator.names_of_draftScan ran]
  decide +kernel

def settings : Settings :=
  { Settings.empty with
    root := .text widgetDecl.name
    package := .text "com.example.dsl"
    className := .text "DSL"
    archives := .paths [.ofString "lib.json"] }

/-- The wrapper that sets a widget's label is called like the factory for labels, and with the same
type, although nothing is wrong with the configuration. -/
theorem labels_clash : settings.toConfig = .ok config ∧ ∃ draft, generator.draftScan scan = .ok draft ∧
    (∃ factory ∈ draft.unit.factories, ∃ wrapper ∈ draft.unit.wrappers,
      wrapper.name = factory.name ∧ wrapper.valueType = draft.unit.names.renderable) ∧
    ∃ body, draft.unit.body = .ok body ∧ ¬ draft.unit.TellsApart (draft.unit.importTable body) := by
  obtain ⟨draft, ran⟩ := exists_ran
  obtain ⟨analysis, analyzed⟩ := spans.exists_analysis
  have factory : ∃ type ∈ generator.classesWithin scan names,
      Factory.nameFor? type .empty = some "label" := by
    decide +kernel
  obtain ⟨type, within, named⟩ := factory
  have label : ∃ c ∈ generator.candidatesWithin scan names, c.name = "label" ∧
      Java.TypeName.ofBinary c.valueType.name = (RuntimeNames.ofConfig config).renderable := by
    decide +kernel
  obtain ⟨c, made, labelled, renders⟩ := label
  obtain ⟨factory, produces, factoryNamed⟩ := Generator.exists_factory_of_class ran analyzed
    ((spans.mem_classes analyzed).mpr within) named (by decide +kernel)
  obtain ⟨wrapper, wraps, wrapperNamed, takes⟩ := Generator.exists_wrapper ran analyzed
    ((spans.mem_candidates OverrideTable.empty_keeps analyzed).mpr made)
    (by rw [labelled]; decide +kernel)
  have sameName : wrapper.name = factory.name :=
    wrapperNamed.trans (labelled.trans factoryNamed.symm)
  have sameType : wrapper.valueType = draft.unit.names.renderable := by
    rw [takes, renders, Generator.names_of_draftScan ran]
    rfl
  obtain ⟨body, written⟩ := draft.unit.exists_body
  refine ⟨rfl, draft, ran, ⟨factory, produces, wrapper, wraps, sameName, sameType⟩, body, written,
    fun apart => ?_⟩
  exact ((CompilationUnit.tellsApart_iff (Generator.factories_distinct ran) _).mp apart).1 factory
    produces wrapper wraps sameName (by rw [sameType])

end Storefront

end WidgetDsl
