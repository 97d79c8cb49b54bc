import Mathlib.Data.List.Forall2
import WidgetDsl.Proofs.Completion
import WidgetDsl.Proofs.TestedTypes

/-!
What a dispatch table has for each group of candidates: a case with a branch to each candidate, and a
wrapper to each type of their values. Every wrapper leads to a branch for its type.
-/

namespace WidgetDsl

theorem mapM_eq_ok_iff_forall₂ {ε α β : Type} {f : α → Except ε β} {as : List α} {bs : List β} :
    as.mapM f = .ok bs ↔ List.Forall₂ (fun a b => f a = .ok b) as bs := by
  rw [mapM_eq_ok, ← List.forall₂_eq_eq_eq, List.forall₂_map_left_iff, List.forall₂_map_right_iff]

theorem exists_left_of_forall₂ {α β : Type} {R : α → β → Prop} {as : List α} {bs : List β}
    (each : List.Forall₂ R as bs) {b : β} (member : b ∈ bs) : ∃ a ∈ as, R a b := by
  induction each with
  | nil => cases member
  | @cons a other as bs related _ ih =>
    rcases List.mem_cons.mp member with rfl | later
    · exact ⟨a, by simp, related⟩
    · obtain ⟨found, inside, relates⟩ := ih later
      exact ⟨found, List.mem_cons_of_mem a inside, relates⟩

namespace Group

theorem valueTypes_increasing (group : Group) : group.valueTypes.Pairwise (· < ·) :=
  Descriptor.sorted_eraseDups_increasing _

theorem mem_valueTypes {group : Group} {type : String} :
    type ∈ group.valueTypes ↔ ∃ c ∈ group.candidates, c.valueType.name = type := by
  rw [valueTypes, Descriptor.mem_sorted_eraseDups, List.mem_map]

def inNameOrder (groups : List Group) : List Group :=
  groups.mergeSort fun a b => decide (a.name ≤ b.name)

theorem inNameOrder_perm (groups : List Group) : (inNameOrder groups).Perm groups :=
  List.mergeSort_perm groups _

theorem inNameOrder_increasing {groups : List Group} (distinct : (groups.map (·.name)).Nodup) :
    (inNameOrder groups).Pairwise (·.name < ·.name) := by
  have ordered : (inNameOrder groups).Pairwise (·.name ≤ ·.name) :=
    Descriptor.pairwise_sortedBy Group.name groups
  have apart : (inNameOrder groups).Pairwise (·.name ≠ ·.name) :=
    List.pairwise_map.mp (((inNameOrder_perm groups).map Group.name).nodup_iff.mpr distinct)
  exact ordered.imp₂ (fun _ _ le ne => Std.lt_of_le_of_ne le ne) apart

end Group

namespace Dispatch

variable {builder : Builder} {groups : List Group} {group : Group} {table : Table}

structure Entry where
  case : Case
  wrappers : List Wrapper
  warnings : List Warning

def Table.ofEntries (entries : List Entry) : Table :=
  ⟨entries.map (·.case), entries.flatMap (·.wrappers), entries.flatMap (·.warnings)⟩

/-- The methods that let callers set an attribute: one to each type of its values, or a warning where
no method can have the attribute's name. -/
inductive EntryPoints (group : Group) : List Wrapper → List Warning → Prop where
  | typed (free : Java.isFreeIdentifier group.name = true) (types : List String)
      (increasing : types.Pairwise (· < ·))
      (surviving : ∀ type, type ∈ types ↔ ∃ c ∈ group.candidates, c.valueType.name = type)
      (wrappers : List Wrapper)
      (each : List.Forall₂ (fun type wrapper =>
        wrapper.name = group.name ∧ wrapper.valueType = .ofBinary type) types wrappers) :
      EntryPoints group wrappers []
  | reserved (taken : Java.isFreeIdentifier group.name = false) (warning : Warning)
      (code : warning.code = "RESERVED_IDENTIFIER")
      (about : ∃ c ∈ group.candidates,
        warning = .reservedAttribute group.name (some c.declaring.canonicalName)) :
      EntryPoints group [] [warning]

/-- An entry has a branch to each candidate of a group, and its entry points. -/
structure Entry.Answers (group : Group) (entry : Entry) : Prop where
  name : entry.case.name = group.name
  branches : (entry.case.branches.map (·.candidate)).Perm group.candidates
  entryPoints : EntryPoints group entry.wrappers entry.warnings

/-- A branch for values of a type. What is generated compares the value with it, or takes what is left
without a test. -/
structure Branch.Takes (b : Branch) (type : Java.TypeName) : Prop where
  valueType : Java.TypeName.ofBinary b.candidate.valueType.name = type
  compared : b.replaced = false → b.exhaustive = false →
    b.code.comparedType? = some (if b.candidate.isListener then type else type.boxed)

namespace Builder

structure Enters (builder : Builder) (group : Group) (entry : Entry) : Prop where
  case : caseOf builder.root builder.names builder.overrides group = .ok entry.case
  wrappers : builder.wrappers group = .ok (entry.wrappers, entry.warnings)

theorem entries_of_ofSorted (result : builder.ofSorted groups = .ok table) :
    ∃ entries, List.Forall₂ builder.Enters (groups.filter (!·.candidates.isEmpty)) entries ∧
      table = .ofEntries entries := by
  induction groups generalizing table with
  | nil =>
    cases result
    exact ⟨[], .nil, rfl⟩
  | cons group rest ih =>
    unfold ofSorted at result
    split at result
    · rename_i empty
      rw [List.filter_cons_of_neg (by simpa using empty)]
      exact ih result
    · rename_i some
      obtain ⟨case, single, result⟩ := bind_eq_ok.mp result
      obtain ⟨⟨wrappers, warnings⟩, wraps, result⟩ := bind_eq_ok.mp result
      obtain ⟨others, later, result⟩ := bind_eq_ok.mp result
      cases result
      obtain ⟨entries, each, rfl⟩ := ih later
      have first : builder.Enters group ⟨case, wrappers, warnings⟩ :=
        ⟨mapError_eq_ok.mp single, mapError_eq_ok.mp wraps⟩
      refine ⟨⟨case, wrappers, warnings⟩ :: entries, ?_, rfl⟩
      rw [List.filter_cons_of_pos (by simpa using some)]
      exact .cons first each

theorem wrapper_fields {valueType : String} {wrapper : Wrapper}
    (result : builder.wrapper group valueType = .ok wrapper) :
    wrapper.name = group.name ∧ wrapper.valueType = .ofBinary valueType := by
  unfold Builder.wrapper at result
  dsimp only at result
  split at result
  · obtain ⟨nullability, -, made⟩ := bind_eq_ok.mp result
    simp [← Except.ok.inj made]
  · simp [← Except.ok.inj result]

theorem entryPoints_of_wrappers {wrappers : List Wrapper} {warnings : List Warning}
    (some : group.candidates ≠ []) (result : builder.wrappers group = .ok (wrappers, warnings)) :
    EntryPoints group wrappers warnings := by
  unfold Builder.wrappers at result
  split at result
  · rename_i free
    obtain ⟨made, each, same⟩ := map_eq_ok.mp result
    cases same
    have each := mapM_eq_ok_iff_forall₂.mp each
    exact .typed free group.valueTypes group.valueTypes_increasing (fun _ => Group.mem_valueTypes) _
      (each.imp fun _ _ => wrapper_fields)
  · rename_i taken
    obtain ⟨c, rest, candidates⟩ := List.exists_cons_of_ne_nil some
    cases result
    refine .reserved (Bool.eq_false_iff.mpr taken) _ rfl ⟨c, by simp [candidates], ?_⟩
    simp [candidates]

theorem Enters.answers {entry : Entry} (enters : builder.Enters group entry)
    (some : group.candidates ≠ []) : entry.Answers group := by
  obtain ⟨named, covers⟩ := covers_of_caseOf enters.case
  refine ⟨named, ?_, entryPoints_of_wrappers some enters.wrappers⟩
  rw [covers.candidates]
  exact branchOrder_perm builder.root group.candidates

end Builder

section

variable {root : ResolvedType} {names : RuntimeNames} {overrides : OverrideTable} {last : Bool}

theorem branch_takes {b : Branch} (made : branch root names overrides b.candidate last = .ok b) :
    b.Takes (.ofBinary b.candidate.valueType.name) := by
  refine ⟨rfl, fun generated passing => ?_⟩
  rcases branch_cases made with ⟨code, -, same⟩ | ⟨listener, code, listens, same⟩ |
    ⟨setter, code, sets, same⟩
  · rw [same] at generated
    cases generated
  · have exhausts : (last && decide (b.candidate.declaring.name = root.name)) = false :=
      (congrArg Branch.exhaustive same).symm.trans passing
    rw [exhausts] at listens
    have compared :=
      comparedType?_listenerBranch (fun never => absurd never Bool.false_ne_true) listens
    have written : b.code = code := congrArg Branch.code same
    rw [written, listener, compared, if_neg Bool.false_ne_true, if_pos rfl]
  · have written : b.code = code := congrArg Branch.code same
    rw [written, setter, comparedType?_setterBranch sets, if_neg Bool.false_ne_true]

end

theorem Entry.Answers.exists_branch {entry : Entry} (answers : entry.Answers group) {wrapper : Wrapper}
    (member : wrapper ∈ entry.wrappers) : wrapper.name = entry.case.name ∧
      ∃ b ∈ entry.case.branches,
        Java.TypeName.ofBinary b.candidate.valueType.name = wrapper.valueType := by
  rw [answers.name]
  have points := answers.entryPoints
  generalize entry.wrappers = wrappers at points member
  generalize entry.warnings = warnings at points
  cases points with
  | typed free types increasing surviving _ each =>
    obtain ⟨type, listed, named, valueType⟩ := exists_left_of_forall₂ each member
    obtain ⟨c, inside, rfl⟩ := (surviving type).mp listed
    have kept : c ∈ entry.case.branches.map (·.candidate) := answers.branches.mem_iff.mpr inside
    obtain ⟨b, branch, rfl⟩ := List.mem_map.mp kept
    exact ⟨named, b, branch, valueType.symm⟩
  | reserved => cases member

/-- A table has an entry to each group with candidates, by increasing names, and each wrapper leads to
a branch that takes values of its type. -/
structure Table.Agrees (groups : List Group) (table : Table) : Prop where
  entries : ∃ present entries, present.Perm (groups.filter (!·.candidates.isEmpty)) ∧
    List.Forall₂ Entry.Answers present entries ∧ table = .ofEntries entries
  increasing : (table.cases.map (·.name)).Pairwise (· < ·)
  taken : ∀ wrapper ∈ table.wrappers, ∃ case ∈ table.cases, case.name = wrapper.name ∧
    ∃ b ∈ case.branches, b.Takes wrapper.valueType

namespace Builder

theorem agrees_of_build (distinct : (groups.map (·.name)).Nodup)
    (result : builder.build groups = .ok table) : table.Agrees groups := by
  let present := (Group.inNameOrder groups).filter (!·.candidates.isEmpty)
  obtain ⟨entries, enters, rfl⟩ := entries_of_ofSorted result
  have some : ∀ group ∈ present, group.candidates ≠ [] := by
    intro group member empty
    simp [present, empty] at member
  have each : List.Forall₂ (fun group entry => group.candidates ≠ [] ∧ builder.Enters group entry)
      present entries :=
    List.forall₂_and_left _ _ |>.mpr ⟨some, enters⟩
  have answers : List.Forall₂ Entry.Answers present entries :=
    each.imp fun group entry both => both.2.answers both.1
  have names : (Table.ofEntries entries).cases.map (·.name) = present.map (·.name) := by
    have same : List.Forall₂ (fun group entry => group.name = entry.case.name) present entries :=
      answers.imp fun group entry answer => answer.name.symm
    rw [Table.ofEntries, List.map_map, eq_comm, ← List.forall₂_eq_eq_eq,
      List.forall₂_map_left_iff, List.forall₂_map_right_iff]
    exact same
  refine ⟨⟨present, entries, (Group.inNameOrder_perm groups).filter _, answers, rfl⟩, ?_, ?_⟩
  · rw [names, List.pairwise_map]
    exact (Group.inNameOrder_increasing distinct).filter _
  · intro wrapper member
    obtain ⟨entry, listed, inside⟩ := List.mem_flatMap.mp member
    obtain ⟨group, -, some, enter⟩ := exists_left_of_forall₂ each listed
    obtain ⟨named, b, branch, valueType⟩ := (enter.answers some).exists_branch inside
    obtain ⟨last, made⟩ := (covers_of_caseOf enter.case).2.each b branch
    have takes := branch_takes made
    rw [valueType] at takes
    exact ⟨entry.case, List.mem_map_of_mem listed, named.symm, b, branch, takes⟩

/-- Groups of different names have a table that agrees with what stays of them, unless a group blocks
it. -/
theorem table_agrees (builder : Builder) (groups : List Group)
    (distinct : (groups.map (·.name)).Nodup) :
    (∃ table, builder.build groups = .ok table ∧ table.Agrees groups) ∨
      ∃ group ∈ groups, ∃ stop, builder.Blocks group stop ∧ builder.build groups = .error stop := by
  cases built : builder.build groups with
  | ok table => exact .inl ⟨table, rfl, agrees_of_build distinct built⟩
  | error stop =>
    obtain ⟨group, member, blocks⟩ := build_stop built
    exact .inr ⟨group, member, stop, blocks, rfl⟩

end Builder

end Dispatch

namespace Gallery

open Dispatch

def builder : Builder := generator.builder scan.library widget

def sizeGroups : List Group :=
  let sizes := candidates.filter (·.name = "size")
  [⟨"switch", sizes, []⟩, ⟨"hint", [], sizes⟩, ⟨"size", sizes, []⟩]

theorem candidates_resolve : ∀ c ∈ candidates,
    scan.library.isNear c.declaring.name = true := by
  decide +kernel

theorem sizeGroups_candidates {group : Group} (member : group ∈ sizeGroups) :
    ∀ c ∈ group.candidates, c ∈ candidates := by
  intro c inside
  simp only [sizeGroups, List.mem_cons, List.not_mem_nil, or_false] at member
  rcases member with rfl | rfl | rfl
  · exact (List.mem_filter.mp inside).1
  · cases inside
  · exact (List.mem_filter.mp inside).1

theorem sizeGroups_unblocked {group : Group} (member : group ∈ sizeGroups) {stop : TableFault} :
    ¬ builder.Blocks group stop := by
  intro blocks
  cases blocks with
  | override c inside cause replaced => cases replaced
  | cycle c inside name resolved =>
    have known := candidates_resolve c (sizeGroups_candidates member c inside)
    have found : scan.library.resolve c.declaring.name = .error (.cyclic name) := resolved
    rw [Library.resolve_typeOf known] at found
    cases found

theorem sizes_served : (sizeGroups.map (·.name)).Nodup ∧
    ∃ table, builder.build sizeGroups = .ok table ∧ table.Agrees sizeGroups := by
  have distinct : (sizeGroups.map (·.name)).Nodup := by decide
  refine ⟨distinct, ?_⟩
  rcases Builder.table_agrees builder sizeGroups distinct with served | ⟨group, member, stop, blocks, -⟩
  · exact served
  · exact absurd blocks (sizeGroups_unblocked member)

end Gallery

end WidgetDsl
