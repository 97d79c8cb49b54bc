import WidgetDsl.Proofs.Retelling

/-!
The order of what is read. Where every class has one definition and every signature one method, what is
generated does not depend on the order of entries and methods, nor on which of the archives holds what
is not scanned for its entries.
-/

namespace WidgetDsl

structure ClassDecl.Rearranges (decl other : ClassDecl) : Prop where
  methods : decl.methods.Perm other.methods
  others : { decl with methods := other.methods } = other

instance (decl other : ClassDecl) : Decidable (decl.Rearranges other) :=
  decidable_of_iff
    (decl.methods.Perm other.methods ∧ { decl with methods := other.methods } = other)
    ⟨fun same => ⟨same.1, same.2⟩, fun same => ⟨same.1, same.2⟩⟩

namespace Library

/-- Two libraries with the same declarations, one to a name, up to the order of their methods, none of
which has the signature of another one beside it. -/
structure Rearranges (lib other : Library) : Prop where
  distinct : (lib.declared.map (·.name)).Nodup
  distinctToo : (other.declared.map (·.name)).Nodup
  signatures : ∀ decl ∈ lib.declared, (decl.methods.map Method.signature).Nodup
  onward : ∀ decl ∈ lib.declared, ∃ again ∈ other.declared, decl.Rearranges again
  back : ∀ again ∈ other.declared, ∃ decl ∈ lib.declared, decl.Rearranges again

variable {lib other : Library} {name : String} {decl again : ClassDecl}

def declaration? (lib : Library) (name : String) : Option ClassDecl :=
  (lib.declared ++ platformClasses).find? (·.name = name)

theorem declaration?_eq (lib : Library) (name : String) : lib.declaration? name =
    (lib.declarations.find? (·.1.name = name)).map (·.1) := by
  rw [declaration?, ← map_declarations, List.find?_map]
  rfl

namespace Rearranges

variable (rearranges : lib.Rearranges other)

include rearranges

/-- A name is defined by declarations that differ in the order of methods only. -/
theorem declaration?_cases (name : String) : lib.declaration? name = other.declaration? name ∨
    ∃ decl ∈ lib.declared, ∃ again, lib.declaration? name = some decl ∧
      other.declaration? name = some again ∧ decl.Rearranges again := by
  unfold declaration?
  rw [List.find?_append, List.find?_append]
  cases found : lib.declared.find? (·.name = name) with
  | some decl =>
    obtain ⟨member, named⟩ := (find?_key_eq_some_iff rearranges.distinct).mp found
    obtain ⟨again, memberToo, same⟩ := rearranges.onward decl member
    have namedToo : again.name = name := by
      rw [← same.others]
      exact named
    have foundToo := (find?_key_eq_some_iff rearranges.distinctToo).mpr ⟨memberToo, namedToo⟩
    exact .inr ⟨decl, member, again, rfl, by rw [foundToo]; rfl, same⟩
  | none =>
    have absent : other.declared.find? (·.name = name) = none := by
      cases foundToo : other.declared.find? (·.name = name) with
      | none => rfl
      | some again =>
        obtain ⟨memberToo, namedToo⟩ := (find?_key_eq_some_iff rearranges.distinctToo).mp foundToo
        obtain ⟨decl, member, same⟩ := rearranges.back again memberToo
        have named : decl.name = name := by
          rw [← same.others] at namedToo
          exact namedToo
        rw [(find?_key_eq_some_iff rearranges.distinct).mpr ⟨member, named⟩] at found
        cases found
    exact .inl (by rw [absent])

theorem agreeOn : lib.AgreeOn other .outline fun _ => True where
  defined := by
    intro name _
    have outline (lib : Library) : (lib.define? name).map (·.through .outline) =
        ((builtin? name).map (·.through .outline)).or ((lib.declaration? name).map fun decl =>
          .declared { decl with methods := [] } "") := by
      rw [define?_eq, declaration?_eq, Option.map_or, Option.map_map, Option.map_map]
      rfl
    rw [outline, outline]
    rcases rearranges.declaration?_cases name with same | ⟨decl, -, again, found, foundToo, same⟩
    · rw [same]
    · rw [found, foundToo, ← same.others]
      rfl
  closed := fun _ _ _ _ => trivial

theorem methodsOf_cases (name : String) : lib.methodsOf name = other.methodsOf name ∨
    ((lib.methodsOf name).map Method.signature).Nodup ∧
      (lib.methodsOf name).Perm (other.methodsOf name) := by
  rw [methodsOf_eq, methodsOf_eq]
  cases builtin? name with
  | some definition => exact .inl rfl
  | none =>
    have declared (lib : Library) : ((lib.declarations.find? (·.1.name = name)).elim []
        fun found => found.1.methods) = (lib.declaration? name).elim [] (·.methods) := by
      rw [declaration?_eq]
      cases lib.declarations.find? (·.1.name = name) <;> rfl
    simp only [declared]
    rcases rearranges.declaration?_cases name with same | ⟨decl, member, again, found, foundToo, same⟩
    · rw [same]
      exact .inl rfl
    · rw [found, foundToo]
      exact .inr ⟨rearranges.signatures decl member, same.methods⟩

theorem mem_methodsOf {m : Method} : m ∈ lib.methodsOf name ↔ m ∈ other.methodsOf name := by
  rcases rearranges.methodsOf_cases name with same | ⟨-, same⟩
  · rw [same]
  · exact same.mem_iff

theorem find?_methodsOf (keep : Method → Bool) (name : String) (signature : Signature) :
    ((lib.methodsOf name).filter keep).find? (·.signature = signature) =
      ((other.methodsOf name).filter keep).find? (·.signature = signature) := by
  rcases rearranges.methodsOf_cases name with same | ⟨distinct, same⟩
  · rw [same]
  · have distinctKept : (((lib.methodsOf name).filter keep).map Method.signature).Nodup :=
      distinct.sublist (List.filter_sublist.map _)
    exact Method.find?_of_perm distinctKept (same.filter keep) signature

theorem inOrder_methodsOf (name : String) :
    Method.inOrder (lib.methodsOf name) = Method.inOrder (other.methodsOf name) := by
  rcases rearranges.methodsOf_cases name with same | ⟨distinct, same⟩
  · rw [same]
  · exact Method.inOrder_of_perm distinct same

theorem retells : lib.Retells other .outline fun _ => True :=
  { rearranges.agreeOn with
    offered := fun name _ => rearranges.find?_methodsOf _ name
    mentioned := fun _ _ _ _ _ _ => trivial }

theorem link_iff {type type' : ResolvedType} (resolved : lib.resolve name = .ok type)
    (resolvedToo : other.resolve name = .ok type') :
    lib.link type = .ok () ↔ other.link type' = .ok () := by
  have resolves (parameter : String) : (∃ found, lib.resolve parameter = .ok found) ↔
      ∃ found, other.resolve parameter = .ok found := by
    have same : other.Buildable parameter ↔ lib.Buildable parameter :=
      rearranges.agreeOn.buildable_iff trivial
    simpa [Buildable, builds_iff_resolve] using same.symm
  simp only [link_eq_ok_iff, methods_of_resolve resolved, methods_of_resolve resolvedToo, resolves,
    rearranges.mem_methodsOf]

theorem declares_eq {type type' : ResolvedType} (loaded : lib.Loaded type)
    (loadedToo : other.Loaded type') (named : type.name = type'.name) (signature : Signature) :
    type.declares signature = type'.declares signature := by
  rw [Bool.eq_iff_iff, ResolvedType.declares, ResolvedType.declares, List.any_eq_true,
    List.any_eq_true, methods_of_resolve loaded.resolve, methods_of_resolve loadedToo.resolve, named]
  simp only [rearranges.mem_methodsOf]

end Rearranges

end Library

namespace Generator

open Candidate

theorem alike_of_rearranges {generator : Generator} {scan other : Scan} {first second : Analysis}
    (fixed : ∀ f, .computed f ∉ generator.overrides.overrides)
    (entries : other.entries = scan.entries) (rearranges : scan.library.Rearranges other.library)
    (analyzed : generator.analyzeScan scan = .ok first)
    (analyzedToo : generator.analyzeScan other = .ok second) :
    generator.Alike scan other .outline first second := by
  have retells := rearranges.retells
  have finds := finds_of_analyzeScan analyzed
  have findsToo := finds_of_analyzeScan analyzedToo
  have rootNamed : first.root.name = second.root.name :=
    finds.rootName_eq.trans findsToo.rootName_eq.symm
  have classes : first.classes.map (·.through .outline) = second.classes.map (·.through .outline) := by
    apply classes_alike retells.toAgreeOn analyzed analyzedToo fun _ _ => trivial
    · intro name _ type type' resolved resolvedToo
      exact rearranges.link_iff resolved resolvedToo
    · rw [entries]
  apply alike_of_retells retells analyzed analyzedToo (fun _ _ => trivial) classes
  · intro type member type' memberToo same
    have loaded := finds.class_loaded member
    have loadedToo := findsToo.class_loaded memberToo
    have named : type.name = type'.name := by simpa using congrArg ResolvedType.name same
    apply Analysis.own_alike retells loaded trivial same
    · rw [Library.methods_of_resolve loaded.resolve, Library.methods_of_resolve loadedToo.resolve,
        named, rearranges.inOrder_methodsOf]
    · intro m
      apply isRedundant_eq same rootNamed
      intro above walked above' walkedToo looks
      have names : above.name = above'.name := by simpa using congrArg ResolvedType.name looks
      exact rearranges.declares_eq (loaded_of_walked loaded walked)
        (loaded_of_walked loadedToo walkedToo) names m.signature
  · intro c member type' memberToo same
    have named : c.declaring.name = type'.name := by simpa using congrArg ResolvedType.name same
    have found := rearranges.find?_methodsOf (fun _ => true) type'.name c.method.signature
    rw [List.filter_true, List.filter_true] at found
    rw [Library.methods_of_resolve (finds.candidate_loaded member).2.resolve,
      Library.methods_of_resolve (findsToo.class_loaded memberToo).resolve, named, found]
  · intro c _ d _ same
    exact OverrideTable.replacement_eq same fun f given => absurd given (fixed f)

/-- Two runs that succeed give the same source if they scan the same entries and have the same
definition for each name, in archives and orders of any kind, and no override is a function. -/
theorem arrangement_irrelevant (generator : Generator)
    (fixed : ∀ f, .computed f ∉ generator.overrides.overrides)
    (scanned dependencies scanned' dependencies' : List Archive)
    (entries : ∀ entry, entry ∈ scanned.flatMap Archive.classEntries ↔
      entry ∈ scanned'.flatMap Archive.classEntries)
    (rearranges : Library.Rearranges ⟨scanned ++ dependencies⟩ ⟨scanned' ++ dependencies'⟩)
    (draft again : Draft)
    (ran : generator.draftScan (.ofArchives scanned dependencies) = .ok draft)
    (ranToo : generator.draftScan (.ofArchives scanned' dependencies') = .ok again) :
    again.source = draft.source := by
  obtain ⟨first, analyzed, -⟩ := classes_of_draftScan ran
  obtain ⟨second, analyzedToo, -⟩ := classes_of_draftScan ranToo
  have alike := alike_of_rearranges fixed (Scan.entries_ofArchives_eq entries).symm rearranges
    analyzed analyzedToo
  obtain ⟨draftToo, _, ranAgain, same, -⟩ := draftScan_alike analyzed analyzedToo alike ran
  rw [← Except.ok.inj (ranToo.symm.trans ranAgain)] at same
  exact same

end Generator

namespace Gallery

def reversedDecl : ClassDecl :=
  { buttonDecl with methods := buttonDecl.methods.reverse }

def shuffled : Scan :=
  .ofArchives [archive "button.json" [reversedDecl], archive "a.json" [widgetDecl, touchListenerDecl]]
    [archive "b.json" [baseDecl]]

theorem shuffled_rearranges : scan.library.Rearranges shuffled.library := by
  constructor <;> decide +kernel

theorem shuffled_entries (entry : String) :
    entry ∈ [archive "lib.json" [touchListenerDecl, widgetDecl, buttonDecl]].flatMap
        Archive.classEntries ↔
      entry ∈ [archive "button.json" [reversedDecl],
        archive "a.json" [widgetDecl, touchListenerDecl]].flatMap Archive.classEntries := by
  have keys : ([archive "lib.json" [touchListenerDecl, widgetDecl, buttonDecl]].flatMap
      (·.entries.keys)).Perm ([archive "button.json" [reversedDecl],
        archive "a.json" [widgetDecl, touchListenerDecl]].flatMap (·.entries.keys)) := by
    decide +kernel
  rw [Archive.mem_flatMap_classEntries, Archive.mem_flatMap_classEntries, keys.mem_iff]

theorem shuffled_analysis : ∃ analysis, generator.analyzeScan shuffled = .ok analysis := by
  have agree := shuffled_rearranges.agreeOn
  obtain ⟨root, resolved, alike⟩ := agree.exists_resolve trivial (spans.resolve spans.rootListed)
  have kind : root.kind = (scan.library.typeOf generator.config.root).kind := by
    simpa using congrArg ResolvedType.kind alike
  refine Generator.exists_analyzeScan resolved (kind.trans spans.rootIsClass) ?_
  intro name member again
  have listed : name ∈ Catalog.candidateNames scan.entries := by
    have entries : scan.entries = shuffled.entries := Scan.entries_ofArchives_eq shuffled_entries
    rw [entries]
    exact member
  have counted := (spans.listed name).mp listed
  obtain ⟨type, resolvedToo, -⟩ := agree.exists_resolve trivial (spans.resolve counted)
  have linked := (shuffled_rearranges.link_iff (spans.resolve counted) resolvedToo).mp
    (spans.link counted)
  rw [Catalog.examine_of_linked resolvedToo linked]
  simp

theorem shuffled_alike : ∃ draft again, generator.draftScan scan = .ok draft ∧
    generator.draftScan shuffled = .ok again ∧ again.source = draft.source := by
  obtain ⟨analysis, analyzed⟩ := spans.exists_analysis
  obtain ⟨draft, ran⟩ := Generator.exists_draft analyzed (Dispatch.replaces_empty _)
  obtain ⟨second, analyzedToo⟩ := shuffled_analysis
  obtain ⟨again, ranToo⟩ := Generator.exists_draft analyzedToo (Dispatch.replaces_empty _)
  exact ⟨draft, again, ran, ranToo, Generator.arrangement_irrelevant generator nofun _ _ _ _
    shuffled_entries shuffled_rearranges draft again ran ranToo⟩

end Gallery

end WidgetDsl
