import WidgetDsl.Library.Descriptor
import WidgetDsl.Proofs.EntryPoints

/-!
Descriptors with nothing left out. A declaration that has been read can be written as one, and to
read that gives the declaration again.
-/

namespace WidgetDsl

def Value.ofTexts (names : List String) : Value :=
  .list (names.map .text)

def Value.ofParameter (parameter : String × List String) : Value :=
  .table [("type", .text parameter.1), ("annotations", .ofTexts parameter.2)]

namespace Method

def entries (m : Method) : Entries Value :=
  [("name", .text m.name),
    ("parameters", .list ((m.parameters.zip m.parameterAnnotations).map .ofParameter)),
    ("returns", .text m.returns), ("modifiers", .ofTexts m.modifiers),
    ("annotations", .ofTexts m.annotations), ("synthetic", .bool m.synthetic),
    ("bridge", .bool m.bridge), ("deprecated", .bool m.deprecated)]

/-- Whether each parameter has its own list of annotations. -/
def Aligned (m : Method) : Prop :=
  m.parameterAnnotations.length = m.parameters.length

end Method

namespace ClassDecl

def kind (decl : ClassDecl) : String :=
  if decl.isInterface then "interface" else "class"

/-- What a descriptor that leaves nothing out says of a class; no superclass is said, too. -/
def entries (decl : ClassDecl) : Entries Value :=
  [("name", .text decl.name), ("kind", .text decl.kind), ("modifiers", .ofTexts decl.modifiers),
    ("superclass", .ofOption decl.superclass), ("interfaces", .ofTexts decl.interfaces),
    ("methods", .list (decl.methods.map fun m => .table m.entries))]

end ClassDecl

namespace Descriptor

/-- What makes a declaration one that an entry can hold. -/
structure Proper (entry : String) (decl : ClassDecl) : Prop where
  named : decl.name ≠ ""
  agrees : ∀ name, binaryName? entry = some name → decl.name = name
  aligned : ∀ m ∈ decl.methods, m.Aligned

section Written

variable {ε : Type} {fault : ε} {entry : String} {entries : Entries Value} {key : String}
  {default : List String} {m : Method} {decl : ClassDecl}

theorem unknownKeys_keys (entries : Entries Value) : unknownKeys entries.keys entries = [] := by
  have known : (entries.keys.filter fun key => !entries.keys.contains key) = [] := by
    simp [List.filter_eq_nil_iff]
  rw [unknownKeys, known, sorted, List.mergeSort_nil]

theorem texts?_ofTexts (names : List String) : (Value.ofTexts names).texts? = some names := by
  induction names with
  | nil => rfl
  | cons name rest ih =>
    simp only [Value.ofTexts, Value.texts?] at ih
    simp [Value.ofTexts, Value.texts?, Value.text?, ih]

theorem strings_of_get? {names : List String} (found : entries.get? key = some (.ofTexts names)) :
    strings fault entries key default = .ok names := by
  simp [strings, found, texts?_ofTexts]

theorem flag_of_get? {b : Bool} (found : entries.get? key = some (.bool b)) :
    flag entries key = .ok b := by
  simp [flag, found]

theorem parameter_ofParameter (given : String × List String) :
    parameter (.ofParameter given) = .ok given := by
  have listed : strings MethodFault.notStrings [("type", .text given.1),
      ("annotations", .ofTexts given.2)] "annotations" [] = .ok given.2 :=
    strings_of_get? rfl
  simp [parameter, Value.ofParameter, listed, bind, Except.bind]

theorem mapM_map_eq_ok {α β : Type} {read : α → Except ε β} {write : β → α} {given : List β}
    (reads : ∀ b ∈ given, read (write b) = .ok b) : (given.map write).mapM read = .ok given := by
  rw [mapM_eq_ok, List.map_map]
  exact List.map_congr_left reads

theorem methodBody_entries (aligned : m.Aligned) : methodBody m.name m.entries = .ok m := by
  have known : unknownKeys methodKeys m.entries = [] := unknownKeys_keys m.entries
  have parameters : ((m.parameters.zip m.parameterAnnotations).map Value.ofParameter).mapM
      parameter = .ok (m.parameters.zip m.parameterAnnotations) :=
    mapM_map_eq_ok fun given _ => parameter_ofParameter given
  have types : (m.parameters.zip m.parameterAnnotations).map (·.1) = m.parameters :=
    List.map_fst_zip (le_of_eq aligned.symm)
  have annotations : (m.parameters.zip m.parameterAnnotations).map (·.2) = m.parameterAnnotations :=
    List.map_snd_zip (le_of_eq aligned)
  have given : m.entries.get? "parameters" =
      some (.list ((m.parameters.zip m.parameterAnnotations).map .ofParameter)) := rfl
  have returns : m.entries.get? "returns" = some (.text m.returns) := rfl
  have synthetic : flag m.entries "synthetic" = .ok m.synthetic := flag_of_get? rfl
  have bridge : flag m.entries "bridge" = .ok m.bridge := flag_of_get? rfl
  have deprecated : flag m.entries "deprecated" = .ok m.deprecated := flag_of_get? rfl
  have modifiers : strings MethodFault.notStrings m.entries "modifiers" ["public"] =
      .ok m.modifiers := strings_of_get? rfl
  have others : strings MethodFault.notStrings m.entries "annotations" [] = .ok m.annotations :=
    strings_of_get? rfl
  simp only [methodBody, known, given, returns, parameters, synthetic, bridge, deprecated,
    modifiers, others, types, annotations, bind, Except.bind, pure, Except.pure]

theorem method_entries (aligned : m.Aligned) : method (.table m.entries) = .ok m :=
  mapError_eq_ok.mpr (methodBody_entries aligned)

theorem className_entries (proper : Proper entry decl) :
    className entry decl.entries = .ok decl.name := by
  have given : decl.entries.get? "name" = some (.text decl.name) := rfl
  cases expected : binaryName? entry with
  | none => simp [className, given, expected, proper.named, pure, Except.pure]
  | some name =>
    have same : decl.name = name := proper.agrees name expected
    have named : name ≠ "" := same ▸ proper.named
    simp [className, given, expected, same, named, pure, Except.pure]

theorem isInterface_entries : isInterface decl.entries = .ok decl.isInterface := by
  have given : decl.entries.get? "kind" = some (.text decl.kind) := rfl
  cases which : decl.isInterface <;> simp [isInterface, given, ClassDecl.kind, which]

theorem superclass_entries {name : String} :
    superclass name decl.isInterface decl.entries = .ok decl.superclass := by
  have given : decl.entries.get? "superclass" = some (.ofOption decl.superclass) := rfl
  cases declared : decl.superclass <;> simp [superclass, given, declared, Value.ofOption]

theorem read_entries (proper : Proper entry decl) :
    read entry (.table decl.entries) = .ok decl := by
  have known : unknownKeys classKeys decl.entries = [] := unknownKeys_keys decl.entries
  have methods : (decl.methods.map fun m => Value.table m.entries).mapM method =
      .ok decl.methods :=
    mapM_map_eq_ok fun m member => method_entries (proper.aligned m member)
  have given : decl.entries.get? "methods" =
      some (.list (decl.methods.map fun m => .table m.entries)) := rfl
  have modifiers : strings (DescriptorFault.notStrings "modifiers") decl.entries "modifiers"
      ["public"] = .ok decl.modifiers := strings_of_get? rfl
  have interfaces : strings (DescriptorFault.notStrings "interfaces") decl.entries "interfaces"
      [] = .ok decl.interfaces := strings_of_get? rfl
  simp only [read, known, given, methods, modifiers, interfaces, className_entries proper,
    isInterface_entries, superclass_entries, bind, Except.bind, pure, Except.pure]

end Written

section Accepted

variable {entry : String} {given : Value} {entries : Entries Value} {m : Method} {decl : ClassDecl}

theorem aligned_of_methodBody {name : String} (accepted : methodBody name entries = .ok m) :
    m.Aligned := by
  unfold methodBody at accepted
  dsimp only at accepted
  split at accepted
  case h_2 => cases accepted
  split at accepted
  case h_3 => cases accepted
  -- the parameters' two columns are made from one list, wherever it came from
  all_goals
    obtain ⟨_, -, accepted⟩ := bind_eq_ok.mp accepted
    obtain ⟨parameters, -, accepted⟩ := bind_eq_ok.mp accepted
    split at accepted
    case h_3 => cases accepted
    all_goals
      obtain ⟨returns, -, accepted⟩ := bind_eq_ok.mp accepted
      obtain ⟨synthetic, -, accepted⟩ := bind_eq_ok.mp accepted
      obtain ⟨bridge, -, accepted⟩ := bind_eq_ok.mp accepted
      obtain ⟨deprecated, -, accepted⟩ := bind_eq_ok.mp accepted
      obtain ⟨modifiers, -, accepted⟩ := bind_eq_ok.mp accepted
      obtain ⟨annotations, -, accepted⟩ := bind_eq_ok.mp accepted
      cases accepted
      simp [Method.Aligned]

theorem aligned_of_method (accepted : method given = .ok m) : m.Aligned := by
  unfold method at accepted
  split at accepted
  · split at accepted
    · exact aligned_of_methodBody (mapError_eq_ok.mp accepted)
    · cases accepted
  · cases accepted

theorem proper_of_className {name : String} (accepted : className entry entries = .ok name) :
    name ≠ "" ∧ ∀ expected, binaryName? entry = some expected → name = expected := by
  unfold className at accepted
  extract_lets stated rest at accepted
  clear_value stated
  have ending (returned : rest () = .ok name) : stated = .text name ∧ name ≠ "" := by
    dsimp only [rest] at returned
    split at returned
    · split at returned
      · cases returned
      · cases returned
        exact ⟨rfl, ‹_›⟩
    · cases returned
  split at accepted
  case h_1 _ _ expected _ holds =>
    split at accepted
    case isTrue => cases accepted
    case isFalse same =>
      obtain ⟨written, named⟩ := ending accepted
      cases written
      rw [holds]
      exact ⟨named, fun other agreed => Option.some.inj agreed ▸ not_not.mp same⟩
  case h_2 => cases accepted
  case h_3 _ _ resource =>
    rw [resource]
    exact ⟨(ending accepted).2, nofun⟩

theorem kind_of_isInterface {b : Bool} (accepted : isInterface entries = .ok b) :
    (entries.get? "kind").getD (.text "class") = .text (if b then "interface" else "class") := by
  unfold isInterface at accepted
  split at accepted <;> simp_all

theorem read_eq_ok (accepted : read entry given = .ok decl) :
    ∃ (entries : Entries Value) (methods : List Value), given = .table entries ∧
      className entry entries = .ok decl.name ∧ isInterface entries = .ok decl.isInterface ∧
      methods.mapM method = .ok decl.methods := by
  unfold read at accepted
  dsimp only at accepted
  split at accepted
  case h_2 => cases accepted
  obtain ⟨entries, same, accepted⟩ := bind_eq_ok.mp accepted
  cases same
  split at accepted
  case h_2 => cases accepted
  obtain ⟨name, named, accepted⟩ := bind_eq_ok.mp accepted
  obtain ⟨kind, kinded, accepted⟩ := bind_eq_ok.mp accepted
  obtain ⟨superclass, -, accepted⟩ := bind_eq_ok.mp accepted
  split at accepted
  case h_3 => cases accepted
  all_goals
    obtain ⟨listed, -, accepted⟩ := bind_eq_ok.mp accepted
    obtain ⟨modifiers, -, accepted⟩ := bind_eq_ok.mp accepted
    obtain ⟨interfaces, -, accepted⟩ := bind_eq_ok.mp accepted
    obtain ⟨methods, each, accepted⟩ := bind_eq_ok.mp accepted
    cases accepted
    exact ⟨_, listed, rfl, named, kinded, each⟩

theorem proper_of_read (accepted : read entry given = .ok decl) : Proper entry decl := by
  obtain ⟨entries, methods, -, named, -, each⟩ := read_eq_ok accepted
  obtain ⟨nonempty, agrees⟩ := proper_of_className named
  refine ⟨nonempty, agrees, fun m member => ?_⟩
  obtain ⟨written, -, made⟩ := exists_left_of_forall₂ (mapM_eq_ok_iff_forall₂.mp each) member
  exact aligned_of_method made

end Accepted

/-- The declarations that can be read for an entry are the proper ones. -/
theorem exists_read_iff {entry : String} {decl : ClassDecl} :
    (∃ given, read entry given = .ok decl) ↔ Proper entry decl :=
  ⟨fun ⟨_, accepted⟩ => proper_of_read accepted, fun proper => ⟨_, read_entries proper⟩⟩

/-- What is accepted for an entry gives a declaration that, written with nothing left out, is accepted
for that entry and gives itself. It has a name, which is the entry's if that names a class, it is of
the kind that was given, a class if none was, and its methods have a list of annotations to each
parameter. -/
theorem read_written (entry : String) (given : Value) (decl : ClassDecl)
    (accepted : read entry given = .ok decl) :
    read entry (.table decl.entries) = .ok decl ∧
    decl.entries.keys = classKeys ∧ (∀ m ∈ decl.methods, m.entries.keys = methodKeys) ∧
    decl.name ≠ "" ∧ (∀ name, binaryName? entry = some name → decl.name = name) ∧
    (decl.kind = "class" ∨ decl.kind = "interface") ∧
    (∃ entries : Entries Value, given = .table entries ∧
      (entries.get? "kind").getD (.text "class") = .text decl.kind) ∧
    ∀ m ∈ decl.methods, m.parameterAnnotations.length = m.parameters.length := by
  have proper := proper_of_read accepted
  obtain ⟨entries, -, same, -, kinded, -⟩ := read_eq_ok accepted
  refine ⟨read_entries proper, rfl, fun m _ => rfl, proper.named, proper.agrees, ?_,
    ⟨entries, same, kind_of_isInterface kinded⟩, proper.aligned⟩
  cases which : decl.isInterface <;> simp [ClassDecl.kind, which]

def labelGiven : Value :=
  .table [("superclass", .null), ("methods", .list [
    .table [("name", .text "setTag"), ("bridge", .bool true), ("parameters", .list [.text "int",
      .table [("type", .text "T"), ("annotations", .list [.text "androidx.annotation.Nullable"])],
      .table [("type", .text "T[]")]])]])]

def labelDecl : ClassDecl where
  name := "com.example.Label"
  isInterface := false
  modifiers := ["public"]
  superclass := none
  interfaces := []
  methods := [{
    name := "setTag"
    parameters := ["int", "T", "T[]"]
    parameterAnnotations := [[], ["androidx.annotation.Nullable"], []]
    returns := "void"
    modifiers := ["public"]
    annotations := []
    synthetic := false
    bridge := true
    deprecated := false }]

theorem label_written :
    read "com/example/Label.class" labelGiven = .ok labelDecl ∧
    read "com/example/Label.class" (.table labelDecl.entries) = .ok labelDecl := by
  have accepted : read "com/example/Label.class" labelGiven = .ok labelDecl :=
    toOption_eq_some.mp (by decide +kernel)
  exact ⟨accepted, (read_written _ labelGiven labelDecl accepted).1⟩

end Descriptor

end WidgetDsl
