import WidgetDsl.Proofs.SmallScans
import WidgetDsl.Proofs.InterfaceWalk

/-!
Which of several declarations of a callback counts: the one that a walk up the interface lists comes to
first. It need not be the one furthest down, as an interface may list what one of the others that it
lists has redeclared.
-/

namespace WidgetDsl

open Relation ResolvedType

/-- Of the methods of one signature that are left to be implemented the one stays that the walk comes
to first. The walk comes to all interfaces, those in fewer steps first. So what is redeclared further
down takes the place of an inherited method if it is abstract itself and the walk comes to it
earlier. -/
theorem ResolvedType.stays_iff_met_first (lib : Library) (interface : ResolvedType)
    (loaded : lib.Loaded interface) :
    (∀ other, other ∈ interface.interfaceClosure ↔ ReflTransGen Lists interface other) ∧
    interface.interfaceClosure.Pairwise (fun a b => a.name ≠ b.name ∧ NoFarther interface a b) ∧
    (∀ member, member ∈ interface.abstractMethods ↔
      ∃ before after, interface.interfaceClosure = before ++ member.declaring :: after ∧
        (member.declaring.methods.filter (·.isOpen)).find?
          (·.signature = member.method.signature) = some member.method ∧
        ∀ nearer ∈ before, ∀ m ∈ nearer.methods, m.isOpen = true →
          m.signature ≠ member.method.signature) ∧
    ∀ member ∈ interface.abstractMethods, ∀ other, ReflTransGen Lists interface other →
      other.isSubtypeOf member.declaring = true → ∀ m ∈ other.methods, m.isStatic = false →
        m.signature = member.method.signature →
        m.isAbstract = false ∨
          [member.declaring, other].Sublist interface.interfaceClosure := by
  refine ⟨fun _ => loaded.mem_interfaceClosure, ?_, fun _ => mem_abstractMethods_iff, ?_⟩
  · exact (reachInterfaces_distinct _ _).imp₂ (fun _ _ => And.intro)
      loaded.interfaceClosure_nearest
  · intro member listed other reached below m declared unbound same
    obtain ⟨before, after, met, -, first⟩ := mem_abstractMethods_iff.mp listed
    by_cases abstract : m.isAbstract = true
    · have isOpen : m.isOpen = true := by simp [Method.isOpen, abstract, unbound]
      have inWalk := loaded.mem_interfaceClosure.mpr reached
      rw [met, List.mem_append, List.mem_cons] at inWalk
      -- had the walk come to the redeclaration earlier, it would have stayed
      rcases inWalk with earlier | rfl | later
      · exact absurd same (first other earlier m declared isOpen)
      · rw [Library.isSubtypeOf_irrefl (loaded.reached reached)] at below
        cases below
      · right
        rw [met]
        have last := (List.singleton_sublist.mpr later).cons_cons member.declaring
        exact last.trans (List.sublist_append_right before _)
    · exact .inl (Bool.eq_false_of_not_eq_true abstract)

/-- Of what is declared further up, nothing stays that an interface in between redeclares, with a body
or without. -/
def ResolvedType.HidesRedeclared (interface : ResolvedType) : Prop :=
  ∀ member ∈ interface.abstractMethods, ∀ other, ReflTransGen Lists interface other →
    other.isSubtypeOf member.declaring = true → ∀ m ∈ other.methods, m.isStatic = false →
      m.signature ≠ member.method.signature

/-! Listeners for gestures. One lists events ahead of clicks, which redeclare the method for events, and
another one has a body for that method. -/

namespace Gestures

def onEvent (returns : String) (modifiers : List String) : Method :=
  ⟨"onEvent", ["java.lang.Object"], [[]], returns, modifiers, [], false, false, false⟩

def event : Method :=
  onEvent "java.lang.Object" ["public", "abstract"]

def clickEvent : Method :=
  onEvent "java.lang.String" ["public", "abstract"]

def quietEvent : Method :=
  onEvent "java.lang.Object" ["public"]

def onClick : Method :=
  ⟨"onClick", ["int", "int"], [[], []], "void", ["public", "abstract"], [], false, false, false⟩

def eventDecl : ClassDecl :=
  ⟨"com.example.EventListener", true, ["public"], none, [], [event]⟩

def clickDecl : ClassDecl :=
  ⟨"com.example.ClickListener", true, ["public"], none, [eventDecl.name],
    [clickEvent, onClick]⟩

def gestureDecl : ClassDecl :=
  ⟨"com.example.GestureListener", true, ["public"], none, [eventDecl.name, clickDecl.name], []⟩

def quietDecl : ClassDecl :=
  ⟨"com.example.QuietListener", true, ["public"], none, [eventDecl.name], [quietEvent]⟩

def declarations : List ClassDecl :=
  [eventDecl, clickDecl, gestureDecl, quietDecl]

def library : Library :=
  ⟨[⟨"lib.json", declarations.map fun decl => (entryName decl.name, decl)⟩]⟩

abbrev eventType : ResolvedType := library.typeOf eventDecl.name

abbrev clickType : ResolvedType := library.typeOf clickDecl.name

abbrev gestureType : ResolvedType := library.typeOf gestureDecl.name

abbrev quietType : ResolvedType := library.typeOf quietDecl.name

theorem typeOf_read : ∀ decl ∈ declarations, library.isNear decl.name = true ∧
    (library.typeOf decl.name).kind = .interfaceType ∧
    (library.typeOf decl.name).methods = decl.methods := by
  decide +kernel

theorem typeOf_loaded {decl : ClassDecl} (declared : decl ∈ declarations) :
    library.Loaded (library.typeOf decl.name) :=
  ⟨decl.name, Library.resolve_typeOf (typeOf_read decl declared).1⟩

theorem above_read :
    gestureType.interfaceClosure.map (·.name) =
      [gestureDecl, eventDecl, clickDecl].map (fun decl => (library.typeOf decl.name).name) ∧
    quietType.interfaceClosure.map (·.name) =
      [quietDecl, eventDecl].map (fun decl => (library.typeOf decl.name).name) ∧
    clickType.isSubtypeOf eventType = true ∧
    quietType.isSubtypeOf eventType = true := by
  decide +kernel

theorem gesture_loaded : library.Loaded gestureType :=
  typeOf_loaded (by simp [declarations])

theorem quiet_loaded : library.Loaded quietType :=
  typeOf_loaded (by simp [declarations])

theorem methods_typeOf {decl : ClassDecl} (declared : decl ∈ declarations) :
    (library.typeOf decl.name).methods = decl.methods :=
  (typeOf_read decl declared).2.2

theorem isInterface_typeOf {decl : ClassDecl} (declared : decl ∈ declarations) :
    (library.typeOf decl.name).isInterface = true := by
  rw [isInterface, (typeOf_read decl declared).2.1]
  rfl

theorem walk_of_names {interface : ResolvedType} {decls : List ClassDecl}
    (loaded : library.Loaded interface) (declared : ∀ decl ∈ decls, decl ∈ declarations)
    (names : interface.interfaceClosure.map (·.name) =
      decls.map fun decl => (library.typeOf decl.name).name) :
    interface.interfaceClosure = decls.map (library.typeOf ·.name) := by
  have met : ∀ type ∈ interface.interfaceClosure, library.Loaded type :=
    fun _ member => loaded.reached (reaches_of_mem_interfaceClosure member)
  generalize interface.interfaceClosure = walk at names met ⊢
  induction walk generalizing decls with
  | nil =>
    cases decls with
    | nil => rfl
    | cons => simp at names
  | cons type walk ih =>
    cases decls with
    | nil => simp at names
    | cons decl decls =>
      simp only [List.map_cons, List.cons.injEq] at names ⊢
      refine ⟨(met type (by simp)).eq_of_name_eq (typeOf_loaded (declared decl (by simp))) names.1,
        ih (fun other listed => declared other (by simp [listed])) names.2
          fun other later => met other (by simp [later])⟩

theorem gesture_walk : gestureType.interfaceClosure =
    [gestureDecl, eventDecl, clickDecl].map (library.typeOf ·.name) :=
  walk_of_names gesture_loaded (by simp [declarations]) above_read.1

theorem quiet_walk : quietType.interfaceClosure = [quietDecl, eventDecl].map (library.typeOf ·.name) :=
  walk_of_names quiet_loaded (by simp [declarations]) above_read.2.1

def declaredEvent : Member :=
  ⟨eventType, event⟩

theorem declaredEvent_stays {first : ClassDecl} {after : List ResolvedType}
    (declared : first ∈ declarations)
    (walk : (library.typeOf first.name).interfaceClosure =
      library.typeOf first.name :: eventType :: after)
    (unopened : ∀ m ∈ first.methods, m.isOpen = false) :
    declaredEvent ∈ (library.typeOf first.name).abstractMethods := by
  have found : (eventType.methods.filter (·.isOpen)).find?
      (·.signature = declaredEvent.method.signature) = some declaredEvent.method := by
    rw [methods_typeOf (by simp [declarations])]
    rfl
  refine mem_abstractMethods_iff.mpr ⟨[library.typeOf first.name], after, walk, found, ?_⟩
  intro nearer here m listed isOpen
  obtain rfl := List.mem_singleton.mp here
  rw [methods_typeOf declared] at listed
  rw [unopened m listed] at isOpen
  cases isOpen

theorem gesture_event : declaredEvent ∈ gestureType.abstractMethods :=
  declaredEvent_stays (by simp [declarations]) gesture_walk (by simp [gestureDecl])

theorem quiet_event : declaredEvent ∈ quietType.abstractMethods :=
  declaredEvent_stays (by simp [declarations]) quiet_walk
    (by simp [quietDecl, quietEvent, onEvent, Method.isOpen, Method.isAbstract])

theorem click_reached : ReflTransGen Lists gestureType clickType :=
  reaches_of_mem_interfaceClosure (by simp [gesture_walk])

theorem clickEvent_declared : clickEvent ∈ clickType.methods := by
  rw [methods_typeOf (by simp [declarations])]
  simp [clickDecl]

theorem quietEvent_declared : quietEvent ∈ quietType.methods := by
  rw [methods_typeOf (by simp [declarations])]
  simp [quietDecl]

theorem event_met_first : library.Loaded gestureType ∧
    declaredEvent ∈ gestureType.abstractMethods ∧
    [eventType, clickType].Sublist gestureType.interfaceClosure := by
  have order := (ResolvedType.stays_iff_met_first library gestureType gesture_loaded).2.2.2
  have ahead := order declaredEvent gesture_event clickType click_reached
    above_read.2.2.1 clickEvent clickEvent_declared rfl rfl
  exact ⟨gesture_loaded, gesture_event, ahead.resolve_left nofun⟩

/-- Neither a redeclaration that the walk comes to later hides the inherited method nor one with a
body. -/
theorem redeclared_stay :
    (library.Loaded gestureType ∧ gestureType.isInterface = true ∧
      ¬ gestureType.HidesRedeclared) ∧
    library.Loaded quietType ∧ quietType.isInterface = true ∧
      ¬ quietType.HidesRedeclared := by
  refine ⟨⟨gesture_loaded, isInterface_typeOf (by simp [declarations]), fun hides => ?_⟩,
    quiet_loaded, isInterface_typeOf (by simp [declarations]), fun hides => ?_⟩
  · exact hides declaredEvent gesture_event clickType click_reached above_read.2.2.1
      clickEvent clickEvent_declared rfl rfl
  · exact hides declaredEvent quiet_event quietType .refl above_read.2.2.2 quietEvent
      quietEvent_declared rfl rfl

end Gestures

end WidgetDsl
