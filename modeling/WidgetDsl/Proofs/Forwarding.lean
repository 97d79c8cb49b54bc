import WidgetDsl.Proofs.Callbacks
import WidgetDsl.Proofs.ControlFlow
import WidgetDsl.Proofs.SameSource

/-!
What the class of a listener does that is written in place. Each of its methods passes on what it is
given in one call of the callback, asks the runtime to render once and hands back the answer of that
call, if there is one.
-/

namespace WidgetDsl

namespace Dispatch

open Relation ResolvedType
open Java (CodeBlock Line Part TypeName Writer)

def callbackName : String := "arg"

inductive Step where
  | forward (kept : Option (TypeName × String)) (method : String) (arguments : List String)
  | render
  | giveBack (name : String)

structure WrittenMethod where
  name : String
  returns : TypeName
  parameters : List (TypeName × String)
  body : List Step

section Text

variable (listener : TypeName) (names : RuntimeNames)

def keptParts : Option (TypeName × String) → List Part
  | none => []
  | some (type, name) => [.type type, .text (" " ++ name ++ " = ")]

def Step.parts : Step → List Part
  | forward kept method arguments => keptParts kept ++
      [Part.text "((", listener, ") " ++ callbackName ++ ")." ++ method ++ "(" ++
        String.intercalate ", " arguments ++ ")"]
  | render => [names.runtime, ".render()"]
  | giveBack name => ["return " ++ name]

def WrittenMethod.header (method : WrittenMethod) : List Part :=
  [Part.text "public ", method.returns, " " ++ method.name ++ "("] ++
    [Part.text ", "].intercalate (method.parameters.map fun (type, name) =>
      [.type type, .text (" " ++ name)]) ++ [Part.text ")"]

def WrittenMethod.lines (depth : Int) (method : WrittenMethod) : List Line :=
  ⟨depth, method.header ++ [.text " \x7b"]⟩ ::
    method.body.map (fun step => ⟨depth + 1, step.parts listener names ++ [.text ";"]⟩) ++
    [⟨depth, [.text "\x7d"]⟩]

def WrittenMethod.linesOf (depth : Int) (methods : List WrittenMethod) : List Line :=
  [⟨depth, [.text ""]⟩].intercalate (methods.map (lines listener names depth))

end Text

inductive Event (Value : Type) where
  | called (method : String) (arguments : List Value)
  | rendered

structure Outcome (Value : Type) where
  events : List (Event Value)
  answer : Option Value

section Running

variable {Value : Type} (callback : String → List Value → Value)

def declare (scope : List (String × Value)) (name : String) (value : Value) :
    Option (List (String × Value)) :=
  if name ∈ callbackName :: scope.map (·.1) then none else some ((name, value) :: scope)

/-- Runs statements for a callback. There is no outcome for what the compiler refuses: names that are
not in scope, and statements after a `return`. -/
def Step.run : List (String × Value) → List Step → Option (Outcome Value)
  | _, [] => some ⟨[], none⟩
  | scope, .forward kept method arguments :: rest => do
    let values ← arguments.mapM fun name => scope.lookup name
    let answer := callback method values
    let inner ← match kept with
      | none => some scope
      | some (_, name) => declare scope name answer
    let later ← run inner rest
    return { later with events := .called method values :: later.events }
  | scope, .render :: rest => do
    let later ← run scope rest
    return { later with events := .rendered :: later.events }
  | scope, [.giveBack name] => do
    let value ← scope.lookup name
    return ⟨[], some value⟩
  | _, .giveBack _ :: _ :: _ => none

def WrittenMethod.run (method : WrittenMethod) (values : List Value) : Option (Outcome Value) :=
  let names := method.parameters.map (·.2)
  if (callbackName :: names).Nodup ∧ values.length = names.length then
    Step.run callback (names.zip values) method.body
  else none

end Running

/-- A method does what the callback's method needs to have done in its place, whatever the callback
answers: it takes the same parameters, calls that method once with just what it is given, then has
the runtime render once, and hands back what the call has answered unless the method is void. -/
structure WrittenMethod.Forwards (method : WrittenMethod) (m : Method) : Prop where
  name : method.name = m.name
  returns : method.returns = .ofBinary m.returns
  types : method.parameters.map (·.1) = m.parameters.map TypeName.ofBinary
  runs : ∀ (Value : Type) (callback : String → List Value → Value) (values : List Value),
    values.length = m.parameters.length → method.run callback values =
      some ⟨[.called m.name values, .rendered],
        if m.returns = "void" then none else some (callback m.name values)⟩

def parameterNames (index count : Nat) : List String :=
  (List.range' index count).map fun index => "a" ++ toString index

def WrittenMethod.ofMethod (m : Method) : WrittenMethod where
  name := m.name
  returns := .ofBinary m.returns
  parameters := (m.parameters.map TypeName.ofBinary).zip (parameterNames 0 m.parameters.length)
  body :=
    let arguments := parameterNames 0 m.parameters.length
    if m.returns = "void" then [.forward none m.name arguments, .render]
    else [.forward (some (.ofBinary m.returns, "r")) m.name arguments, .render, .giveBack "r"]

theorem parameterNames_length (index count : Nat) :
    (parameterNames index count).length = count := by
  simp [parameterNames]

theorem argumentList_eq (count : Nat) :
    argumentList count = String.intercalate ", " (parameterNames 0 count) := by
  rw [argumentList, parameterNames, List.range_eq_range']

theorem parameterParts_eq (index : Nat) (type : String) (rest : List String) :
    parameterParts index (type :: rest) =
      (if index = 0 then [] else [Part.text ", "]) ++
        [Part.text ", "].intercalate ((((type :: rest).map TypeName.ofBinary).zip
          (parameterNames index (rest.length + 1))).map fun (type, name) =>
            [.type type, .text (" " ++ name)]) := by
  have spaced (name : String) : " a" ++ name = " " ++ ("a" ++ name) := by
    rw [← String.append_assoc]
    rfl
  induction rest generalizing index type with
  | nil => simp [parameterParts, parameterNames, spaced]
  | cons other rest ih =>
    rw [parameterParts, ih]
    simp [parameterNames, List.range'_succ, List.intercalate_cons_cons, spaced]

theorem header_ofMethod (m : Method) : (WrittenMethod.ofMethod m).header =
    [Part.text "public ", TypeName.ofBinary m.returns, " " ++ m.name ++ "("] ++
      parameterParts 0 m.parameters ++ [Part.text ")"] := by
  cases parameters : m.parameters with
  | nil => simp [WrittenMethod.header, WrittenMethod.ofMethod, parameters, parameterParts]
  | cons type rest =>
    rw [parameterParts_eq]
    simp [WrittenMethod.header, WrittenMethod.ofMethod, parameters]

theorem run_forwardingMethod (w : Writer) (listener : TypeName) (names : RuntimeNames)
    (m : Method) : w.run (forwardingMethod listener names m) =
      { w with lines := w.lines ++
          (WrittenMethod.ofMethod m).lines listener names w.depth } := by
  rw [WrittenMethod.lines, header_ofMethod, forwardingMethod, argumentList_eq]
  split
  · simp [WrittenMethod.ofMethod, *, Step.parts, keptParts, callbackName]
  · simp [WrittenMethod.ofMethod, *, Step.parts, keptParts, callbackName]

theorem run_separated (w : Writer) (listener : TypeName) (names : RuntimeNames)
    (methods : List Method) :
    w.run (separated (methods.map (forwardingMethod listener names))) =
      { w with lines := w.lines ++
          WrittenMethod.linesOf listener names w.depth (methods.map .ofMethod) } := by
  induction methods generalizing w with
  | nil => simp [separated, WrittenMethod.linesOf]
  | cons m rest ih =>
    cases rest with
    | nil => simp [separated, run_forwardingMethod, WrittenMethod.linesOf]
    | cons other rest =>
      rw [List.map_cons, List.map_cons, separated, Writer.run_append, run_forwardingMethod,
        Writer.run_cons, ← List.map_cons, ih]
      · simp [WrittenMethod.linesOf, List.intercalate_cons_cons]
      · simp

theorem lookup_of_mem {Value : Type} {scope : List (String × Value)} {name : String} {value : Value}
    (distinct : (scope.map (·.1)).Nodup) (member : (name, value) ∈ scope) :
    scope.lookup name = some value := by
  induction scope with
  | nil => cases member
  | cons first rest ih =>
    obtain ⟨firstName, firstValue⟩ := first
    simp only [List.map_cons, List.nodup_cons] at distinct
    rcases List.mem_cons.mp member with here | later
    · cases here
      exact List.lookup_cons_self
    · have other : (name == firstName) = false := by
        rw [beq_eq_false_iff_ne]
        rintro rfl
        exact distinct.1 (List.mem_map_of_mem later)
      rw [List.lookup_cons, other, ih distinct.2 later]

theorem mapM_lookup {Value : Type} {scope : List (String × Value)} {names : List String}
    {values : List Value} (sameLength : values.length = names.length)
    (found : ∀ name value, (name, value) ∈ names.zip values → scope.lookup name = some value) :
    names.mapM (fun name => scope.lookup name) = some values := by
  induction names generalizing values with
  | nil =>
    obtain rfl := List.length_eq_zero_iff.mp sameLength
    rfl
  | cons name names ih =>
    cases values with
    | nil => cases sameLength
    | cons value values =>
      have first := found name value (by simp)
      have later := ih (by simpa using sameLength) fun other value member =>
        found other value (by simp [member])
      simp [first, later]

theorem mem_parameterNames {index count : Nat} {name : String}
    (member : name ∈ parameterNames index count) :
    ∃ digits : List Char, name.toList = 'a' :: digits ∧ ∀ c ∈ digits, c.isDigit = true := by
  obtain ⟨i, -, rfl⟩ := List.mem_map.mp member
  refine ⟨Nat.toDigits 10 i, by simp, fun c digit => ?_⟩
  exact Nat.isDigit_of_mem_toDigits (by decide) (by decide) digit

theorem parameterNames_nodup (index count : Nat) : (parameterNames index count).Nodup := by
  refine List.Nodup.map (fun i j same => ?_) List.nodup_range'
  have digits : Nat.toDigits 10 i = Nat.toDigits 10 j := by
    simpa using congrArg String.toList same
  have read (n : Nat) : Nat.ofDigitChars 10 (Nat.toDigits 10 n) 0 = n :=
    Nat.ofDigitChars_toDigits (by decide) (by decide)
  rw [← read i, digits, read j]

theorem callbackName_not_mem (index count : Nat) : callbackName ∉ parameterNames index count := by
  intro member
  obtain ⟨digits, spelled, all⟩ := mem_parameterNames member
  obtain rfl : ['r', 'g'] = digits := (List.cons.inj spelled).2
  simpa using all 'r' (by simp)

theorem result_not_mem (index count : Nat) : "r" ∉ parameterNames index count := by
  intro member
  obtain ⟨digits, spelled, -⟩ := mem_parameterNames member
  simp at spelled

theorem ofMethod_forwards (m : Method) : (WrittenMethod.ofMethod m).Forwards m where
  name := rfl
  returns := rfl
  types := by
    simp [WrittenMethod.ofMethod, List.map_fst_zip, parameterNames_length]
  runs Value callback values sameLength := by
    have names : (WrittenMethod.ofMethod m).parameters.map (·.2) =
        parameterNames 0 m.parameters.length := by
      simp [WrittenMethod.ofMethod, List.map_snd_zip, parameterNames_length]
    have length : values.length = (parameterNames 0 m.parameters.length).length := by
      rw [parameterNames_length, sameLength]
    have scopeNames : ((parameterNames 0 m.parameters.length).zip values).map (·.1) =
        parameterNames 0 m.parameters.length := List.map_fst_zip (Nat.le_of_eq length.symm)
    -- each name means what it is to mean only because none hides another
    have distinct : (callbackName :: parameterNames 0 m.parameters.length).Nodup :=
      List.nodup_cons.mpr ⟨callbackName_not_mem 0 _, parameterNames_nodup 0 _⟩
    have found := mapM_lookup length fun name value member =>
      lookup_of_mem (by rw [scopeNames]; exact parameterNames_nodup 0 _) member
    rw [WrittenMethod.run, names, if_pos ⟨distinct, length⟩]
    by_cases void : m.returns = "void"
    · simp [WrittenMethod.ofMethod, void, Step.run, found]
    · have declared := result_not_mem 0 m.parameters.length
      simp [WrittenMethod.ofMethod, void, Step.run, found, declare, scopeNames, declared, callbackName]

/-- What is written for a listener forwards each method that the listener's type leaves to be
implemented. For each signature that it or an interface it reaches leaves so, there is one. -/
theorem implementation_forwards (lib : Library) (interface : ResolvedType) (names : RuntimeNames)
    (loaded : lib.Loaded interface) :
    (∀ member ∈ interface.abstractMethods, ReflTransGen Lists interface member.declaring ∧
      member.method ∈ member.declaring.methods ∧ member.method.isAbstract = true ∧
      member.method.isStatic = false) ∧
    (∀ other, ReflTransGen Lists interface other → ∀ m ∈ other.methods, m.isAbstract = true →
      m.isStatic = false → ∃ member ∈ interface.abstractMethods,
        member.method.signature = m.signature) ∧
    interface.abstractMethods.Pairwise (·.method.Before ·.method) ∧
    ∃ code methods, implementation interface names = .ok code ∧
      code.lines = WrittenMethod.linesOf (.ofBinary interface.name) names 0 methods ∧
      List.Forall₂ (fun member method => WrittenMethod.Forwards method member.method)
        interface.abstractMethods methods := by
  refine ⟨fun member listed => ?_, fun other reached m declared abstract unbound => ?_,
    List.pairwise_map.mp (required_before interface), ?_⟩
  · obtain ⟨declaring, here, own⟩ := mem_abstractMethods listed
    exact ⟨loaded.mem_interfaceClosure.mp declaring, here, by simpa [Method.isOpen] using own⟩
  · have isOpen : m.isOpen = true := by simp [Method.isOpen, abstract, unbound]
    exact exists_abstractMethods (loaded.mem_interfaceClosure.mpr reached) declared isOpen
  · obtain ⟨code, implemented⟩ := exists_implementation interface names
    have written := (CodeBlock.ofCalls_eq_ok_iff.mp implemented).2
    rw [forwardingMethods_eq, run_separated] at written
    refine ⟨code, _, implemented, written, ?_⟩
    rw [required, List.map_map, List.forall₂_map_right_iff, List.forall₂_same]
    exact fun member _ => ofMethod_forwards member.method

end Dispatch

namespace Gestures

def names : RuntimeNames :=
  .ofConfig (.ofNames "com.example.widget.Widget" "com.example.dsl" "DSL")

theorem clicks_forwarded : library.Loaded gestureType ∧
    ∃ code methods, Dispatch.implementation gestureType names = .ok code ∧
      code.lines = Dispatch.WrittenMethod.linesOf (.ofBinary gestureType.name) names 0 methods ∧
      ∃ member ∈ gestureType.abstractMethods, member.method.signature = onClick.signature ∧
        ∃ method ∈ methods, Dispatch.WrittenMethod.Forwards method member.method := by
  obtain ⟨-, complete, -, code, methods, implemented, written, forwards⟩ :=
    Dispatch.implementation_forwards library gestureType names gesture_loaded
  have declared : onClick ∈ clickType.methods := by
    rw [methods_typeOf (by simp [declarations])]
    simp [clickDecl]
  obtain ⟨member, listed, same⟩ := complete clickType click_reached onClick declared rfl rfl
  have forwarded := exists_left_of_forall₂ forwards.flip listed
  exact ⟨gesture_loaded, code, methods, implemented, written, member, listed, same, forwarded⟩

end Gestures

end WidgetDsl
