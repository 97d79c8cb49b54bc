import WidgetDsl.CompilationUnit.Render
import WidgetDsl.Proofs.Spelling

/-!
How many braces are open after a text. Where no type has one in its name, imports and indentation
make no difference to that.
-/

namespace WidgetDsl.Java

section Braces

variable {n m : Nat} {a b text initial : List Char}

def isBraceless (s : String) : Bool :=
  s.toList.all fun c => c != '\x7b' && c != '\x7d'

@[simp] theorem isBraceless_append (s t : String) :
    isBraceless (s ++ t) = (isBraceless s && isBraceless t) := by
  simp [isBraceless]

def braceStep (n : Nat) (c : Char) : Option Nat :=
  if c = '\x7b' then some (n + 1)
  else if c = '\x7d' then (if n = 0 then none else some (n - 1))
  else some n

/-- How many braces are open after a text, given how many are before it. -/
def level (n : Nat) (text : List Char) : Option Nat :=
  text.foldlM braceStep n

theorem level_append : level n (a ++ b) = (level n a).bind fun m => level m b :=
  List.foldlM_append

theorem level_of_free (free : ∀ c ∈ text, c ≠ '\x7b' ∧ c ≠ '\x7d') : level n text = some n := by
  induction text with
  | nil => rfl
  | cons c rest ih =>
    have step : braceStep n c = some n := by
      simp [braceStep, free c (by simp)]
    have later := ih fun other member => free other (List.mem_cons_of_mem c member)
    simpa [level, step] using later

theorem ne_of_isBraceless {s : String} (free : isBraceless s = true) :
    ∀ c ∈ s.toList, c ≠ '\x7b' ∧ c ≠ '\x7d' := by
  simpa [isBraceless] using free

theorem level_of_isBraceless {s : String} (free : isBraceless s = true) :
    level n s.toList = some n :=
  level_of_free (ne_of_isBraceless free)

theorem level_flatMap_congr {α : Type} {pieces : List α} {f g : α → List Char}
    (alike : ∀ piece ∈ pieces, ∀ n, level n (f piece) = level n (g piece)) :
    level n (pieces.flatMap f) = level n (pieces.flatMap g) := by
  induction pieces generalizing n with
  | nil => rfl
  | cons piece rest ih =>
    have later (n : Nat) := ih (n := n) fun other member =>
      alike other (List.mem_cons_of_mem piece member)
    simp only [List.flatMap_cons, level_append, alike piece List.mem_cons_self, later]

theorem count_of_braceStep {c : Char} (step : braceStep n c = some m) :
    n + [c].count '\x7b' = m + [c].count '\x7d' := by
  by_cases opens : c = '\x7b'
  · subst opens
    cases step
    simp
  · by_cases closes : c = '\x7d'
    · subst closes
      cases n with
      | zero => cases step
      | succ n =>
        cases step
        simp
    · simp only [braceStep, if_neg opens, if_neg closes, Option.some.injEq] at step
      simp [step, opens, closes]

theorem count_of_level (leveled : level n text = some m) :
    n + text.count '\x7b' = m + text.count '\x7d' := by
  induction text generalizing n with
  | nil =>
    cases leveled
    rfl
  | cons c rest ih =>
    obtain ⟨k, step, later⟩ := Option.bind_eq_some_iff.mp leveled
    have first := count_of_braceStep step
    have others := ih later
    rw [List.count_cons, List.count_cons]
    simp only [List.count_singleton] at first
    omega

/-- A level counts what is open, so at no place of a text has it closed more than there is. -/
theorem count_le_of_level (leveled : level n text = some m) (first : initial <+: text) :
    initial.count '\x7d' ≤ n + initial.count '\x7b' := by
  obtain ⟨later, rfl⟩ := first
  rw [level_append] at leveled
  obtain ⟨k, reached, -⟩ := Option.bind_eq_some_iff.mp leveled
  have counted := count_of_level reached
  omega

end Braces

section Rendering

variable {imports : ImportTable} {n : Nat}

theorem isBraceless_intercalate {pieces : List String} (separator : String)
    (between : isBraceless separator = true) (free : ∀ s ∈ pieces, isBraceless s = true) :
    isBraceless (String.intercalate separator pieces) = true := by
  induction pieces with
  | nil => rfl
  | cons s rest ih =>
    have first := free s (by simp)
    have later := ih fun other member => free other (List.mem_cons_of_mem s member)
    cases rest with
    | nil => simpa using first
    | cons t others => simp [String.intercalate_cons_cons, first, between, later]

namespace TypeName

def isBraceless (type : TypeName) : Bool :=
  Java.isBraceless type.package && type.names.all Java.isBraceless

theorem isBraceless_brackets (depth : Nat) : Java.isBraceless (brackets depth) = true := by
  unfold Java.isBraceless
  rw [toList_brackets]
  simp

theorem isBraceless_canonical {type : TypeName} (free : type.isBraceless = true) :
    Java.isBraceless type.canonical = true := by
  obtain ⟨package, names⟩ := Bool.and_eq_true_iff.mp free
  have base := isBraceless_intercalate "." rfl (List.all_eq_true.mp names)
  have dot : Java.isBraceless "." = true := rfl
  unfold canonical
  split <;> simp [package, dot, base, isBraceless_brackets]

end TypeName

theorem isBraceless_spell {type : TypeName} (free : type.isBraceless = true) :
    isBraceless (imports.spell type) = true := by
  have names := (Bool.and_eq_true_iff.mp free).2
  have base := isBraceless_intercalate "." rfl (List.all_eq_true.mp names)
  have canonical : isBraceless { type with arrayDepth := 0 }.canonical = true :=
    TypeName.isBraceless_canonical free
  unfold ImportTable.spell
  split <;> simp [base, canonical, TypeName.isBraceless_brackets]

def Part.ownText : Part → List Char
  | .text s => s.toList
  | .type _ => []

def Part.isBraceless : Part → Bool
  | .text s => Java.isBraceless s
  | .type _ => true

@[simp] theorem Part.isBraceless_text (s : String) :
    (Part.text s).isBraceless = Java.isBraceless s := rfl

@[simp] theorem Part.isBraceless_type (type : TypeName) : (Part.type type).isBraceless = true := rfl

theorem level_parts {parts : List Part} (free : ∀ part ∈ parts, part.isBraceless = true) :
    level n (parts.flatMap Part.ownText) = some n := by
  refine level_of_free fun c member => ?_
  obtain ⟨part, inside, own⟩ := List.mem_flatMap.mp member
  cases part with
  | text s => exact ne_of_isBraceless (free _ inside) c own
  | type type => cases own

def ownText (lines : List Line) : List Char :=
  lines.flatMap fun line => line.parts.flatMap Part.ownText

def spelled (imports : ImportTable) (parts : List Part) : String :=
  String.join (parts.map (Part.spell imports))

theorem level_spelled (imports : ImportTable) {parts : List Part}
    (free : ∀ type, Part.type type ∈ parts → type.isBraceless = true) :
    level n (spelled imports parts).toList = level n (parts.flatMap Part.ownText) := by
  rw [spelled, String.toList_join, List.flatMap_map]
  refine level_flatMap_congr fun part member n => ?_
  cases part with
  | text s => rfl
  | type type => exact level_of_isBraceless (isBraceless_spell (free type member))

def indentation (depth : Int) : String :=
  String.join (List.replicate depth.toNat indentStep)

theorem render_eq (imports : ImportTable) (line : Line) : line.render imports =
    if Text.isBlankText (spelled imports line.parts) then ""
    else indentation line.depth ++ spelled imports line.parts :=
  rfl

theorem level_render {line : Line}
    (free : ∀ type, Part.type type ∈ line.parts → type.isBraceless = true) :
    level n (line.render imports).toList = level n (line.parts.flatMap Part.ownText) := by
  rw [← level_spelled imports free, render_eq]
  split
  case isTrue blank =>
    refine (level_of_free fun c member => ?_).symm
    have blanks := List.all_eq_true.mp blank c member
    constructor <;>
    · rintro rfl
      revert blanks
      decide
  case isFalse =>
    have margin : isBraceless (indentation line.depth) = true := by
      simp [isBraceless, indentation, String.toList_join, indentStep]
    rw [String.toList_append, level_append, level_of_isBraceless margin]
    rfl

theorem level_intercalate (texts : List String) :
    level n (String.intercalate "\n" texts).toList = level n (texts.flatMap String.toList) := by
  induction texts generalizing n with
  | nil => rfl
  | cons s rest ih =>
    cases rest with
    | nil => simp
    | cons t others =>
      have newline (n : Nat) : level n "\n".toList = some n := rfl
      simp only [String.intercalate_cons_cons, String.toList_append, level_append, Option.bind_assoc,
        newline, Option.bind_some, ih]
      simp only [List.flatMap_cons, level_append]

theorem level_render_block {block : CodeBlock}
    (free : ∀ type ∈ block.typeNames, type.isBraceless = true) :
    level n (String.intercalate "\n" (block.render imports)).toList =
      level n (ownText block.lines) := by
  rw [level_intercalate, CodeBlock.render, List.flatMap_map]
  refine level_flatMap_congr fun line member n => level_render fun type used => ?_
  exact free type (List.mem_flatMap.mpr ⟨line, member, List.mem_filterMap.mpr ⟨_, used, rfl⟩⟩)

end Rendering

end WidgetDsl.Java
