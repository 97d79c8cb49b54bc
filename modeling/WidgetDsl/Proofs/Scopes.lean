import WidgetDsl.Proofs.Braces
import WidgetDsl.Proofs.ControlFlow

/-!
What calls write that leave the scopes they enter: lines in which each that opens a block has one to
close it, at its own depth with deeper lines between, and in which braces are balanced.
-/

namespace WidgetDsl.Java

/-- What calls can be inside of: a block between braces, or only a deeper margin. -/
inductive Scope where
  | block
  | margin
  deriving DecidableEq, Repr

def Call.scopes : Call → List Scope → Option (List Scope)
  | .opening _, inside => some (.block :: inside)
  | .next _, .block :: inside => some (.block :: inside)
  | .closing _, .block :: inside => some inside
  | .indent, inside => some (.margin :: inside)
  | .unindent, .margin :: inside => some inside
  | .line _, inside => some inside
  | .statement _, inside => some inside
  | .block _, inside => some inside
  | _, _ => none

def scopes (calls : List Call) (inside : List Scope) : Option (List Scope) :=
  calls.foldlM (fun inside call => call.scopes inside) inside

theorem scopes_append (a b : List Call) (inside : List Scope) :
    scopes (a ++ b) inside = (scopes a inside).bind (scopes b) :=
  List.foldlM_append

section Leaving

variable {parts : List Part} {ending : String} {inside within : List Scope}

theorem scopes_next (enters : (Call.next parts).scopes inside = some within) :
    ∃ outer, inside = .block :: outer ∧ within = .block :: outer := by
  rcases inside with _ | ⟨_ | _, outer⟩
  · cases enters
  · cases enters
    exact ⟨outer, rfl, rfl⟩
  · cases enters

theorem scopes_closing (enters : (Call.closing ending).scopes inside = some within) :
    inside = .block :: within := by
  rcases inside with _ | ⟨_ | _, outer⟩
  · cases enters
  · cases enters
    rfl
  · cases enters

theorem scopes_unindent (enters : Call.unindent.scopes inside = some within) :
    inside = .margin :: within := by
  rcases inside with _ | ⟨_ | _, outer⟩
  · cases enters
  · cases enters
  · cases enters
    rfl

end Leaving

section Nesting

variable {imports : ImportTable} {depth : Int} {lines later : List Line} {line : Line}

def Line.Opens (imports : ImportTable) (line : Line) : Prop :=
  (spelled imports line.parts).toList.getLast? = some '\x7b'

def Line.Closes (imports : ImportTable) (line : Line) : Prop :=
  (spelled imports line.parts).toList.head? = some '\x7d'

def ClosesAt (imports : ImportTable) (depth : Int) (lines : List Line) : Prop :=
  ∃ inner closer rest, lines = inner ++ closer :: rest ∧ (∀ l ∈ inner, depth < l.depth) ∧
    closer.depth = depth ∧ closer.Closes imports

/-- Whether each line that opens a block is closed after it. -/
def Matched (imports : ImportTable) : List Line → Prop
  | [] => True
  | line :: later => (line.Opens imports → ClosesAt imports line.depth later) ∧ Matched imports later

def Unwinds (imports : ImportTable) : List Scope → Int → List Line → Prop
  | [], _, _ => True
  | .block :: inside, depth, lines =>
    ClosesAt imports (depth - 1) lines ∧ Unwinds imports inside (depth - 1) lines
  | .margin :: inside, depth, lines => Unwinds imports inside (depth - 1) lines

namespace ClosesAt

theorem prepend {new : List Line} (closes : ClosesAt imports depth lines)
    (deeper : ∀ l ∈ new, depth < l.depth) : ClosesAt imports depth (new ++ lines) := by
  obtain ⟨inner, closer, rest, rfl, between, placed, closing⟩ := closes
  refine ⟨new ++ inner, closer, rest, by simp, fun l member => ?_, placed, closing⟩
  rcases List.mem_append.mp member with first | second
  · exact deeper l first
  · exact between l second

theorem first (closing : line.Closes imports) (rest : List Line) :
    ClosesAt imports line.depth (line :: rest) :=
  ⟨[], line, rest, rfl, nofun, rfl, closing⟩

theorem shift (closes : ClosesAt imports depth lines) (levels : Int) :
    ClosesAt imports (levels + depth)
      (lines.map fun line => { line with depth := levels + line.depth }) := by
  obtain ⟨inner, closer, rest, rfl, between, rfl, closing⟩ := closes
  refine ⟨_, _, _, List.map_append, ?_, rfl, closing⟩
  simpa using between

theorem append (closes : ClosesAt imports depth lines) (later : List Line) :
    ClosesAt imports depth (lines ++ later) := by
  obtain ⟨inner, closer, rest, rfl, between, placed, closing⟩ := closes
  exact ⟨inner, closer, rest ++ later, by simp, between, placed, closing⟩

end ClosesAt

namespace Matched

theorem append (first : Matched imports lines) (second : Matched imports later) :
    Matched imports (lines ++ later) := by
  induction lines with
  | nil => exact second
  | cons line rest ih => exact ⟨fun opens => (first.1 opens).append later, ih first.2⟩

theorem shift (matched : Matched imports lines) (levels : Int) :
    Matched imports (lines.map fun line => { line with depth := levels + line.depth }) := by
  induction lines with
  | nil => trivial
  | cons line rest ih => exact ⟨fun opens => (matched.1 opens).shift levels, ih matched.2⟩

theorem closesAt {before after : List Line} (matched : Matched imports (before ++ line :: after))
    (opens : line.Opens imports) : ClosesAt imports line.depth after := by
  induction before with
  | nil => exact matched.1 opens
  | cons _ _ ih => exact ih matched.2

end Matched

theorem Unwinds.prepend {inside : List Scope} (new : List Line)
    (unwinds : Unwinds imports inside depth lines) (deep : ∀ l ∈ new, depth ≤ l.depth) :
    Unwinds imports inside depth (new ++ lines) := by
  induction inside generalizing depth with
  | nil => trivial
  | cons scope inside ih =>
    have deeper : ∀ l ∈ new, depth - 1 < l.depth := fun l member => by
      have here := deep l member
      omega
    have outer (unwinds : Unwinds imports inside (depth - 1) lines) :
        Unwinds imports inside (depth - 1) (new ++ lines) :=
      ih unwinds fun l member => (deeper l member).le
    cases scope with
    | block => exact ⟨unwinds.1.prepend deeper, outer unwinds.2⟩
    | margin => exact outer unwinds

/-- Lines from some depth on, written inside of scopes that they leave all of. If they are clean, no
text has a brace but to open or close a block. -/
structure Nested (imports : ImportTable) (clean : Prop) (inside : List Scope) (depth : Int)
    (lines : List Line) : Prop where
  deep : ∀ line ∈ lines, depth - inside.length ≤ line.depth
  matched : Matched imports lines
  unwinds : Unwinds imports inside depth lines
  leveled : clean → ∀ n, level (n + inside.count .block) (ownText lines) = some n

variable {clean : Prop} {inside : List Scope} {parts : List Part}

theorem ownText_append (a b : List Line) : ownText (a ++ b) = ownText a ++ ownText b :=
  List.flatMap_append

theorem ownText_cons (line : Line) (rest : List Line) :
    ownText (line :: rest) = line.parts.flatMap Part.ownText ++ ownText rest :=
  rfl

namespace Nested

theorem nil : Nested imports clean [] depth [] where
  deep := nofun
  matched := trivial
  unwinds := trivial
  leveled _ _ := rfl

theorem prepend {new : List Line} (first : Nested imports clean [] depth new)
    (rest : Nested imports clean inside depth lines) :
    Nested imports clean inside depth (new ++ lines) where
  deep line member := by
    rcases List.mem_append.mp member with here | there
    · have deep := first.deep line here
      simp only [List.length_nil] at deep
      omega
    · exact rest.deep line there
  matched := first.matched.append rest.matched
  unwinds := rest.unwinds.prepend new fun l member => by simpa using first.deep l member
  leveled cleanly n := by
    have same := first.leveled cleanly (n + inside.count .block)
    simp only [List.count_nil, Nat.add_zero] at same
    rw [ownText_append, level_append, same]
    exact rest.leveled cleanly n

theorem single (plain : ¬ Line.Opens imports ⟨depth, parts⟩)
    (free : clean → ∀ part ∈ parts, part.isBraceless = true) :
    Nested imports clean [] depth [⟨depth, parts⟩] where
  deep := by simp
  matched := ⟨fun opens => absurd opens plain, trivial⟩
  unwinds := trivial
  leveled cleanly n := by
    simpa [ownText] using level_parts (free cleanly)

theorem opening (free : clean → ∀ part ∈ parts, part.isBraceless = true)
    (rest : Nested imports clean (.block :: inside) (depth + 1) lines) :
    Nested imports clean inside depth (⟨depth, parts ++ [.text " \x7b"]⟩ :: lines) := by
  obtain ⟨deep, matched, ⟨closes, unwinds⟩, leveled⟩ := rest
  simp only [Int.add_sub_cancel] at closes unwinds
  constructor
  · simp only [List.length_cons, List.forall_mem_cons] at deep ⊢
    push_cast at deep
    refine ⟨by omega, fun line member => ?_⟩
    have below := deep line member
    omega
  · exact ⟨fun _ => closes, matched⟩
  · exact unwinds.prepend [_] (by simp)
  · intro cleanly n
    have opened (k : Nat) : level k (Part.ownText (.text " \x7b")) = some (k + 1) := rfl
    have inner := leveled cleanly n
    simp only [List.count_cons_self, ← Nat.add_assoc] at inner
    rw [ownText_cons, List.flatMap_append, level_append, level_append, level_parts (free cleanly)]
    simpa [opened] using inner

theorem closing {ending : String} (plain : ending.toList.getLast? ≠ some '\x7b')
    (free : clean → Java.isBraceless ending = true)
    (rest : Nested imports clean inside (depth - 1) lines) :
    Nested imports clean (.block :: inside) depth
      (⟨depth - 1, [.text ("\x7d" ++ ending)]⟩ :: lines) := by
  obtain ⟨deep, matched, unwinds, leveled⟩ := rest
  have closes : Line.Closes imports ⟨depth - 1, [.text ("\x7d" ++ ending)]⟩ := by
    simp [Line.Closes, spelled, Part.spell]
  have ends : ¬ Line.Opens imports ⟨depth - 1, [.text ("\x7d" ++ ending)]⟩ := by
    cases last : ending.toList.getLast? with
    | none => simp [Line.Opens, spelled, Part.spell, List.getLast?_cons, last]
    | some c => simpa [Line.Opens, spelled, Part.spell, List.getLast?_cons, last] using plain
  constructor
  · simp only [List.length_cons, List.forall_mem_cons]
    push_cast
    refine ⟨by omega, fun line member => ?_⟩
    have below := deep line member
    omega
  · exact ⟨fun opens => absurd opens ends, matched⟩
  · exact ⟨.first closes lines, unwinds.prepend [_] (by simp)⟩
  · intro cleanly n
    have brace (k : Nat) : level (k + 1) "\x7d".toList = some k := rfl
    have closed (k : Nat) : level (k + 1) ("\x7d" ++ ending).toList = some k := by
      rw [String.toList_append, level_append, brace]
      exact level_of_isBraceless (free cleanly)
    rw [List.count_cons_self, ← Nat.add_assoc, ownText_cons, level_append]
    simp only [List.flatMap_singleton, Part.ownText, closed, Option.bind_some]
    exact leveled cleanly n

theorem next (free : clean → ∀ part ∈ parts, part.isBraceless = true)
    (rest : Nested imports clean (.block :: inside) (depth - 1 + 1) lines) :
    Nested imports clean (.block :: inside) depth
      (⟨depth - 1, .text "\x7d " :: parts ++ [.text " \x7b"]⟩ :: lines) := by
  obtain ⟨deep, matched, ⟨closesToo, unwinds⟩, leveled⟩ := rest
  simp only [Int.add_sub_cancel] at closesToo unwinds
  have closes : Line.Closes imports ⟨depth - 1, .text "\x7d " :: parts ++ [.text " \x7b"]⟩ := by
    simp [Line.Closes, spelled, Part.spell]
  constructor
  · simp only [List.length_cons, List.forall_mem_cons] at deep ⊢
    push_cast at deep ⊢
    refine ⟨by omega, fun line member => ?_⟩
    have below := deep line member
    omega
  · exact ⟨fun _ => closesToo, matched⟩
  · exact ⟨.first closes lines, unwinds.prepend [_] (by simp)⟩
  · intro cleanly n
    have closed (k : Nat) : level (k + 1) (Part.ownText (.text "\x7d ")) = some k := rfl
    have opened (k : Nat) : level k (Part.ownText (.text " \x7b")) = some (k + 1) := rfl
    have inner := leveled cleanly n
    simp only [List.count_cons_self, ← Nat.add_assoc] at inner ⊢
    rw [ownText_cons, List.flatMap_append, List.flatMap_cons, level_append, level_append,
      level_append, closed, Option.bind_some, level_parts (free cleanly)]
    simpa [opened] using inner

/-- A block that leaves its scopes can be placed anywhere. -/
theorem shift (nested : Nested imports clean [] 0 lines) (depth : Int) :
    Nested imports clean [] depth
      (lines.map fun line => { line with depth := depth + line.depth }) where
  deep := by
    intro line member
    obtain ⟨unplaced, inside, rfl⟩ := List.mem_map.mp member
    have below := nested.deep unplaced inside
    simp only [List.length_nil] at below ⊢
    omega
  matched := nested.matched.shift depth
  unwinds := trivial
  leveled cleanly n := by
    rw [ownText, List.flatMap_map]
    exact nested.leveled cleanly n

theorem indent (rest : Nested imports clean (.margin :: inside) (depth + 1) lines) :
    Nested imports clean inside depth lines := by
  obtain ⟨deep, matched, unwinds, leveled⟩ := rest
  simp only [Unwinds, Int.add_sub_cancel] at unwinds
  refine ⟨fun line member => ?_, matched, unwinds, ?_⟩
  · have below := deep line member
    simp only [List.length_cons] at below
    push_cast at below
    omega
  · simpa using leveled

theorem unindent (rest : Nested imports clean inside (depth - 1) lines) :
    Nested imports clean (.margin :: inside) depth lines := by
  obtain ⟨deep, matched, unwinds, leveled⟩ := rest
  refine ⟨fun line member => ?_, matched, unwinds, ?_⟩
  · have below := deep line member
    simp only [List.length_cons]
    push_cast
    omega
  · simpa using leveled

end Nested

/-- What a call may write: braces are for what opens and closes blocks. -/
def Call.Tidy (imports : ImportTable) (clean : Prop) : Call → Prop
  | .line parts => ∃ s, parts = [Part.text s] ∧ s.toList.getLast? ≠ some '\x7b' ∧
    (clean → Java.isBraceless s = true)
  | .statement parts => clean → ∀ part ∈ parts, part.isBraceless = true
  | .opening parts => clean → ∀ part ∈ parts, part.isBraceless = true
  | .next parts => clean → ∀ part ∈ parts, part.isBraceless = true
  | .closing ending => ending.toList.getLast? ≠ some '\x7b' ∧
    (clean → Java.isBraceless ending = true)
  | .block code => Nested imports clean [] 0 code.lines
  | .indent => True
  | .unindent => True

theorem not_opens_statement (parts : List Part) :
    ¬ Line.Opens imports ⟨depth, parts ++ [.text ";"]⟩ := by
  simp [Line.Opens, spelled, Part.spell, String.toList_join]

theorem nested_perform {call : Call} {within : List Scope} {w : Writer}
    (tidy : call.Tidy imports clean) (enters : call.scopes inside = some within)
    (rest : Nested imports clean within (w.perform call).depth lines) :
    ∃ new, (w.perform call).lines = w.lines ++ new ∧
      Nested imports clean inside w.depth (new ++ lines) := by
  cases call with
  | line parts =>
    cases enters
    obtain ⟨s, rfl, plain, free⟩ := tidy
    have ends : ¬ Line.Opens imports ⟨w.depth, [.text s]⟩ := by
      simpa [Line.Opens, spelled, Part.spell] using plain
    have single := Nested.single ends (fun cleanly => by simpa [Part.isBraceless] using free cleanly)
    exact ⟨_, rfl, single.prepend rest⟩
  | statement parts =>
    cases enters
    have free (cleanly : clean) : ∀ part ∈ parts ++ [.text ";"], part.isBraceless = true := by
      rw [List.forall_mem_append]
      exact ⟨tidy cleanly, by decide⟩
    exact ⟨_, rfl, (Nested.single (not_opens_statement parts) free).prepend rest⟩
  | opening parts =>
    cases enters
    exact ⟨_, rfl, Nested.opening tidy rest⟩
  | next parts =>
    obtain ⟨outer, rfl, rfl⟩ := scopes_next enters
    exact ⟨_, rfl, Nested.next tidy rest⟩
  | closing ending =>
    obtain rfl := scopes_closing enters
    exact ⟨_, rfl, Nested.closing tidy.1 tidy.2 rest⟩
  | indent =>
    cases enters
    exact ⟨[], by simp, rest.indent⟩
  | unindent =>
    obtain rfl := scopes_unindent enters
    exact ⟨[], by simp, rest.unindent⟩
  | block code =>
    cases enters
    exact ⟨_, rfl, (Nested.shift tidy w.depth).prepend rest⟩

/-- Calls that leave all scopes that they are in or enter write lines that are nested in these. -/
theorem nested_run {calls : List Call} (tidy : ∀ call ∈ calls, call.Tidy imports clean)
    (leaves : scopes calls inside = some []) (w : Writer) :
    ∃ lines, (w.run calls).lines = w.lines ++ lines ∧
      Nested imports clean inside w.depth lines := by
  induction calls generalizing inside w with
  | nil =>
    cases leaves
    exact ⟨[], by simp, .nil⟩
  | cons call rest ih =>
    obtain ⟨within, enters, left⟩ := Option.bind_eq_some_iff.mp leaves
    obtain ⟨later, written, nested⟩ :=
      ih (fun other member => tidy other (List.mem_cons_of_mem call member)) left (w.perform call)
    obtain ⟨new, performed, whole⟩ := nested_perform (tidy call List.mem_cons_self) enters nested
    exact ⟨new ++ later, by rw [Writer.run_cons, written, performed, List.append_assoc], whole⟩

theorem spelled_ne_empty (shown : Text.isBlankText (spelled imports parts) ≠ true) :
    (spelled imports parts).toList ≠ [] := by
  intro empty
  exact shown (by rw [Text.isBlankText, empty]; rfl)

theorem opens_of_render (ends : " \x7b".toList <:+ (line.render imports).toList) :
    line.Opens imports := by
  obtain ⟨before, same⟩ := ends
  have last : (line.render imports).toList.getLast? = some '\x7b' := by
    rw [← same]
    simp
  rw [render_eq] at last
  split at last
  case isTrue => cases last
  case isFalse shown =>
    rwa [String.toList_append, List.getLast?_append_of_ne_nil _ (spelled_ne_empty shown)] at last

theorem render_of_closes (closes : line.Closes imports) :
    (indentation line.depth ++ "\x7d").toList <+: (line.render imports).toList := by
  obtain ⟨rest, same⟩ := List.head?_eq_some_iff.mp closes
  have shown : Text.isBlankText (spelled imports line.parts) ≠ true := by
    intro blank
    have brace := List.all_eq_true.mp blank '\x7d' (by rw [same]; exact List.mem_cons_self)
    revert brace
    decide
  rw [render_eq, if_neg shown]
  exact ⟨rest, by simp [same]⟩

end Nesting

section Structure

variable {imports : ImportTable} {clean : Prop} {parts : List Part} {a b calls : List Call}

/-- Calls that leave just the scopes that they enter, and write tidily. -/
structure Structured (imports : ImportTable) (clean : Prop) (calls : List Call) : Prop where
  leaves : ∀ inside, scopes calls inside = some inside
  tidy : ∀ call ∈ calls, call.Tidy imports clean

namespace Structured

theorem nil : Structured imports clean [] where
  leaves _ := rfl
  tidy := nofun

theorem append (first : Structured imports clean a) (second : Structured imports clean b) :
    Structured imports clean (a ++ b) where
  leaves inside := by rw [scopes_append, first.leaves, Option.bind_some, second.leaves]
  tidy := List.forall_mem_append.mpr ⟨first.tidy, second.tidy⟩

theorem flatMap {α : Type} {as : List α} {f : α → List Call}
    (each : ∀ a ∈ as, Structured imports clean (f a)) :
    Structured imports clean (as.flatMap f) := by
  induction as with
  | nil => exact nil
  | cons a rest ih =>
    exact (each a List.mem_cons_self).append
      (ih fun other member => each other (List.mem_cons_of_mem a member))

theorem block (free : clean → ∀ part ∈ parts, part.isBraceless = true)
    (inner : Structured imports clean calls) :
    Structured imports clean (.opening parts :: calls ++ [.closing ""]) where
  leaves inside := by
    have entered : scopes (.opening parts :: calls) inside = scopes calls (.block :: inside) := rfl
    rw [scopes_append, entered, inner.leaves]
    rfl
  tidy := by
    simp only [List.cons_append, List.forall_mem_cons, List.forall_mem_append]
    exact ⟨free, inner.tidy, ⟨by decide, fun _ => rfl⟩, nofun⟩

theorem margin (inner : Structured imports clean calls) :
    Structured imports clean (.indent :: calls ++ [.unindent]) where
  leaves inside := by
    have entered : scopes (.indent :: calls) inside = scopes calls (.margin :: inside) := rfl
    rw [scopes_append, entered, inner.leaves]
    rfl
  tidy := by
    simp only [List.cons_append, List.forall_mem_cons, List.forall_mem_append]
    exact ⟨trivial, inner.tidy, trivial, nofun⟩

theorem statement (free : clean → ∀ part ∈ parts, part.isBraceless = true) :
    Structured imports clean [.statement parts] where
  leaves _ := rfl
  tidy := List.forall_mem_singleton.mpr free

theorem line {s : String} (plain : s.toList.getLast? ≠ some '\x7b')
    (free : clean → Java.isBraceless s = true) : Structured imports clean [.line [.text s]] where
  leaves _ := rfl
  tidy := List.forall_mem_singleton.mpr ⟨s, rfl, plain, free⟩

theorem emptyLine : Structured imports clean [.line [""]] :=
  .line (by decide) fun _ => rfl

theorem code {code : CodeBlock} (nested : Nested imports clean [] 0 code.lines) :
    Structured imports clean [.block code] where
  leaves _ := rfl
  tidy := List.forall_mem_singleton.mpr nested

theorem nested {code : CodeBlock} (structured : Structured imports clean calls)
    (written : CodeBlock.ofCalls calls = .ok code) :
    Nested imports clean [] 0 code.lines := by
  obtain ⟨lines, same, nested⟩ := nested_run structured.tidy (structured.leaves []) .empty
  rw [(CodeBlock.ofCalls_eq_ok_iff.mp written).2, same]
  exact nested

theorem lines_of_block {code : CodeBlock} (inner : Structured imports clean calls)
    (written : CodeBlock.ofCalls (.opening parts :: calls ++ [.closing ""]) = .ok code) :
    ∃ lines, code.lines =
      ⟨0, parts ++ [.text " \x7b"]⟩ :: lines ++ [⟨0, [.text ("\x7d" ++ "")]⟩] := by
  obtain ⟨balanced, same⟩ := CodeBlock.ofCalls_eq_ok_iff.mp written
  obtain ⟨lines, run, -⟩ := nested_run inner.tidy (inner.leaves [])
    (Writer.empty.perform (.opening parts))
  have depth := Writer.run_depth (Writer.empty.perform (.opening parts)) calls
  rw [List.cons_append, rise, rise_append] at balanced
  simp only [Call.rise, rise] at balanced
  have ended : ((Writer.empty.perform (.opening parts)).run calls).depth - 1 = 0 := by
    rw [depth, Writer.perform_opening]
    simp only [Writer.empty]
    omega
  refine ⟨lines, ?_⟩
  rw [same, List.cons_append, Writer.run_cons, Writer.run_append, Writer.run_cons, Writer.run_nil,
    Writer.perform_closing, run, ended]
  rfl

end Structured

end Structure

end WidgetDsl.Java
