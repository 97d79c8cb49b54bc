import WidgetDsl.Proofs.EntryPoints

/-!
Where control goes in the switch of generated code. A branch of a case is an `if` block that returns
from inside, or the last one returns without a test; so no case runs into the next one, and control
comes to every statement.
-/

namespace WidgetDsl

namespace Java

/-- Statements, as far as it matters where control goes. -/
inductive Statement where
  | evaluate (expression : List Part)
  | evaluateWith (call : List Part) (members : CodeBlock)
  | returnTrue
  | leave
  | ifThen (test : List Part) (body : List Statement)
  | ifElse (test : List Part) (body other : List Statement)

namespace Statement

mutual

def lines (depth : Int) : Statement → List Line
  | evaluate expression => [⟨depth, expression ++ [.text ";"]⟩]
  | evaluateWith call members =>
    ⟨depth, call ++ [.text " \x7b"]⟩ :: (members.shift (depth + 1)).lines ++
      [⟨depth, [.text "\x7d);"]⟩]
  | returnTrue => [⟨depth, [.text "return true", .text ";"]⟩]
  | leave => [⟨depth, [.text "break", .text ";"]⟩]
  | ifThen test body =>
    ⟨depth, test ++ [.text " \x7b"]⟩ :: linesOf (depth + 1) body ++ [⟨depth, [.text "\x7d"]⟩]
  | ifElse test body other =>
    ⟨depth, test ++ [.text " \x7b"]⟩ :: linesOf (depth + 1) body ++
      ⟨depth, [.text "\x7d ", .text "else", .text " \x7b"]⟩ :: linesOf (depth + 1) other ++
      [⟨depth, [.text "\x7d"]⟩]

def linesOf (depth : Int) : List Statement → List Line
  | [] => []
  | statement :: rest => lines depth statement ++ linesOf depth rest

end

mutual

/-- Whether control can come to the end of a statement that it comes to. -/
def completes : Statement → Bool
  | evaluate _ | evaluateWith _ _ => true
  | returnTrue | leave => false
  | ifThen _ _ => true
  | ifElse _ body other => completesAll body || completesAll other

def completesAll : List Statement → Bool
  | [] => true
  | statement :: rest => completes statement && completesAll rest

end

def isTest (parts : List Part) : Bool :=
  match parts.head?, parts.getLast? with
  | some (.text first), some (.text last) =>
    "if (".toList.isPrefixOf first.toList && ")".toList.isSuffixOf last.toList
  | _, _ => false

/-- Whether parts begin as a call does, with the name of a target or a parenthesis, and so are no
jump. -/
def isCall : List Part → Bool
  | .text s :: _ => s.toList.head? = some 'v' || s.toList.head? = some '('
  | _ => false

mutual

/-- Whether a statement is what it is taken for, and control comes to all statements within. -/
def isLive : Statement → Bool
  | evaluate expression => isCall expression
  | evaluateWith call _ => isCall call
  | returnTrue | leave => true
  | ifThen test body => isTest test && areLive body
  | ifElse test body other => isTest test && areLive body && areLive other

def areLive : List Statement → Bool
  | [] => true
  | statement :: rest => isLive statement && (completes statement || rest.isEmpty) && areLive rest

end

theorem linesOf_append (depth : Int) (a b : List Statement) :
    linesOf depth (a ++ b) = linesOf depth a ++ linesOf depth b := by
  induction a with
  | nil => rfl
  | cons statement rest ih => simp [linesOf, ih]

mutual

theorem shift_lines (levels depth : Int) : ∀ statement : Statement,
    (CodeBlock.shift levels ⟨lines depth statement⟩).lines = lines (levels + depth) statement
  | evaluate _ => rfl
  | evaluateWith _ members => by
    simp [CodeBlock.shift, lines, Int.add_assoc]
  | returnTrue => rfl
  | leave => rfl
  | ifThen _ body => by
    have inside := shift_linesOf levels (depth + 1) body
    simp only [CodeBlock.shift] at inside
    simp [CodeBlock.shift, lines, inside, Int.add_assoc]
  | ifElse _ body other => by
    have inside := shift_linesOf levels (depth + 1) body
    have otherwise := shift_linesOf levels (depth + 1) other
    simp only [CodeBlock.shift] at inside otherwise
    simp [CodeBlock.shift, lines, inside, otherwise, Int.add_assoc]

theorem shift_linesOf (levels depth : Int) : ∀ statements : List Statement,
    (CodeBlock.shift levels ⟨linesOf depth statements⟩).lines = linesOf (levels + depth) statements
  | [] => rfl
  | statement :: rest => by
    have first := shift_lines levels depth statement
    have later := shift_linesOf levels depth rest
    simp only [CodeBlock.shift] at first later
    simp [CodeBlock.shift, linesOf, first, later]

end

theorem completesAll_append (a b : List Statement) :
    completesAll (a ++ b) = (completesAll a && completesAll b) := by
  induction a with
  | nil => rfl
  | cons statement rest ih => simp [completesAll, ih, Bool.and_assoc]

theorem areLive_append {a : List Statement} (b : List Statement) (passes : completesAll a = true) :
    areLive (a ++ b) = (areLive a && areLive b) := by
  induction a with
  | nil => rfl
  | cons statement rest ih =>
    simp only [completesAll, Bool.and_eq_true] at passes
    simp [areLive, ih passes.2, passes.1, Bool.and_assoc]

theorem isTest_of_ends {first last : String} {middle : List Part}
    (opens : "if (".toList.isPrefixOf first.toList = true)
    (closes : ")".toList.isSuffixOf last.toList = true) :
    isTest (.text first :: middle ++ [.text last]) = true := by
  have ends : (Part.text first :: middle ++ [Part.text last]).getLast? = some (Part.text last) :=
    List.getLast?_concat
  rw [isTest, ends]
  exact Bool.and_eq_true_iff.mpr ⟨opens, closes⟩

end Statement

open Statement

namespace Writer

variable (w : Writer)

theorem run_append (a b : List Call) : w.run (a ++ b) = (w.run a).run b :=
  List.foldl_append

@[simp] theorem run_nil : w.run [] = w := rfl

@[simp] theorem run_cons (call : Call) (rest : List Call) :
    w.run (call :: rest) = (w.perform call).run rest := rfl

@[simp] theorem perform_line (parts : List Part) :
    w.perform (.line parts) = ⟨w.lines ++ [⟨w.depth, parts⟩], w.depth⟩ := rfl

@[simp] theorem perform_statement (parts : List Part) : w.perform (.statement parts) =
    ⟨w.lines ++ [⟨w.depth, parts ++ [.text ";"]⟩], w.depth⟩ := rfl

@[simp] theorem perform_opening (parts : List Part) : w.perform (.opening parts) =
    ⟨w.lines ++ [⟨w.depth, parts ++ [.text " \x7b"]⟩], w.depth + 1⟩ := rfl

@[simp] theorem perform_next (parts : List Part) : w.perform (.next parts) =
    ⟨w.lines ++ [⟨w.depth - 1, .text "\x7d " :: parts ++ [.text " \x7b"]⟩], w.depth - 1 + 1⟩ := rfl

@[simp] theorem perform_closing (ending : String) : w.perform (.closing ending) =
    ⟨w.lines ++ [⟨w.depth - 1, [.text ("\x7d" ++ ending)]⟩], w.depth - 1⟩ := rfl

@[simp] theorem perform_indent : w.perform .indent = ⟨w.lines, w.depth + 1⟩ := rfl

@[simp] theorem perform_unindent : w.perform .unindent = ⟨w.lines, w.depth - 1⟩ := rfl

@[simp] theorem perform_block (code : CodeBlock) : w.perform (.block code) =
    ⟨w.lines ++ (code.shift w.depth).lines, w.depth⟩ := rfl

end Writer

/-- Whether calls write statements, at whatever depth they find. -/
def Writes (calls : List Call) (statements : List Statement) : Prop :=
  ∀ w : Writer, w.run calls = { w with lines := w.lines ++ linesOf w.depth statements }

namespace Writes

variable {calls more : List Call} {statements others : List Statement}

theorem append (first : Writes calls statements) (later : Writes more others) :
    Writes (calls ++ more) (statements ++ others) := by
  intro w
  rw [Writer.run_append, first, later, linesOf_append, List.append_assoc]

theorem evaluate (expression : List Part) :
    Writes [.statement expression] [.evaluate expression] := by
  intro w
  rfl

theorem returnTrue : Writes [.statement ["return true"]] [.returnTrue] := by
  intro w
  rfl

theorem leave : Writes [.statement ["break"]] [.leave] := by
  intro w
  rfl

theorem evaluateWith (call : List Part) (members : CodeBlock) :
    Writes [.opening call, .block members, .closing ");"] [.evaluateWith call members] := by
  intro w
  simp [linesOf, Statement.lines]

theorem ifThen (test : List Part) (body : Writes calls statements) :
    Writes (.opening test :: calls ++ [.closing ""]) [.ifThen test statements] := by
  intro w
  rw [List.cons_append, Writer.run_cons, Writer.run_append, body]
  simp [linesOf, Statement.lines]

theorem ifElse (test : List Part) (body : Writes calls statements) (other : Writes more others) :
    Writes (.opening test :: calls ++ .next ["else"] :: more ++ [.closing ""])
      [.ifElse test statements others] := by
  intro w
  rw [List.cons_append, List.cons_append, Writer.run_cons, List.append_assoc, Writer.run_append, body,
    List.cons_append, Writer.run_cons, Writer.run_append, other]
  simp [linesOf, Statement.lines]

theorem block {code : CodeBlock} (written : code.lines = linesOf 0 statements) :
    Writes [.block code] statements := by
  intro w
  have shifted := shift_linesOf w.depth 0 statements
  rw [← written, Int.add_zero] at shifted
  simp [shifted]

theorem lines_of_ofCalls {code : CodeBlock} (writes : Writes calls statements)
    (written : CodeBlock.ofCalls calls = .ok code) : code.lines = linesOf 0 statements := by
  rw [(CodeBlock.ofCalls_eq_ok_iff.mp written).2, writes]
  rfl

end Writes

end Java

namespace Dispatch

open Java (CodeBlock Line Part Statement Writes)
open Java.Statement

variable {root : ResolvedType} {names : RuntimeNames} {overrides : OverrideTable}
  {candidate : Candidate} {code : CodeBlock}

theorem setterBranch_lines (sets : setterBranch candidate root = .ok code) :
    ∃ test call, isTest test = true ∧ isCall call = true ∧
      code.lines = linesOf 0 [.ifThen test [.evaluate call, .returnTrue]] := by
  have writes (test call : List Part) :
      Writes [.opening test, .statement call, .statement ["return true"], .closing ""]
        [.ifThen test [.evaluate call, .returnTrue]] :=
    ((Writes.evaluate call).append .returnTrue).ifThen test
  unfold setterBranch at sets
  split at sets
  · refine ⟨_, _, isTest_of_ends (by decide) (by decide), ?_, (writes _ _).lines_of_ofCalls sets⟩
    simp [isCall]
  · refine ⟨_, _, isTest_of_ends (by decide) (by decide), ?_, (writes _ _).lines_of_ofCalls sets⟩
    rfl

def installation (install clear : List Part) (members : CodeBlock) : Statement :=
  .ifElse ["if (arg != null)"] [.evaluateWith install members] [.evaluate clear]

theorem writes_installation (install clear : List Part) (members : CodeBlock) :
    Writes
      [.opening ["if (arg != null)"], .opening install, .block members, .closing ");",
        .next ["else"], .statement clear, .closing "", .statement ["return true"]]
      [installation install clear members, .returnTrue] :=
  ((Writes.evaluateWith install members).ifElse _ (.evaluate clear)).append .returnTrue

theorem isCall_receiver (candidate : Candidate) (onRoot : Bool) (rest : List Part) :
    isCall (receiver candidate onRoot ++ rest) = true := by
  cases onRoot <;> simp [receiver, isCall]

theorem listenerGuard_guarded (candidate : Candidate) (listener : Java.TypeName)
    {onRoot exhaustive : Bool} (guarded : (onRoot && exhaustive) = false) :
    ∃ test, isTest test = true ∧
      listenerGuard candidate listener onRoot exhaustive = [.opening test] := by
  cases onRoot with
  | false =>
    let test : List Part := ["if (v instanceof ", Java.TypeName.ofBinary candidate.declaring.name,
      " && (arg == null || arg instanceof ", listener, "))"]
    have tests : isTest test = true := rfl
    exact ⟨test, tests, by simp [listenerGuard, test]⟩
  | true =>
    have passing : exhaustive = false := guarded
    let test : List Part := ["if (arg == null || arg instanceof ", listener, ")"]
    have tests : isTest test = true := rfl
    exact ⟨test, tests, by simp [listenerGuard, passing, test]⟩

theorem listenerBranch_lines {exhaustive : Bool}
    (onRoot : exhaustive = true → candidate.declaring.name = root.name)
    (listens : listenerBranch candidate root names exhaustive = .ok code) :
    ∃ installs : Statement, installs.isLive = true ∧ installs.completes = true ∧
      (exhaustive = true → code.lines = linesOf 0 [installs, .returnTrue]) ∧
      (exhaustive = false → ∃ test, isTest test = true ∧
        code.lines = linesOf 0 [.ifThen test [installs, .returnTrue]]) := by
  obtain ⟨members, -, written⟩ := bind_eq_ok.mp listens
  let listener := Java.TypeName.ofBinary candidate.valueType.name
  let target := receiver candidate (candidate.declaring.name = root.name)
  let setter := "." ++ candidate.method.name
  let install : List Part := target ++ [Part.text (setter ++ "(new "), listener, "()"]
  let clear : List Part := target ++ [Part.text (setter ++ "(("), listener, ") null)"]
  have writes := writes_installation install clear members
  refine ⟨installation install clear members, ?_, rfl, fun always => ?_, fun passing => ?_⟩
  · have test : isTest ["if (arg != null)"] = true := by decide
    simp [installation, install, clear, target, isLive, areLive, completes, isCall_receiver, test]
  · have unguarded : listenerGuard candidate (.ofBinary candidate.valueType.name)
        (candidate.declaring.name = root.name) exhaustive = [] := by
      simp [listenerGuard, onRoot always, always]
    simp only [unguarded, List.nil_append, List.isEmpty_nil, if_true, List.append_nil] at written
    exact writes.lines_of_ofCalls written
  · obtain ⟨test, tests, guarded⟩ := listenerGuard_guarded candidate
      (.ofBinary candidate.valueType.name)
      (show (decide (candidate.declaring.name = root.name) && exhaustive) = false by simp [passing])
    simp only [guarded, List.isEmpty_cons, Bool.false_eq_true, if_false] at written
    exact ⟨test, tests, (writes.ifThen test).lines_of_ofCalls written⟩

structure Branch.Guarded (b : Branch) (test : List Part) (before : List Statement) : Prop where
  passing : b.exhaustive = false
  written : b.code.lines = linesOf 0 [.ifThen test (before ++ [.returnTrue])]
  tests : isTest test = true
  passes : completesAll before = true
  live : areLive before = true

structure Branch.Unguarded (b : Branch) (before : List Statement) : Prop where
  exhausts : b.exhaustive = true
  written : b.code.lines = linesOf 0 (before ++ [.returnTrue])
  passes : completesAll before = true
  live : areLive before = true

theorem exhaustive_of_branch {last : Bool} {b : Branch}
    (unreplaced : overrides.replacement candidate = .ok none)
    (result : branch root names overrides candidate last = .ok b) : b.exhaustive = true ↔
      last = true ∧ candidate.isListener = true ∧ candidate.declaring.name = root.name := by
  rcases branch_cases result with ⟨code, found, -⟩ | ⟨listener, code, -, rfl⟩ | ⟨setter, code, -, rfl⟩
  · rw [unreplaced] at found
    cases found
  · simp [listener]
  · simp [setter]

theorem shape_of_branch {last : Bool} {b : Branch}
    (unreplaced : overrides.replacement candidate = .ok none)
    (result : branch root names overrides candidate last = .ok b) :
    (∃ before, b.Unguarded before) ∨ ∃ test before, b.Guarded test before := by
  rcases branch_cases result with ⟨code, found, -⟩ | ⟨-, code, listens, rfl⟩ | ⟨-, code, sets, rfl⟩
  · rw [unreplaced] at found
    cases found
  · obtain ⟨installs, live, passes, unguarded, guarded⟩ := listenerBranch_lines (by simp) listens
    have passesAll : completesAll [installs] = true := by simp [completesAll, passes]
    have liveAll : areLive [installs] = true := by simp [areLive, live]
    cases exhausts : last && decide (candidate.declaring.name = root.name) with
    | true => exact .inl ⟨[installs], rfl, unguarded exhausts, passesAll, liveAll⟩
    | false =>
      obtain ⟨test, tests, written⟩ := guarded exhausts
      exact .inr ⟨test, [installs], rfl, written, tests, passesAll, liveAll⟩
  · obtain ⟨test, call, tests, calls, written⟩ := setterBranch_lines sets
    have liveAll : areLive [.evaluate call] = true := by simp [areLive, isLive, calls]
    exact .inr ⟨test, [.evaluate call], rfl, written, tests, rfl, liveAll⟩

/-- Statements that branches are written as, followed by a break unless the last branch always
returns. -/
inductive CaseBody : List Branch → List Statement → Prop where
  | left : CaseBody [] [.leave]
  | guarded {b : Branch} {rest : List Branch} {body : List Statement} (test : List Part)
      (before : List Statement) (first : b.Guarded test before) (later : CaseBody rest body) :
      CaseBody (b :: rest) (.ifThen test (before ++ [.returnTrue]) :: body)
  | unguarded {b : Branch} (before : List Statement) (last : b.Unguarded before) :
      CaseBody [b] (before ++ [.returnTrue])

namespace CaseBody

variable {made : List Branch} {body : List Statement}

theorem stops (caseBody : CaseBody made body) : completesAll body = false := by
  induction caseBody with
  | left => rfl
  | guarded test before first later ih => exact ih
  | unguarded before last => simp [completesAll_append, completesAll, completes]

theorem live (caseBody : CaseBody made body) : areLive body = true := by
  induction caseBody with
  | left => rfl
  | guarded test before first later ih =>
    simp [areLive, isLive, completes, areLive_append _ first.passes, first.tests, first.live, ih]
  | unguarded before last => simp [areLive, isLive, areLive_append _ last.passes, last.live]

theorem getLast? (name : String) (caseBody : CaseBody made body) :
    body.getLast? = some (if Case.exhaustive ⟨name, made⟩ then .returnTrue else .leave) := by
  induction caseBody with
  | left => rfl
  | @guarded b rest body test before first later ih =>
    rw [List.getLast?_cons, ih]
    cases rest with
    | nil => simp [Case.exhaustive, first.passing]
    | cons second more => rfl
  | unguarded before last => simp [Case.exhaustive, last.exhausts]

theorem writes (name : String) (caseBody : CaseBody made body) :
    Writes (made.map (fun branch => .block branch.code) ++
      if Case.exhaustive ⟨name, made⟩ then [] else [.statement ["break"]]) body := by
  induction caseBody with
  | left => exact .leave
  | @guarded b rest body test before first later ih =>
    have single := Writes.block first.written
    cases rest with
    | nil => simpa [Case.exhaustive, first.passing] using single.append ih
    | cons second more => exact single.append ih
  | unguarded before last => simpa [Case.exhaustive, last.exhausts] using Writes.block last.written

end CaseBody

theorem caseBody_of_branches {candidates : List Candidate} {made : List Branch}
    (unreplaced : ∀ c ∈ candidates, overrides.replacement c = .ok none)
    (result : branches root names overrides candidates = .ok made) :
    ∃ body, CaseBody made body := by
  induction candidates generalizing made with
  | nil =>
    cases result
    exact ⟨_, .left⟩
  | cons candidate rest ih =>
    obtain ⟨first, single, result⟩ := bind_eq_ok.mp result
    obtain ⟨others, later, result⟩ := bind_eq_ok.mp result
    cases result
    have unreplacedFirst := unreplaced candidate (by simp)
    obtain ⟨body, caseBody⟩ := ih (fun c member => unreplaced c (List.mem_cons_of_mem _ member)) later
    rcases shape_of_branch unreplacedFirst single with ⟨before, last⟩ | ⟨test, before, guarded⟩
    · -- only the last branch is exhaustive, so that nothing follows this one
      have none : rest = [] := by
        simpa using ((exhaustive_of_branch unreplacedFirst single).mp last.exhausts).1
      subst none
      cases later
      exact ⟨_, .unguarded before last⟩
    · exact ⟨_, .guarded test before guarded caseBody⟩

theorem exhaustive_iff {candidates : List Candidate} {before after : List Branch} {b : Branch}
    (unreplaced : ∀ c ∈ candidates, overrides.replacement c = .ok none)
    (result : branches root names overrides candidates = .ok (before ++ b :: after)) :
    b.exhaustive = true ↔
      after = [] ∧ b.candidate.isListener = true ∧ b.candidate.declaring.name = root.name := by
  induction candidates generalizing before with
  | nil => cases before <;> cases result
  | cons candidate rest ih =>
    obtain ⟨first, single, result⟩ := bind_eq_ok.mp result
    obtain ⟨others, later, result⟩ := bind_eq_ok.mp result
    have same := Except.ok.inj result
    cases before with
    | nil =>
      obtain ⟨rfl, rfl⟩ := List.cons.inj same
      have covers := covers_of_branches later
      have ends : rest.isEmpty = true ↔ others = [] := by
        rw [List.isEmpty_iff, ← covers.candidates, List.map_eq_nil_iff]
      rw [branch_candidate single, ← ends]
      exact exhaustive_of_branch (unreplaced candidate (by simp)) single
    | cons passed before =>
      obtain ⟨rfl, rfl⟩ := List.cons.inj same
      exact ih (fun c member => unreplaced c (List.mem_cons_of_mem _ member)) later

/-- A case has a branch to each candidate of a group, those of subtypes in front and the root's
listeners at the end, and always returns only from a root's listener at its very end. -/
structure Case.Arranges (root : ResolvedType) (group : Group) (case : Case) : Prop where
  name : case.name = group.name
  parts : ∀ part, (case.branches.map (·.candidate)).filter (partOf root.name · = part) =
    group.candidates.filter (partOf root.name · = part)
  ordered : case.branches.Pairwise fun i j =>
    (partOf root.name i.candidate).rank ≤ (partOf root.name j.candidate).rank
  exhaustive : ∀ before b after, case.branches = before ++ b :: after → (b.exhaustive = true ↔
    after = [] ∧ b.candidate.isListener = true ∧ b.candidate.declaring.name = root.name)

theorem filter_part (rootName : String) (candidates : List Candidate) (part other : CasePart) :
    (candidates.filter (partOf rootName · = other)).filter (partOf rootName · = part) =
      if other = part then candidates.filter (partOf rootName · = part) else [] := by
  split <;> rename_i same
  · simp [same, List.filter_filter]
  · rw [List.filter_eq_nil_iff]
    intro candidate inside here
    simp only [List.mem_filter, decide_eq_true_eq] at inside here
    exact same (inside.2.symm.trans here)

theorem branchOrder_filter (root : ResolvedType) (candidates : List Candidate) (part : CasePart) :
    (branchOrder root candidates).filter (partOf root.name · = part) =
      candidates.filter (partOf root.name · = part) := by
  rw [branchOrder_eq, List.filter_append, List.filter_append, filter_part, filter_part,
    filter_part]
  cases part <;> simp

theorem arranges_of_caseOf {group : Group} {case : Case}
    (unreplaced : ∀ c ∈ group.candidates, overrides.replacement c = .ok none)
    (result : caseOf root names overrides group = .ok case) : case.Arranges root group := by
  obtain ⟨named, made⟩ := branches_of_caseOf result
  have covers := covers_of_branches made
  refine ⟨named, fun part => ?_, ?_, fun before b after split => ?_⟩
  · rw [covers.candidates, branchOrder_filter]
  · have any : group.candidates.Pairwise fun _ _ => True := List.pairwise_of_forall fun _ _ => trivial
    have ordered : (branchOrder root group.candidates).Pairwise (PartsThen root.name _) :=
      branchOrder_pairwise any
    rw [← covers.candidates, List.pairwise_map] at ordered
    refine ordered.imp ?_
    rintro i j (earlier | ⟨same, -⟩)
    · exact Nat.le_of_lt earlier
    · exact Nat.le_of_eq (congrArg _ same)
  · rw [split] at made
    exact exhaustive_iff (fun c member => unreplaced c (mem_branchOrder.mp member)) made

/-- A body stands below a case's label from which control neither runs on into the next case nor
misses a statement. -/
structure Case.SealedBy (case : Case) (body : List Statement) : Prop where
  branches : CaseBody case.branches body
  ends : body.getLast? = some (if case.exhaustive then .returnTrue else .leave)
  stops : completesAll body = false
  live : areLive body = true

theorem CaseBody.sealedBy {case : Case} {body : List Statement}
    (caseBody : CaseBody case.branches body) : case.SealedBy body :=
  ⟨caseBody, caseBody.getLast? case.name, caseBody.stops, caseBody.live⟩

end Dispatch

namespace CompilationUnit

open Java (CodeBlock Line Part Statement Writer)
open Java.Statement
open Dispatch (Case)

def caseLines (depth : Int) (name : String) (body : List Statement) : List Line :=
  ⟨depth, ["case \"" ++ name ++ "\":"]⟩ :: linesOf (depth + 1) body

def casesLines (depth : Int) (cases : List (Case × List Statement)) : List Line :=
  cases.flatMap fun (case, body) => caseLines depth case.name body

def switchLines (names : RuntimeNames) (cases : List (Case × List Statement)) : List Line :=
  [⟨0, ["public boolean set(", names.root, " v, ", stringType, " name, final ", objectType,
      " arg, final ", objectType, " old)", " \x7b"]⟩,
    ⟨1, ["switch (name)", " \x7b"]⟩] ++
    casesLines 2 cases ++
    [⟨1, ["\x7d"]⟩, ⟨1, ["return false", ";"]⟩, ⟨0, ["\x7d"]⟩]

theorem run_caseCalls {case : Case} {body : List Statement} (closed : case.SealedBy body)
    (w : Writer) : w.run (caseCalls case) =
      { w with lines := w.lines ++ caseLines w.depth case.name body } := by
  have writes := closed.branches.writes case.name
  rw [caseCalls, List.append_assoc [_, _]]
  rw [Writer.run_append, Writer.run_append]
  rw [writes]
  simp [caseLines]

theorem run_cases {cases : List Case} {bodies : List (List Statement)}
    (closed : List.Forall₂ Case.SealedBy cases bodies) (w : Writer) :
    w.run (cases.flatMap caseCalls) =
      { w with lines := w.lines ++ casesLines w.depth (cases.zip bodies) } := by
  induction closed generalizing w with
  | nil => simp [casesLines]
  | cons first later ih =>
    rw [List.flatMap_cons, Writer.run_append, run_caseCalls first, ih]
    simp [casesLines]

theorem setMethod_lines {cases : List Case} {bodies : List (List Statement)}
    (closed : List.Forall₂ Case.SealedBy cases bodies) (names : RuntimeNames) :
    CodeBlock.ofCalls (setMethod names cases) = .ok ⟨switchLines names (cases.zip bodies)⟩ := by
  refine CodeBlock.ofCalls_eq_ok_iff.mpr ⟨rise_setMethod names cases, ?_⟩
  rw [setMethod, Writer.run_append, Writer.run_append, run_cases closed]
  simp [Writer.empty, switchLines]

end CompilationUnit

namespace Dispatch

open Java (CodeBlock)
open CompilationUnit (setMethod switchLines)

variable {root : ResolvedType} {names : RuntimeNames} {overrides : OverrideTable} {builder : Builder}
  {groups : List Group} {table : Table}

/-- The cases of a table are closed off from each other, in the table and in the switch that is written
for it. -/
structure Table.SealedBy (table : Table) (bodies : List (List Java.Statement)) : Prop where
  each : List.Forall₂ Case.SealedBy table.cases bodies
  written : ∀ names, CodeBlock.ofCalls (setMethod names table.cases) =
    .ok ⟨switchLines names (table.cases.zip bodies)⟩

theorem exists_bodies {cases : List Case}
    (each : List.Forall₂ (fun group case => caseOf root names overrides group = .ok case) groups cases)
    (unreplaced : ∀ group ∈ groups, ∀ c ∈ group.candidates, overrides.replacement c = .ok none) :
    List.Forall₂ (Case.Arranges root) groups cases ∧
      ∃ bodies, List.Forall₂ Case.SealedBy cases bodies := by
  induction each with
  | nil => exact ⟨.nil, [], .nil⟩
  | @cons group case groups cases made _ ih =>
    obtain ⟨arranges, bodies, closed⟩ := ih fun other member =>
      unreplaced other (List.mem_cons_of_mem group member)
    have unreplacedHere := unreplaced group (by simp)
    obtain ⟨body, caseBody⟩ := caseBody_of_branches
      (fun c member => unreplacedHere c (mem_branchOrder.mp member)) (branches_of_caseOf made).2
    exact ⟨.cons (arranges_of_caseOf unreplacedHere made) arranges, body :: bodies,
      .cons caseBody.sealedBy closed⟩

namespace Builder

theorem cases_of_build (nonempty : ∀ group ∈ groups, group.candidates ≠ [])
    (built : builder.build groups = .ok table) :
    List.Forall₂ (fun group case =>
      caseOf builder.root builder.names builder.overrides group = .ok case)
      (Group.inNameOrder groups) table.cases := by
  obtain ⟨entries, enters, rfl⟩ := entries_of_ofSorted built
  have all : (Group.inNameOrder groups).filter (!·.candidates.isEmpty) = Group.inNameOrder groups := by
    rw [List.filter_eq_self]
    intro group member
    simpa using nonempty group ((Group.inNameOrder_perm groups).mem_iff.mp member)
  rw [Table.ofEntries, List.forall₂_map_right_iff, ← all]
  exact enters.imp fun _ _ enter => enter.case

/-- Where no override replaces anything, the switch has a case to each group, and control neither runs
from one case into the next nor misses a statement. Only a cycle above a candidate's class keeps the
switch from being made. -/
theorem switch_sealed (builder : Builder) (groups : List Group)
    (nonempty : ∀ group ∈ groups, group.candidates ≠ [])
    (unreplaced : ∀ group ∈ groups, ∀ c ∈ group.candidates,
      builder.overrides.replacement c = .ok none) :
    (∃ table bodies, builder.build groups = .ok table ∧
      List.Forall₂ (Case.Arranges builder.root) (Group.inNameOrder groups) table.cases ∧
      table.SealedBy bodies) ∨
    ∃ group ∈ groups, ∃ c ∈ group.candidates, ∃ name,
      builder.library.resolve c.declaring.name = .error (.cyclic name) ∧
      builder.build groups = .error (.resolve (.cyclic name)) := by
  cases built : builder.build groups with
  | ok table =>
    left
    have inOrder : ∀ group ∈ Group.inNameOrder groups, ∀ c ∈ group.candidates,
        builder.overrides.replacement c = .ok none :=
      fun group member => unreplaced group ((Group.inNameOrder_perm groups).mem_iff.mp member)
    obtain ⟨arranges, bodies, closed⟩ := exists_bodies (cases_of_build nonempty built) inOrder
    exact ⟨table, bodies, rfl, arranges, closed, CompilationUnit.setMethod_lines closed⟩
  | error stop =>
    right
    obtain ⟨group, member, blocks⟩ := build_stop built
    cases blocks with
    | override c inside cause replaced =>
      rw [unreplaced group member c inside] at replaced
      cases replaced
    | cycle c inside name resolved => exact ⟨group, member, c, inside, name, resolved, rfl⟩

end Builder

end Dispatch

namespace Gallery

open Dispatch

def attributeGroups : List Group :=
  ["hint", "label", "onTouch"].map fun name => ⟨name, candidates.filter (·.name = name), []⟩

theorem attributeGroups_candidates {group : Group} (member : group ∈ attributeGroups) :
    ∀ c ∈ group.candidates, c ∈ candidates := by
  intro c inside
  obtain ⟨name, -, rfl⟩ := List.mem_map.mp member
  exact (List.mem_filter.mp inside).1

theorem attributes_sealed :
    (∀ group ∈ attributeGroups, group.candidates ≠ [] ∧
      ∀ c ∈ group.candidates, builder.overrides.replacement c = .ok none) ∧
    ∃ table bodies, builder.build attributeGroups = .ok table ∧
      List.Forall₂ (Case.Arranges widget) (Group.inNameOrder attributeGroups) table.cases ∧
      table.SealedBy bodies := by
  have nonempty : ∀ group ∈ attributeGroups, group.candidates ≠ [] := by decide +kernel
  refine ⟨fun group member => ⟨nonempty group member, fun _ _ => rfl⟩, ?_⟩
  rcases Builder.switch_sealed builder attributeGroups nonempty (fun _ _ _ _ => rfl) with
    closed | ⟨group, member, c, inside, name, resolved, -⟩
  · exact closed
  · have known := candidates_resolve c (attributeGroups_candidates member c inside)
    have found : scan.library.resolve c.declaring.name = .error (.cyclic name) := resolved
    rw [Library.resolve_typeOf known] at found
    cases found

end Gallery

end WidgetDsl
