import WidgetDsl.Proofs.ControlFlow

/-!
Code put together from blocks. Where a writer stands only moves what calls write, so calls that leave
it as deep as it was write the same in a block of their own.
-/

namespace WidgetDsl.Java

namespace CodeBlock

theorem shift_shift (outer inner : Int) (code : CodeBlock) :
    (code.shift inner).shift outer = code.shift (outer + inner) := by
  simp [shift, Int.add_assoc]

theorem lines_shift_append (levels : Int) (a b : List Line) :
    (shift levels ⟨a ++ b⟩).lines = (shift levels ⟨a⟩).lines ++ (shift levels ⟨b⟩).lines :=
  List.map_append

end CodeBlock

namespace Writer

/-- The writer that goes on after `outer`, from where that one stands, as `inner` did from nothing. -/
def within (outer inner : Writer) : Writer :=
  ⟨outer.lines ++ (CodeBlock.shift outer.depth ⟨inner.lines⟩).lines, outer.depth + inner.depth⟩

theorem within_empty (w : Writer) : w.within empty = w := by
  simp [within, empty, CodeBlock.shift]

theorem within_addLine (outer inner : Writer) (parts : List Part) :
    (outer.within inner).addLine parts = outer.within (inner.addLine parts) := by
  simp [within, addLine, CodeBlock.shift]

theorem within_deepen (outer inner : Writer) (levels : Int) :
    (outer.within inner).deepen levels = outer.within (inner.deepen levels) := by
  simp [within, deepen, Int.add_assoc]

theorem within_perform (outer inner : Writer) (call : Call) :
    (outer.within inner).perform call = outer.within (inner.perform call) := by
  cases call with
  | line parts => exact within_addLine outer inner parts
  | statement parts => exact within_addLine outer inner _
  | opening parts => simp only [perform, within_addLine, within_deepen]
  | next parts => simp only [perform, within_addLine, within_deepen]
  | closing ending => simp only [perform, within_addLine, within_deepen]
  | indent => exact within_deepen outer inner 1
  | unindent => exact within_deepen outer inner (-1)
  | block code =>
    have placed := CodeBlock.shift_shift outer.depth inner.depth code
    simp only [perform_block, within, CodeBlock.lines_shift_append, List.append_assoc, ← placed]

theorem within_run (outer inner : Writer) (calls : List Call) :
    (outer.within inner).run calls = outer.within (inner.run calls) := by
  induction calls generalizing inner with
  | nil => rfl
  | cons call rest ih =>
    rw [run_cons, run_cons, within_perform]
    exact ih (inner.perform call)

/-- What calls do from some place is what they do from nothing, moved to that place. -/
theorem run_eq_within (w : Writer) (calls : List Call) :
    w.run calls = w.within (empty.run calls) := by
  have moved := within_run w empty calls
  rwa [within_empty] at moved

variable {calls : List Call} {code : CodeBlock}

theorem perform_block_of_ofCalls (built : CodeBlock.ofCalls calls = .ok code) (w : Writer) :
    w.perform (.block code) = w.run calls := by
  obtain ⟨balanced, written⟩ := CodeBlock.ofCalls_eq_ok_iff.mp built
  have depth : (empty.run calls).depth = 0 := by
    rw [run_depth, balanced]
    rfl
  rw [run_eq_within, perform_block, within, depth, Int.add_zero, ← written]

theorem run_block_among (built : CodeBlock.ofCalls calls = .ok code) (w : Writer)
    (before after : List Call) :
    w.run (before ++ .block code :: after) = w.run (before ++ calls ++ after) := by
  calc
    w.run (before ++ .block code :: after)
      = ((w.run before).perform (.block code)).run after := by rw [run_append, run_cons]
    _ = ((w.run before).run calls).run after := by rw [perform_block_of_ofCalls built]
    _ = w.run (before ++ calls ++ after) := by rw [run_append, run_append]

end Writer

namespace CodeBlock

/-- Calls made a block of their own change nothing in the block around them, nor whether that one can
be built. -/
theorem ofCalls_block_among {calls : List Call} {code : CodeBlock} (built : ofCalls calls = .ok code)
    (before after : List Call) :
    ofCalls (before ++ .block code :: after) = ofCalls (before ++ calls ++ after) := by
  rw [ofCalls, ofCalls, Writer.run_block_among built]

/-- Calls make a block exactly if they rise as much as they fall, and to place that block does what
the calls do, wherever a writer stands and whatever it has written. -/
theorem ofCalls_compositional (calls : List Call) :
    ((∃ code, ofCalls calls = .ok code) ↔ rise calls = 0) ∧
      ∀ code, ofCalls calls = .ok code → ∀ w : Writer, w.perform (.block code) = w.run calls := by
  refine ⟨⟨?_, exists_ofCalls⟩, ?_⟩
  · rintro ⟨code, built⟩
    exact (ofCalls_eq_ok_iff.mp built).1
  · intro code built w
    exact Writer.perform_block_of_ofCalls built w

def outward : List Call :=
  [.closing ");", .unindent, .opening ["else"], .block ⟨[⟨2, ["x();"]⟩]⟩, .next ["if (b)"], .indent]

def outwardBlock : CodeBlock :=
  ⟨[⟨-1, ["\x7d);"]⟩, ⟨-2, ["else", " \x7b"]⟩, ⟨1, ["x();"]⟩, ⟨-2, ["\x7d ", "if (b)", " \x7b"]⟩]⟩

theorem outward_placed : ofCalls outward = .ok outwardBlock ∧
    (⟨[⟨2, ["f("]⟩], 3⟩ : Writer).perform (.block outwardBlock) =
      (⟨[⟨2, ["f("]⟩], 3⟩ : Writer).run outward :=
  have built : ofCalls outward = .ok outwardBlock := rfl
  ⟨built, (ofCalls_compositional outward).2 outwardBlock built ⟨[⟨2, ["f("]⟩], 3⟩⟩

end CodeBlock

end WidgetDsl.Java
