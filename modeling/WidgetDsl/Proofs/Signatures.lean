import Mathlib.Data.List.Sort
import WidgetDsl.Hierarchy.ResolvedType

/-!
The order of methods by signature. Sorting keeps methods with one signature in order, so that what is
found under a signature does not change when others come or go, and where every signature is there
once the order in which methods were declared leaves no trace.
-/

namespace WidgetDsl

theorem namesLe_total (a b : List String) : (namesLe a b || namesLe b a) = true := by
  induction a generalizing b with
  | nil => simp [namesLe]
  | cons first rest ih =>
    cases b with
    | nil => simp [namesLe]
    | cons other more =>
      by_cases same : first = other
      · simpa [namesLe, same] using ih more
      · have total := String.le_total first other
        simpa [namesLe, same, Ne.symm same] using total

theorem namesLe_trans {a b c : List String} (lower : namesLe a b = true)
    (upper : namesLe b c = true) : namesLe a c = true := by
  induction a generalizing b c with
  | nil => simp [namesLe]
  | cons x rest ih =>
    match b, c with
    | [], _ => simp [namesLe] at lower
    | _ :: _, [] => simp [namesLe] at upper
    | y :: more, z :: last =>
      unfold namesLe at lower upper ⊢
      by_cases first : x = y
      · subst first
        by_cases second : x = z
        · simp only [second, if_true] at lower upper ⊢
          exact ih lower upper
        · simpa [second] using upper
      · by_cases second : y = z
        · subst second
          simpa [first] using lower
        · simp only [first, second, if_false, decide_eq_true_eq] at lower upper
          have le := String.le_trans lower upper
          by_cases third : x = z
          · subst third
            exact absurd (String.le_antisymm lower upper) first
          · simpa [third] using le

theorem namesLe_antisymm {a b : List String} (lower : namesLe a b = true)
    (upper : namesLe b a = true) : a = b := by
  induction a generalizing b with
  | nil =>
    cases b with
    | nil => rfl
    | cons => simp [namesLe] at upper
  | cons x rest ih =>
    cases b with
    | nil => simp [namesLe] at lower
    | cons y more =>
      by_cases same : x = y
      · simp only [namesLe, same, if_true] at lower upper
        rw [same, ih lower upper]
      · simp only [namesLe, same, Ne.symm same, if_false, decide_eq_true_eq] at lower upper
        exact absurd (String.le_antisymm lower upper) same

namespace Signature

variable {a b c : Signature}

theorem le_total (a b : Signature) : (a.le b || b.le a) = true := by
  by_cases same : a.name = b.name
  · simpa [le, same] using namesLe_total a.parameters b.parameters
  · have total := String.le_total a.name b.name
    simpa [le, same, Ne.symm same] using total

theorem le_trans (lower : a.le b = true) (upper : b.le c = true) : a.le c = true := by
  unfold le at lower upper ⊢
  by_cases first : a.name = b.name
  · by_cases second : b.name = c.name
    · simp only [first, second, if_true] at lower upper ⊢
      exact namesLe_trans lower upper
    · simpa [first, second] using upper
  · by_cases second : b.name = c.name
    · simpa [← second, first] using lower
    · simp only [first, second, if_false, decide_eq_true_eq] at lower upper
      have le := String.le_trans lower upper
      by_cases third : a.name = c.name
      · rw [← third] at upper
        exact absurd (String.le_antisymm lower upper) first
      · simpa [third] using le

theorem le_antisymm (lower : a.le b = true) (upper : b.le a = true) : a = b := by
  unfold le at lower upper
  by_cases same : a.name = b.name
  · simp only [same, if_true] at lower upper
    cases a
    cases b
    simp only [mk.injEq]
    exact ⟨same, namesLe_antisymm lower upper⟩
  · simp only [same, Ne.symm same, if_false, decide_eq_true_eq] at lower upper
    exact absurd (String.le_antisymm lower upper) same

end Signature

section Sorting

variable {α : Type} {le : α → α → Bool}

theorem cut_unique (test : α → Bool) {front back front' back' : List α}
    (same : front ++ back = front' ++ back')
    (passing : ∀ b ∈ front, test b = true) (failing : ∀ b ∈ back, test b = false)
    (passing' : ∀ b ∈ front', test b = true) (failing' : ∀ b ∈ back', test b = false) :
    front = front' ∧ back = back' := by
  have frontOf {first last : List α} (passing : ∀ b ∈ first, test b = true)
      (failing : ∀ b ∈ last, test b = false) : (first ++ last).filter test = first := by
    have none : last.filter test = [] := List.filter_eq_nil_iff.mpr (by simpa using failing)
    rw [List.filter_append, List.filter_eq_self.mpr passing, none, List.append_nil]
  have first : front = front' := by
    rw [← frontOf passing failing, same, frontOf passing' failing']
  subst first
  exact ⟨rfl, List.append_cancel_left same⟩

theorem filter_mergeSort (trans : ∀ a b c, le a b = true → le b c = true → le a c = true)
    (total : ∀ a b, (le a b || le b a) = true) (keep : α → Bool) (items : List α) :
    (items.mergeSort le).filter keep = (items.filter keep).mergeSort le := by
  induction items with
  | nil => simp
  | cons a rest ih =>
    obtain ⟨before, after, sorted, others, less⟩ := List.mergeSort_cons trans total a rest
    rw [others, List.filter_append] at ih
    rw [sorted, List.filter_append, List.filter_cons]
    by_cases kept : keep a = true
    · obtain ⟨lower, upper, sortedKept, othersKept, lessKept⟩ :=
        List.mergeSort_cons trans total a (rest.filter keep)
      have behind {front back items : List α} (sorted : (a :: items).mergeSort le = front ++ a :: back) :
          ∀ b ∈ back, (!le a b) = false := by
        intro b member
        have ordered := List.pairwise_mergeSort trans total (a :: items)
        rw [sorted] at ordered
        have upper := List.rel_of_pairwise_cons (List.pairwise_append.mp ordered).2.1 member
        simpa using upper
      -- on both sides the item stands behind just those that are less than it
      have same : before.filter keep = lower ∧ after.filter keep = upper :=
        cut_unique (fun b => !le a b) (ih.trans othersKept)
          (fun b member => less b (List.mem_filter.mp member).1)
          (fun b member => behind sorted b (List.mem_filter.mp member).1) lessKept
          (behind sortedKept)
      rw [if_pos kept, List.filter_cons_of_pos kept, sortedKept, same.1, same.2]
    · rw [if_neg kept, List.filter_cons_of_neg kept]
      exact ih

end Sorting

theorem find?_key_eq_some_iff {α κ : Type} [DecidableEq κ] {key : α → κ} {items : List α}
    (distinct : (items.map key).Nodup) {k : κ} {a : α} :
    items.find? (key · = k) = some a ↔ a ∈ items ∧ key a = k := by
  constructor
  · intro found
    exact ⟨List.mem_of_find?_eq_some found, by simpa using List.find?_some found⟩
  · intro ⟨member, keyed⟩
    cases found : items.find? (key · = k) with
    | none => exact absurd keyed (by simpa using List.find?_eq_none.mp found a member)
    | some other =>
      have keyedToo : key other = k := by simpa using List.find?_some found
      have inside := List.mem_of_find?_eq_some found
      rw [List.inj_on_of_nodup_map distinct inside member (keyedToo.trans keyed.symm)]

namespace Method

def Before (a b : Method) : Prop :=
  a.signature.le b.signature = true ∧ a.signature ≠ b.signature

instance : Std.Irrefl Before :=
  ⟨fun _ before => before.2 rfl⟩

instance : Std.Antisymm Before :=
  ⟨fun _ _ first second => absurd (Signature.le_antisymm first.1 second.1) first.2⟩

def isOpen (m : Method) : Bool :=
  m.isAbstract && !m.isStatic

def inOrder (methods : List Method) : List Method :=
  methods.mergeSort fun a b => a.signature.le b.signature

variable {methods others : List Method} {signature : Signature}

theorem filter_inOrder (keep : Method → Bool) (methods : List Method) :
    (inOrder methods).filter keep = inOrder (methods.filter keep) := by
  apply filter_mergeSort
  · exact fun a b c => Signature.le_trans
  · exact fun a b => Signature.le_total a.signature b.signature

theorem inOrder_of_signature_eq (same : ∀ m ∈ methods, m.signature = signature) :
    inOrder methods = methods := by
  apply List.mergeSort_of_pairwise
  rw [List.pairwise_iff_forall_sublist]
  intro a b inside
  rw [same a (inside.subset (by simp)), same b (inside.subset (by simp))]
  simpa using Signature.le_total signature signature

/-- Sorting leaves the methods of one signature in their order. -/
theorem filter_signature_inOrder (methods : List Method) (signature : Signature) :
    (inOrder methods).filter (·.signature = signature) =
      methods.filter (·.signature = signature) := by
  rw [filter_inOrder]
  exact inOrder_of_signature_eq fun m member => by simpa using (List.mem_filter.mp member).2

theorem pairwise_inOrder (methods : List Method) :
    (inOrder methods).Pairwise fun a b => a.signature.le b.signature = true := by
  apply List.pairwise_mergeSort
  · exact fun a b c => Signature.le_trans
  · exact fun a b => Signature.le_total a.signature b.signature

theorem inOrder_before (distinct : (methods.map Method.signature).Nodup) :
    (inOrder methods).Pairwise Before := by
  have apart : (inOrder methods).Pairwise (·.signature ≠ ·.signature) :=
    List.pairwise_map.mp (((List.mergeSort_perm methods _).map Method.signature).nodup_iff.mpr distinct)
  exact (pairwise_inOrder methods).imp₂ (fun _ _ le ne => ⟨le, ne⟩) apart

theorem inOrder_of_perm (distinct : (methods.map Method.signature).Nodup)
    (same : methods.Perm others) : inOrder methods = inOrder others := by
  have distinctToo := (same.map Method.signature).nodup_iff.mp distinct
  apply (inOrder_before distinct).eq_of_mem_iff (inOrder_before distinctToo)
  intro m
  simp [inOrder, same.mem_iff]

theorem find?_of_perm (distinct : (methods.map Method.signature).Nodup)
    (same : methods.Perm others) (signature : Signature) :
    methods.find? (·.signature = signature) = others.find? (·.signature = signature) := by
  have distinctToo := (same.map Method.signature).nodup_iff.mp distinct
  ext m
  rw [find?_key_eq_some_iff distinct, find?_key_eq_some_iff distinctToo, same.mem_iff]

end Method

namespace ResolvedType

theorem mem_firstOfEach {taken : List Signature} {members : List Member} {member : Member} :
    member ∈ firstOfEach taken members ↔ member.method.signature ∉ taken ∧
      members.find? (·.method.signature = member.method.signature) = some member := by
  induction members generalizing taken with
  | nil => simp [firstOfEach]
  | cons first rest ih =>
    unfold firstOfEach
    rw [List.find?_cons]
    by_cases known : first.method.signature ∈ taken
    · rw [if_pos known, ih]
      apply and_congr_right
      intro fresh
      have other : first.method.signature ≠ member.method.signature :=
        fun same => fresh (same ▸ known)
      simp [other]
    · rw [if_neg known, List.mem_cons, ih]
      by_cases same : first.method.signature = member.method.signature
      · simp only [same, List.mem_cons, true_or, not_true_eq_false, false_and, or_false,
          decide_true, Option.some.injEq]
        constructor
        · intro here
          exact ⟨same ▸ known, here.symm⟩
        · intro here
          exact here.2.symm
      · have other : member ≠ first := fun here => same (here ▸ rfl)
        simp [same, Ne.symm same, other]

theorem mem_map_firstOfEach {taken : List Signature} {members : List Member} {m : Method} :
    m ∈ (firstOfEach taken members).map (·.method) ↔ m.signature ∉ taken ∧
      (members.map (·.method)).find? (·.signature = m.signature) = some m := by
  simp only [List.mem_map, mem_firstOfEach, List.find?_map, Option.map_eq_some_iff]
  constructor
  · rintro ⟨member, ⟨fresh, found⟩, rfl⟩
    exact ⟨fresh, member, found, rfl⟩
  · rintro ⟨fresh, member, found, rfl⟩
    exact ⟨member, ⟨fresh, found⟩, rfl⟩

theorem firstOfEach_distinct (taken : List Signature) (members : List Member) :
    (((firstOfEach taken members).map (·.method)).map Method.signature).Nodup := by
  induction members generalizing taken with
  | nil => simp [firstOfEach]
  | cons member rest ih =>
    unfold firstOfEach
    split
    · exact ih taken
    · rw [List.map_cons, List.map_cons, List.nodup_cons]
      refine ⟨?_, ih _⟩
      intro again
      obtain ⟨m, inside, same⟩ := List.mem_map.mp again
      have fresh := (mem_map_firstOfEach.mp inside).1
      simp [same] at fresh

/-- The abstract methods of a type and of the interfaces reached from it, nearest first. -/
def offered (type : ResolvedType) : List Method :=
  (type.interfaceClosure.flatMap ownAbstractMethods).map (·.method)

/-- The methods to implement, without the types that declare them. -/
def required (type : ResolvedType) : List Method :=
  type.abstractMethods.map (·.method)

theorem required_eq (type : ResolvedType) : type.required = Method.inOrder
    ((firstOfEach [] (type.interfaceClosure.flatMap ownAbstractMethods)).map (·.method)) :=
  List.map_mergeSort fun _ _ _ _ => rfl

theorem mem_required {type : ResolvedType} {m : Method} : m ∈ type.required ↔
    type.offered.find? (·.signature = m.signature) = some m := by
  rw [required_eq, Method.inOrder, List.mem_mergeSort, mem_map_firstOfEach, offered]
  simp

theorem required_before (type : ResolvedType) : type.required.Pairwise Method.Before := by
  rw [required_eq]
  exact Method.inOrder_before (firstOfEach_distinct _ _)

theorem required_eq_of_find? {a b : ResolvedType}
    (same : ∀ signature, a.offered.find? (·.signature = signature) =
      b.offered.find? (·.signature = signature)) : a.required = b.required := by
  apply (required_before a).eq_of_mem_iff (required_before b)
  intro m
  rw [mem_required, mem_required, same]

end ResolvedType

end WidgetDsl
