import WidgetDsl.Library.Descriptor

/-!
Lists of names that are sorted and have each name once.
-/

namespace WidgetDsl.Descriptor

theorem nodup_eraseDups {α : Type} [BEq α] [LawfulBEq α] (items : List α) :
    items.eraseDups.Nodup := by
  match items with
  | [] => simp
  | item :: rest =>
    rw [List.eraseDups_cons, List.nodup_cons]
    refine ⟨?_, nodup_eraseDups _⟩
    intro again
    have other := (List.mem_filter.mp (List.mem_eraseDups.mp again)).2
    simp at other
termination_by items.length
decreasing_by
  simpa [Nat.lt_succ_iff] using List.length_filter_le _ _

theorem sorted_perm (names : List String) : (sorted names).Perm names :=
  List.mergeSort_perm names _

theorem sorted_pairwise (names : List String) : (sorted names).Pairwise (· ≤ ·) := by
  have trans (a b c : String) (lower : decide (a ≤ b) = true) (upper : decide (b ≤ c) = true) :
      decide (a ≤ c) = true := by
    rw [decide_eq_true_eq] at lower upper ⊢
    exact String.le_trans lower upper
  have total (a b : String) : (decide (a ≤ b) || decide (b ≤ a)) = true := by
    simpa using String.le_total a b
  exact (List.pairwise_mergeSort trans total names).imp of_decide_eq_true

theorem pairwise_sortedBy {α : Type} (key : α → String) (items : List α) :
    (items.mergeSort fun a b => decide (key a ≤ key b)).Pairwise (key · ≤ key ·) := by
  have names : (items.mergeSort fun a b => decide (key a ≤ key b)).map key =
      sorted (items.map key) := List.map_mergeSort fun _ _ _ _ => rfl
  rw [← List.pairwise_map (f := key), names]
  exact sorted_pairwise _

theorem sorted_eraseDups_increasing (names : List String) :
    (sorted names.eraseDups).Pairwise (· < ·) := by
  have distinct : (sorted names.eraseDups).Pairwise (· ≠ ·) :=
    (sorted_perm _).symm.nodup (nodup_eraseDups names)
  exact (sorted_pairwise _).imp₂ (fun _ _ le ne => Std.lt_of_le_of_ne le ne) distinct

theorem mem_sorted_eraseDups {names : List String} {name : String} :
    name ∈ sorted names.eraseDups ↔ name ∈ names := by
  rw [(sorted_perm _).mem_iff, List.mem_eraseDups]

end WidgetDsl.Descriptor
