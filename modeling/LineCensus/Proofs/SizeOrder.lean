import LineCensus.Proofs.Nodes
import LineCensus.Proofs.Sorting

/-!
Files in the order of their size. A file may stand before another if it has at least as many lines; files
of one size keep their order, so that nothing is moved a second time.
-/

namespace LineCensus.Stats.DirStats

set_option autoImplicit false

/-- A file stands before another if it has at least as many lines. -/
theorem order_of_sizes (a b : Nat) : (Count.order b a != .gt) = decide (b ≤ a) := by
  change (compare b a != .gt) = decide (b ≤ a)
  rcases Nat.lt_trichotomy b a with less | same | more
  · simp [Nat.compare_eq_lt.mpr less, Nat.le_of_lt less]
  · simp [same]
  · simp [Nat.compare_eq_gt.mpr more, more]

theorem by_size_eq (files : List (FileStats Nat)) :
    bySize files = files.mergeSort fun a b => decide (b.total ≤ a.total) := by
  simp only [bySize, order_of_sizes]

theorem size_trans (a b c : FileStats Nat) (first : decide (b.total ≤ a.total) = true)
    (second : decide (c.total ≤ b.total) = true) : decide (c.total ≤ a.total) = true := by
  rw [decide_eq_true_eq] at first second ⊢
  omega

theorem size_total (a b : FileStats Nat) :
    (decide (b.total ≤ a.total) || decide (a.total ≤ b.total)) = true := by
  rw [Bool.or_eq_true, decide_eq_true_eq, decide_eq_true_eq]
  omega

theorem filter_by_size (wanted : FileStats Nat → Bool) (files : List (FileStats Nat)) :
    (bySize files).filter wanted = bySize (files.filter wanted) := by
  rw [by_size_eq, by_size_eq, filter_merge_sort size_trans size_total]

theorem by_size_descends (files : List (FileStats Nat)) :
    (bySize files).Pairwise fun a b => b.total ≤ a.total := by
  rw [by_size_eq]
  apply (List.pairwise_mergeSort size_trans size_total files).imp
  intro a b before
  exact of_decide_eq_true before

/-- Sorting by size keeps what holds between the files of one size. -/
theorem by_size_stable {before : FileStats Nat → FileStats Nat → Prop} {files : List (FileStats Nat)}
    (ordered : files.Pairwise before) :
    (bySize files).Pairwise fun a b => b.total < a.total ∨ a.total = b.total ∧ before a b := by
  rw [by_size_eq]
  apply (merge_sort_stable size_trans size_total ordered).imp
  rintro a b ⟨larger, tied⟩
  rw [decide_eq_true_eq] at larger tied
  rcases Nat.lt_or_eq_of_le larger with less | equal
  · exact .inl less
  · exact .inr ⟨equal.symm, tied equal.ge⟩

/-- The files of one size are the same ones in the same order. -/
theorem by_size_same_size (files : List (FileStats Nat)) (size : Nat) :
    (bySize files).filter (·.total == size) = files.filter (·.total == size) := by
  rw [by_size_eq]
  apply merge_sort_ties size_trans size_total
  intro a b first second
  rw [beq_iff_eq] at first second
  exact decide_eq_true (by omega)

theorem by_size_twice (files : List (FileStats Nat)) : bySize (bySize files) = bySize files := by
  rw [by_size_eq (bySize files)]
  apply List.mergeSort_of_pairwise
  apply (by_size_descends files).imp
  intro a b before
  exact decide_eq_true before

end LineCensus.Stats.DirStats
