import Mathlib

/-! What taking the first elements of a sorted list selects, in terms of how many elements
are smaller. -/
namespace UniversityHelper
variable {α : Type*} [LinearOrder α]

/-- The number of elements of `xs` below `x`. -/
def rank (xs : List α) (x : α) : ℕ := xs.countP fun y => decide (y < x)

theorem rank_perm {xs ys : List α} (h : xs.Perm ys) (x : α) : rank xs x = rank ys x :=
  h.countP_eq _

theorem mem_take_of_sorted {xs : List α} (sorted : xs.Pairwise (· < ·)) {n : ℕ} {x : α} :
    x ∈ xs.take n ↔ x ∈ xs ∧ rank xs x < n := by
  induction xs generalizing n with
  | nil => simp
  | cons y ys ih =>
    obtain ⟨hy, hys⟩ := List.pairwise_cons.mp sorted
    cases n with
    | zero => simp
    | succ n =>
      simp only [List.take_succ_cons, List.mem_cons, ih hys, rank, List.countP_cons]
      constructor
      · rintro (rfl | ⟨hx, hrank⟩)
        · have hzero : ys.countP (fun z => decide (z < x)) = 0 := by
            rw [List.countP_eq_zero]
            intro z hz
            simpa using (hy z hz).le
          simp [hzero]
        · simp [hx, hy x hx, hrank]
      · rintro ⟨rfl | hx, hrank⟩
        · exact Or.inl rfl
        · refine Or.inr ⟨hx, ?_⟩
          simpa [hy x hx] using hrank

theorem sorted_insertionSort_of_nodup {xs : List α} (h : xs.Nodup) :
    (xs.insertionSort (· ≤ ·)).Pairwise (· < ·) := by
  have hle := List.pairwise_insertionSort (· ≤ ·) xs
  have hnodup : (xs.insertionSort (· ≤ ·)).Pairwise (· ≠ ·) :=
    (List.perm_insertionSort (· ≤ ·) xs).nodup_iff.mpr h
  exact (hle.and hnodup).imp fun h => lt_of_le_of_ne h.1 h.2

/-- The `n` smallest elements are those with fewer than `n` elements below them. -/
theorem mem_take_insertionSort {xs : List α} (h : xs.Nodup) {n : ℕ} {x : α} :
    x ∈ (xs.insertionSort (· ≤ ·)).take n ↔ x ∈ xs ∧ rank xs x < n := by
  have hperm := List.perm_insertionSort (· ≤ ·) xs
  rw [mem_take_of_sorted (sorted_insertionSort_of_nodup h), hperm.mem_iff, rank_perm hperm]

end UniversityHelper
