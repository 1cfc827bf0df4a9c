import Mathlib

/-! Counting over a finite family of threads whose local states are updated one at a
time: every reference count and every queue counter of the development is a `load`. -/
namespace UniversityHelper
variable {ι β M : Type*} [Fintype ι] [DecidableEq ι] [AddCommMonoid M]

/-- The total weight of the threads' local states. -/
def load (weight : β → M) (locals : ι → β) : M := ∑ i, weight (locals i)

omit [DecidableEq ι] in
theorem load_const (weight : β → M) (b : β) (hb : weight b = 0) :
    load weight (fun _ : ι => b) = 0 := by
  simp [load, hb]

/-- One thread moves: its old weight is exchanged for its new one. -/
theorem load_update (weight : β → M) (locals : ι → β) (i : ι) (b : β) :
    load weight (Function.update locals i b) + weight (locals i) =
      load weight locals + weight b := by
  have hrest : ∀ j ∈ Finset.univ.erase i,
      weight (Function.update locals i b j) = weight (locals j) := by
    intro j hj
    rw [Function.update_of_ne (Finset.ne_of_mem_erase hj)]
  have hnew := Finset.add_sum_erase Finset.univ
    (fun j => weight (Function.update locals i b j)) (Finset.mem_univ i)
  have hold := Finset.add_sum_erase Finset.univ (fun j => weight (locals j)) (Finset.mem_univ i)
  rw [Finset.sum_congr rfl hrest, Function.update_self] at hnew
  simp only [load, ← hnew, ← hold]
  abel

/-- A thread moves between local states of the same weight. -/
theorem load_update_of_eq {weight : β → M} {locals : ι → β} {i : ι} {b : β}
    (h : weight b = weight (locals i)) :
    load weight (Function.update locals i b) = load weight locals := by
  refine Finset.sum_congr rfl fun j _ => ?_
  by_cases hj : j = i
  · subst hj
    rw [Function.update_self, h]
  · rw [Function.update_of_ne hj]

omit [DecidableEq ι] in
theorem weight_le_load (weight : β → ℕ) (locals : ι → β) (i : ι) :
    weight (locals i) ≤ load weight locals :=
  Finset.single_le_sum (f := fun j => weight (locals j)) (fun _ _ => Nat.zero_le _)
    (Finset.mem_univ i)

omit [DecidableEq ι] in
theorem load_eq_zero [PartialOrder M] [IsOrderedAddMonoid M] [CanonicallyOrderedAdd M]
    {weight : β → M} {locals : ι → β} : load weight locals = 0 ↔ ∀ i, weight (locals i) = 0 := by
  simp [load]

end UniversityHelper
