import Mathlib

/-! Selections of the `k` largest elements of a list by a key, as a relation that leaves the
order of the selection and the choice among equal keys open. -/
namespace UniversityHelper
variable {α τ : Type*} [LinearOrder τ]

/-- `top` is `all` without some elements, none of them above an element that stays; nothing is
left out before `k` elements are selected. -/
structure TopOf (key : α → τ) (k : ℕ) (top all : List α) : Prop where
  length_le : top.length ≤ k
  split : ∃ rest, (top ++ rest).Perm all ∧ (∀ a ∈ top, ∀ b ∈ rest, key b ≤ key a) ∧
    (rest ≠ [] → top.length = k)

namespace TopOf
variable {key : α → τ} {k : ℕ} {top top' all all' : List α}

theorem self (h : all.length ≤ k) : TopOf key k all all :=
  ⟨h, [], by simp, by simp, by simp⟩

theorem mem (h : TopOf key k top all) {a : α} (ha : a ∈ top) : a ∈ all := by
  obtain ⟨rest, hperm, -, -⟩ := h.split
  exact hperm.mem_iff.mp (List.mem_append_left _ ha)

theorem length_eq (h : TopOf key k top all) : top.length = min k all.length := by
  obtain ⟨rest, hperm, -, hfull⟩ := h.split
  have hlength := hperm.length_eq
  rw [List.length_append] at hlength
  have hle := h.length_le
  by_cases hrest : rest = []
  · subst hrest
    simp only [List.length_nil] at hlength
    omega
  · have := hfull hrest
    omega

theorem perm_of_length_le (h : TopOf key k top all) (hle : all.length ≤ k) : top.Perm all := by
  have hlength := h.length_eq
  obtain ⟨rest, hperm, -, -⟩ := h.split
  have hsplit := hperm.length_eq
  rw [List.length_append] at hsplit
  obtain rfl : rest = [] := List.length_eq_zero_iff.mp (by omega)
  simpa using hperm

theorem perm_left (h : TopOf key k top all) (hperm : top.Perm top') : TopOf key k top' all := by
  obtain ⟨rest, hsplit, hle, hfull⟩ := h.split
  refine ⟨hperm.length_eq ▸ h.length_le, rest, (hperm.symm.append_right rest).trans hsplit, ?_, ?_⟩
  · intro a ha
    exact hle a (hperm.mem_iff.mpr ha)
  · intro hrest
    rw [← hperm.length_eq]
    exact hfull hrest

theorem perm_right (h : TopOf key k top all) (hperm : all.Perm all') : TopOf key k top all' := by
  obtain ⟨rest, hsplit, hle, hfull⟩ := h.split
  exact ⟨h.length_le, rest, hsplit.trans hperm, hle, hfull⟩

/-- One more element: selecting among it and a selection is selecting among it and everything. -/
theorem cons {x : α} (h : TopOf key k top all) (h' : TopOf key k top' (x :: top)) :
    TopOf key k top' (x :: all) := by
  obtain ⟨rest, hsplit, hle, hfull⟩ := h.split
  obtain ⟨rest', hsplit', hle', hfull'⟩ := h'.split
  have hall : (top' ++ (rest' ++ rest)).Perm (x :: all) := by
    rw [← List.append_assoc]
    exact (hsplit'.append_right rest).trans (hsplit.cons x)
  have hlength := hsplit'.length_eq
  rw [List.length_append, List.length_cons] at hlength
  refine ⟨h'.length_le, rest' ++ rest, hall, ?_, ?_⟩
  · intro a ha b hb
    rcases List.mem_append.mp hb with hb | hb
    · exact hle' a ha b hb
    · have hk := hfull (List.ne_nil_of_mem hb)
      have hle_length := h'.length_le
      obtain ⟨y, hy⟩ : ∃ y, y ∈ rest' := List.exists_mem_of_length_pos (by omega)
      have hya := hle' a ha y hy
      rcases List.mem_cons.mp (hsplit'.mem_iff.mp (List.mem_append_right _ hy)) with rfl | hytop
      · rcases List.mem_cons.mp (hsplit'.mem_iff.mp (List.mem_append_left _ ha)) with rfl | hatop
        · have hmem : a ∈ top := by
            obtain ⟨l, hl⟩ := List.append_of_mem hy
            obtain ⟨r, rfl⟩ := hl
            have hperm : (top' ++ (l ++ r)).Perm top := by
              have hmove : (a :: (top' ++ (l ++ r))).Perm (top' ++ (l ++ a :: r)) := by
                rw [← List.append_assoc, ← List.append_assoc]
                exact List.perm_middle.symm
              exact (hmove.trans hsplit').cons_inv
            exact hperm.mem_iff.mp (List.mem_append_left _ ha)
          exact hle a hmem b hb
        · exact hle a hatop b hb
      · exact (hle y hytop b hb).trans hya
  · intro hne
    by_cases hrest' : rest' = []
    · subst hrest'
      have hrest : rest ≠ [] := by simpa using hne
      have hk := hfull hrest
      have hle_length := h'.length_le
      simp only [List.length_nil] at hlength
      omega
    · exact hfull' hrest'

theorem snoc {x : α} (h : TopOf key k top all) (h' : TopOf key k top' (top ++ [x])) :
    TopOf key k top' (all ++ [x]) := by
  have hx : (top ++ [x]).Perm (x :: top) := List.perm_append_singleton x top
  exact (h.cons (h'.perm_right hx)).perm_right (List.perm_append_singleton x all).symm

/-- The first `k` elements of a list sorted from the largest key down. -/
theorem take_sorted (sorted : all.Pairwise fun a b => key b ≤ key a) :
    TopOf key k (all.take k) all := by
  refine ⟨List.length_take_le _ _, all.drop k, by rw [List.take_append_drop], ?_, ?_⟩
  · intro a ha b hb
    rw [← List.take_append_drop k all] at sorted
    exact (List.pairwise_append.mp sorted).2.2 a ha b hb
  · intro hne
    rw [List.length_take]
    have := List.length_pos_of_ne_nil hne
    rw [List.length_drop] at this
    omega

/-- Dropping one element of a full selection that is not above any of the others. -/
theorem tail {x : α} (hlength : all.length ≤ k) (hfull : k ≤ all.length)
    (hx : ∀ a ∈ all, key x ≤ key a) : TopOf key k all (x :: all) := by
  refine ⟨hlength, [x], List.perm_append_singleton x all, ?_, ?_⟩
  · intro a ha b hb
    obtain rfl := List.mem_singleton.mp hb
    exact hx a ha
  · intro _
    omega

theorem map {β : Type*} (f : α → β) {key : β → τ} (h : TopOf (fun a => key (f a)) k top all) :
    TopOf key k (top.map f) (all.map f) := by
  obtain ⟨rest, hsplit, hle, hfull⟩ := h.split
  refine ⟨by rw [List.length_map]; exact h.length_le, rest.map f, ?_, ?_, ?_⟩
  · rw [← List.map_append]
    exact hsplit.map f
  · intro a ha b hb
    obtain ⟨a, hatop, rfl⟩ := List.mem_map.mp ha
    obtain ⟨b, hbrest, rfl⟩ := List.mem_map.mp hb
    exact hle a hatop b hbrest
  · intro hne
    rw [List.length_map]
    exact hfull fun hnil => hne (by rw [hnil, List.map_nil])

/-- A selection by one key is one by every key that never stands against it. -/
theorem by_key {β : Type*} [LinearOrder β] {value : α → β} (h : TopOf key k top all)
    (agree : ∀ a ∈ all, ∀ b ∈ all, key b ≤ key a → value b ≤ value a) : TopOf value k top all := by
  obtain ⟨rest, hsplit, hle, hfull⟩ := h.split
  refine ⟨h.length_le, rest, hsplit, ?_, hfull⟩
  intro a ha b hb
  have hmem_a : a ∈ all := hsplit.mem_iff.mp (List.mem_append_left _ ha)
  have hmem_b : b ∈ all := hsplit.mem_iff.mp (List.mem_append_right _ hb)
  exact agree a hmem_a b hmem_b (hle a ha b hb)

/-- A selection that drops an element above one that it keeps, for a new one, selects too little. -/
theorem not_of_dropped {x y z : α} (h : TopOf key k (x :: top) all) (hy : y ∈ top ++ [z])
    (hlt : key y < key x) : ¬ TopOf key k (top ++ [z]) (all ++ [z]) := by
  intro h'
  obtain ⟨rest, hsplit, -, -⟩ := h.split
  obtain ⟨rest', hsplit', hle', -⟩ := h'.split
  have hmove : (all ++ [z]).Perm ((top ++ [z]) ++ (x :: rest)) := by
    have hlast : (rest ++ [z]).Perm (z :: rest) := List.perm_append_singleton z rest
    have hmiddle : (x :: (top ++ [z] ++ rest)).Perm (top ++ [z] ++ x :: rest) :=
      List.perm_middle.symm
    refine (hsplit.symm.append_right [z]).trans (.trans ?_ hmiddle)
    simpa using hlast.append_left top
  have hrest : rest'.Perm (x :: rest) :=
    (List.perm_append_left_iff _).mp (hsplit'.trans hmove)
  exact absurd (hle' y hy x (hrest.mem_iff.mpr (by simp))) (not_le.mpr hlt)

end TopOf
end UniversityHelper
