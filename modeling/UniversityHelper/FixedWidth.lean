import Mathlib

/-! Lexicographic order of texts that are put together from fields of a fixed width, such as
zero-padded decimal numbers. -/
namespace UniversityHelper

section Lex
variable {α : Type*} [LinearOrder α] {a b c d : List α}

/-- Two texts of one length decide the order of whatever is appended to them. -/
theorem append_lt_append (hlength : a.length = b.length) (h : a < b) : a ++ c < b ++ d := by
  induction a generalizing b with
  | nil =>
    obtain rfl : b = [] := List.length_eq_zero_iff.mp hlength.symm
    exact absurd h (lt_irrefl _)
  | cons x a ih =>
    cases b with
    | nil => cases hlength
    | cons y b =>
      rw [List.cons_append, List.cons_append, List.cons_lt_cons_iff]
      rcases List.cons_lt_cons_iff.mp h with hxy | ⟨hxy, hab⟩
      · exact .inl hxy
      · exact .inr ⟨hxy, ih (Nat.succ.inj hlength) hab⟩

@[simp] theorem append_lt_append_left_iff (x : List α) : x ++ a < x ++ b ↔ a < b := by
  induction x with
  | nil => rfl
  | cons y x ih => simp [ih]

theorem lt_append {b : List α} (h : b ≠ []) : a < a ++ b := by
  have hnil : ([] : List α) < b := by
    cases b with
    | nil => exact absurd rfl h
    | cons y b => exact List.nil_lt_cons y b
  simpa using (append_lt_append_left_iff a).mpr hnil

/-- Texts of which neither goes on from the other decide the order of whatever is appended. -/
theorem append_lt_append_iff (ha : ¬ a <+: b) (hb : ¬ b <+: a) : a ++ c < b ++ d ↔ a < b := by
  induction a generalizing b with
  | nil => exact absurd List.nil_prefix ha
  | cons x a ih =>
    cases b with
    | nil => exact absurd List.nil_prefix hb
    | cons y b =>
      rw [List.cons_append, List.cons_append, List.cons_lt_cons_iff, List.cons_lt_cons_iff]
      by_cases hxy : x = y
      · subst hxy
        rw [ih (fun h => ha (List.cons_prefix_cons.mpr ⟨rfl, h⟩))
          fun h => hb (List.cons_prefix_cons.mpr ⟨rfl, h⟩)]
      · simp [hxy]

theorem cons_lt_cons_of_lt {x y : α} (h : x < y) : x :: a < y :: b :=
  List.cons_lt_cons_iff.mpr (.inl h)

theorem cons_lt_cons_of_tail {x : α} (h : a < b) : x :: a < x :: b :=
  List.cons_lt_cons_iff.mpr (.inr ⟨rfl, h⟩)

end Lex

/-- The last `width` decimal digits of `n`, zeros included. -/
def digits : ℕ → ℕ → List Char
  | 0, _ => []
  | width + 1, n => digits width (n / 10) ++ [Nat.digitChar (n % 10)]

variable {width m n : ℕ}

@[simp] theorem length_digits : (digits width n).length = width := by
  induction width generalizing n with
  | zero => rfl
  | succ width ih => rw [digits, List.length_append, ih, List.length_singleton]

theorem digitChar_lt_digitChar (h : m < n) (hn : n < 10) : m.digitChar < n.digitChar := by
  have hm : m < 10 := h.trans hn
  interval_cases n <;> interval_cases m <;> decide

theorem digits_lt_digits (h : m < n) (hn : n < 10 ^ width) : digits width m < digits width n := by
  induction width generalizing m n with
  | zero => omega
  | succ width ih =>
    rw [digits, digits]
    rcases Nat.lt_or_ge (m / 10) (n / 10) with hhead | hhead
    · have hwidth : n / 10 < 10 ^ width := by
        rw [pow_succ] at hn
        omega
      exact append_lt_append (by simp) (ih hhead hwidth)
    · have hequal : m / 10 = n / 10 := le_antisymm (Nat.div_le_div_right h.le) hhead
      rw [hequal]
      apply List.append_left_lt
      exact cons_lt_cons_of_lt (digitChar_lt_digitChar (by omega) (Nat.mod_lt _ (by omega)))

end UniversityHelper
