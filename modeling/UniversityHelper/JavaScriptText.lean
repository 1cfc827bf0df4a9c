import Mathlib

/-! The operations of JavaScript's strings that the pages normalise texts with. -/
namespace UniversityHelper.JavaScript

/-- `\s`, and what `trim` removes: the white space and the line ends. -/
def isSpace (c : Char) : Bool :=
  let n := c.toNat
  (9 ≤ n ∧ n ≤ 13) ∨ n = 32 ∨ n = 0xA0 ∨ n = 0x1680 ∨ (0x2000 ≤ n ∧ n ≤ 0x200A) ∨
    n = 0x2028 ∨ n = 0x2029 ∨ n = 0x202F ∨ n = 0x205F ∨ n = 0x3000 ∨ n = 0xFEFF

def trimChars (cs : List Char) : List Char := (cs.dropWhile isSpace).rdropWhile isSpace

/-- `text.trim()`. -/
def trim (text : String) : String := String.ofList (trimChars text.toList)

theorem trimChars_eq_self {cs : List Char} (h : ∀ c ∈ cs, isSpace c = false) : trimChars cs = cs := by
  have hleft : cs.dropWhile isSpace = cs := by
    cases cs with
    | nil => rfl
    | cons c cs => exact List.dropWhile_cons_of_neg (by simp [h c List.mem_cons_self])
  rw [trimChars, hleft, List.rdropWhile_eq_self_iff]
  intro hne
  simp [h _ (List.getLast_mem hne)]

theorem trim_eq_self {text : String} (h : ∀ c ∈ text.toList, isSpace c = false) : trim text = text := by
  rw [trim, trimChars_eq_self h, String.ofList_toList]

/-- The two ends of a text are trimmed in either order. -/
theorem dropWhile_rdropWhile {p : Char → Bool} (cs : List Char) :
    (cs.rdropWhile p).dropWhile p = (cs.dropWhile p).rdropWhile p := by
  induction cs using List.reverseRecOn with
  | nil => simp
  | append_singleton cs c ih =>
    by_cases hc : p c = true
    · rw [List.rdropWhile_concat_pos p cs c hc, ih, List.dropWhile_append]
      split_ifs with hempty
      · rw [List.isEmpty_iff.mp hempty, List.dropWhile_cons_of_pos hc, List.dropWhile_nil]
      · rw [List.rdropWhile_concat_pos p _ c hc]
    · rw [List.rdropWhile_concat_neg p cs c hc, List.dropWhile_append]
      split_ifs with hempty
      · rw [List.dropWhile_cons_of_neg hc, List.rdropWhile_singleton, if_neg hc]
      · rw [List.rdropWhile_concat_neg p _ c hc]

theorem trimChars_trimChars (cs : List Char) : trimChars (trimChars cs) = trimChars cs := by
  rw [trimChars, trimChars, dropWhile_rdropWhile, List.dropWhile_idempotent, List.rdropWhile_idempotent]

end UniversityHelper.JavaScript
