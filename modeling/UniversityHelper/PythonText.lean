import Mathlib

/-! The operations of Python's `str` and `list` that the services normalise their inputs with. -/
namespace UniversityHelper

/-- `str.isspace` of one character. -/
def isSpace (c : Char) : Bool :=
  let n := c.toNat
  (9 ≤ n ∧ n ≤ 13) ∨ (28 ≤ n ∧ n ≤ 32) ∨ n = 0x85 ∨ n = 0xA0 ∨ n = 0x1680 ∨
    (0x2000 ≤ n ∧ n ≤ 0x200A) ∨ n = 0x2028 ∨ n = 0x2029 ∨ n = 0x202F ∨ n = 0x205F ∨ n = 0x3000

def stripChars (cs : List Char) : List Char := (cs.dropWhile isSpace).rdropWhile isSpace

/-- `text.strip()`. -/
def strip (text : String) : String := String.ofList (stripChars text.toList)

/-- `text.lower()`, on the ASCII letters. -/
def lower (text : String) : String := String.ofList (text.toList.map Char.toLower)

/-- The zeros of the decimal digits, each followed by its nine others. -/
def decimalZeros : List ℕ :=
  [0x30, 0x660, 0x6F0, 0x7C0, 0x966, 0x9E6, 0xA66, 0xAE6, 0xB66, 0xBE6, 0xC66, 0xCE6, 0xD66,
    0xDE6, 0xE50, 0xED0, 0xF20, 0x1040, 0x1090, 0x17E0, 0x1810, 0x1946, 0x19D0, 0x1A80, 0x1A90,
    0x1B50, 0x1BB0, 0x1C40, 0x1C50, 0xA620, 0xA8D0, 0xA900, 0xA9D0, 0xA9F0, 0xAA50, 0xABF0,
    0xFF10, 0x104A0, 0x10D30, 0x11066, 0x110F0, 0x11136, 0x111D0, 0x112F0, 0x11450, 0x114D0,
    0x11650, 0x116C0, 0x11730, 0x118E0, 0x11950, 0x11C50, 0x11D50, 0x11DA0, 0x16A60, 0x16AC0,
    0x16B50, 0x1D7CE, 0x1D7D8, 0x1D7E2, 0x1D7EC, 0x1D7F6, 0x1E140, 0x1E2F0, 0x1E950, 0x1FBF0]

/-- `\d` of `re`. -/
def isDecimal (c : Char) : Bool := decimalZeros.any fun first => first ≤ c.toNat ∧ c.toNat ≤ first + 9

/-- The runs of digits that are not decimal ones (superscripts, circled digits and the like), each
with its length. -/
def otherDigits : List (ℕ × ℕ) :=
  [(0xB2, 2), (0xB9, 1), (0x1369, 9), (0x19DA, 1), (0x2070, 1), (0x2074, 6), (0x2080, 10),
    (0x2460, 9), (0x2474, 9), (0x2488, 9), (0x24EA, 1), (0x24F5, 9), (0x24FF, 1), (0x2776, 9),
    (0x2780, 9), (0x278A, 9), (0x10A40, 4), (0x10E60, 9), (0x11052, 9), (0x1F100, 11)]

/-- `str.isdigit` of one character. -/
def isDigit (c : Char) : Bool :=
  isDecimal c || otherDigits.any fun run => run.1 ≤ c.toNat ∧ c.toNat < run.1 + run.2

/-- `part in text`. -/
def contains (text part : String) : Bool := part.toList <:+: text.toList

/-- `text.split(separator)`, for a separator of one character. -/
def splitText (text : String) (separator : Char) : List String :=
  (text.toList.splitOn separator).map String.ofList

variable {α : Type*}

/-- `xs[start:]`. -/
def sliceFrom (xs : List α) (start : ℤ) : List α :=
  if 0 ≤ start then xs.drop start.toNat else xs.drop (xs.length + start).toNat

/-- `if len(xs) > limit: del xs[:-limit]`. -/
def keepLast (limit : ℕ) (xs : List α) : List α := xs.drop (xs.length - limit)

theorem dropWhile_stripChars (cs : List Char) :
    (stripChars cs).dropWhile isSpace = stripChars cs := by
  rw [List.dropWhile_eq_self_iff]
  intro hl
  have hprefix := List.rdropWhile_prefix isSpace (cs.dropWhile isSpace)
  have hne : 0 < (cs.dropWhile isSpace).length := lt_of_lt_of_le hl hprefix.length_le
  have hhead : (stripChars cs)[0] = (cs.dropWhile isSpace)[0] := hprefix.getElem hl
  rw [hhead]
  exact List.dropWhile_get_zero_not isSpace cs hne

@[simp] theorem strip_strip (text : String) : strip (strip text) = strip text := by
  have h : stripChars (stripChars text.toList) = stripChars text.toList := by
    rw [stripChars, dropWhile_stripChars]
    exact List.rdropWhile_idempotent _ _
  simp only [strip, String.toList_ofList, h]

theorem isSpace_eq_false {c : Char} (h : 32 < c.toNat ∧ c.toNat < 0x85) : isSpace c = false := by
  simp only [isSpace, decide_eq_false_iff_not]
  omega

theorem isSpace_toLower (c : Char) : isSpace c.toLower = isSpace c := by
  by_cases h : 'A'.val ≤ c.val ∧ c.val ≤ 'Z'.val
  · have hlow : 65 ≤ c.toNat := UInt32.le_iff_toNat_le.mp h.1
    have hhigh : c.toNat ≤ 90 := UInt32.le_iff_toNat_le.mp h.2
    have hlower : c.toLower.toNat = c.toNat + 32 := by
      have hval : c.toLower.val = c.val + 32 := by
        rw [Char.toLower, dif_pos h]
        rfl
      have hadd : (c.val + 32).toNat = (c.toNat + 32) % 2 ^ 32 := UInt32.toNat_add _ _
      rw [Char.toNat, hval, hadd]
      omega
    rw [isSpace_eq_false (by omega), isSpace_eq_false (by omega)]
  · rw [Char.toLower, dif_neg h]

theorem stripChars_map_toLower (cs : List Char) :
    stripChars (cs.map Char.toLower) = (stripChars cs).map Char.toLower := by
  have hspace : isSpace ∘ Char.toLower = isSpace := funext isSpace_toLower
  simp only [stripChars, List.rdropWhile, List.dropWhile_map, hspace, ← List.map_reverse]

theorem lower_strip (text : String) : lower (strip text) = strip (lower text) := by
  simp only [lower, strip, String.toList_ofList, stripChars_map_toLower]

theorem infix_dropWhile {part cs : List Char} (h : part <:+: cs) (hpart : ∀ c ∈ part, isSpace c = false) :
    part <:+: cs.dropWhile isSpace := by
  induction cs with
  | nil => exact h
  | cons c cs ih =>
    by_cases hc : isSpace c = true
    · rw [List.dropWhile_cons_of_pos hc]
      rcases List.infix_cons_iff.mp h with hprefix | hrest
      · cases part with
        | nil => exact List.nil_infix
        | cons d part =>
          have hd := hpart d List.mem_cons_self
          rw [(List.cons_prefix_cons.mp hprefix).1, hc] at hd
          cases hd
      · exact ih hrest
    · rw [List.dropWhile_cons_of_neg hc]
      exact h

/-- Stripping does not touch a part without spaces. -/
theorem infix_stripChars {part cs : List Char} (h : part <:+: cs)
    (hpart : ∀ c ∈ part, isSpace c = false) : part <:+: stripChars cs := by
  rw [stripChars, List.rdropWhile, ← List.reverse_infix, List.reverse_reverse]
  refine infix_dropWhile (List.reverse_infix.mpr (infix_dropWhile h hpart)) ?_
  simpa using hpart

theorem stripChars_split (cs : List Char) :
    ∃ before after, cs = before ++ stripChars cs ++ after ∧ ∀ c ∈ before, isSpace c = true := by
  obtain ⟨after, hafter⟩ := List.rdropWhile_prefix isSpace (cs.dropWhile isSpace)
  refine ⟨cs.takeWhile isSpace, after, ?_, fun c hc => List.mem_takeWhile_imp hc⟩
  rw [List.append_assoc, stripChars, hafter, List.takeWhile_append_dropWhile]

theorem dropWhile_append_separator {c : Char} (hc : isSpace c = false) (xs ys : List Char) :
    (xs ++ c :: ys).dropWhile isSpace = xs.dropWhile isSpace ++ c :: ys := by
  induction xs with
  | nil => simp [hc]
  | cons x xs ih =>
    by_cases hx : isSpace x = true
    · rw [List.cons_append, List.dropWhile_cons_of_pos hx, List.dropWhile_cons_of_pos hx, ih]
    · rw [List.cons_append, List.dropWhile_cons_of_neg hx, List.dropWhile_cons_of_neg hx,
        List.cons_append]

theorem rdropWhile_append_separator {c : Char} (hc : isSpace c = false) (xs ys : List Char) :
    (xs ++ c :: ys).rdropWhile isSpace = xs ++ c :: ys.rdropWhile isSpace := by
  have hreverse : (xs ++ c :: ys).reverse = ys.reverse ++ c :: xs.reverse := by simp
  rw [List.rdropWhile, hreverse, dropWhile_append_separator hc]
  simp [List.rdropWhile]

theorem stripChars_append_separator {c : Char} (hc : isSpace c = false) (xs ys : List Char) :
    stripChars (xs ++ c :: ys) = xs.dropWhile isSpace ++ c :: ys.rdropWhile isSpace := by
  rw [stripChars, dropWhile_append_separator hc, rdropWhile_append_separator hc]

theorem stripChars_rdropWhile (cs : List Char) :
    stripChars (cs.rdropWhile isSpace) = stripChars cs := by
  by_cases hspaces : ∀ c ∈ cs, isSpace c = true
  · have hleft : cs.dropWhile isSpace = [] := List.dropWhile_eq_nil_iff.mpr hspaces
    have hright : cs.rdropWhile isSpace = [] := List.rdropWhile_eq_nil_iff.mpr hspaces
    rw [hright, stripChars, stripChars, hleft]
    rfl
  · simp only [not_forall, Bool.not_eq_true] at hspaces
    obtain ⟨c, hc, hspace⟩ := hspaces
    obtain ⟨before, after, rfl⟩ := List.append_of_mem hc
    rw [rdropWhile_append_separator hspace, stripChars_append_separator hspace,
      stripChars_append_separator hspace, List.rdropWhile_idempotent]

theorem stripChars_cons_space {c : Char} (hc : isSpace c = true) (cs : List Char) :
    stripChars (c :: cs) = stripChars cs := by
  rw [stripChars, List.dropWhile_cons_of_pos hc, stripChars]

theorem stripChars_eq_self {cs : List Char} (h : ∀ c ∈ cs, isSpace c = false) : stripChars cs = cs := by
  have hleft : cs.dropWhile isSpace = cs := by
    cases cs with
    | nil => rfl
    | cons c cs => exact List.dropWhile_cons_of_neg (by simp [h c List.mem_cons_self])
  rw [stripChars, hleft, List.rdropWhile_eq_self_iff]
  intro hne
  simp [h _ (List.getLast_mem hne)]

theorem strip_eq_self {text : String} (h : ∀ c ∈ text.toList, isSpace c = false) :
    strip text = text := by
  rw [strip, stripChars_eq_self h, String.ofList_toList]

@[simp] theorem sliceFrom_zero (xs : List α) : sliceFrom xs 0 = xs := by
  simp [sliceFrom]

@[simp] theorem sliceFrom_natCast (xs : List α) (n : ℕ) : sliceFrom xs n = xs.drop n := by
  simp [sliceFrom]

theorem length_keepLast (limit : ℕ) (xs : List α) :
    (keepLast limit xs).length = min limit xs.length := by
  simp only [keepLast, List.length_drop]
  omega

theorem keepLast_of_le {limit : ℕ} {xs : List α} (h : xs.length ≤ limit) :
    keepLast limit xs = xs := by
  simp [keepLast, Nat.sub_eq_zero_of_le h]

theorem keepLast_suffix (limit : ℕ) (xs : List α) : keepLast limit xs <:+ xs :=
  List.drop_suffix _ _

theorem eq_keepLast {limit : ℕ} {xs ys : List α} (hsuffix : ys <:+ xs)
    (hlen : ys.length = min limit xs.length) : ys = keepLast limit xs := by
  rw [List.suffix_iff_eq_drop.mp hsuffix, keepLast]
  congr 1
  omega

/-- Trimming after every append keeps what trimming once at the end keeps. -/
theorem keepLast_keepLast_append (limit : ℕ) (xs ys : List α) :
    keepLast limit (keepLast limit xs ++ ys) = keepLast limit (xs ++ ys) := by
  apply eq_keepLast
  · have happend : keepLast limit xs ++ ys <:+ xs ++ ys := by
      obtain ⟨zs, hzs⟩ := keepLast_suffix limit xs
      exact ⟨zs, by rw [← List.append_assoc, hzs]⟩
    exact (keepLast_suffix _ _).trans happend
  · simp only [length_keepLast, List.length_append]
    omega

end UniversityHelper
