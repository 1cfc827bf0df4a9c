import UniversityHelper.FixedWidth

/-! Versions of Semantic Versioning 2.0.0 without build metadata: their texts, their precedence,
and when the texts of two pre-releases are in the order of the pre-releases. -/
namespace UniversityHelper.SemVer

/-- `[0-9A-Za-z-]`. -/
def isWordChar (c : Char) : Bool := c.isAlphanum || c = '-'

/-- An identifier of a pre-release: a number without leading zeros, or a word that is not one. -/
inductive Identifier
  | numeric (n : ℕ)
  | word (cs : List Char) (chars : ∀ c ∈ cs, isWordChar c = true) (nondigit : ∃ c ∈ cs, c.isDigit = false)

structure Version where
  major : ℕ
  minor : ℕ
  patch : ℕ
  preRelease : List Identifier

namespace Identifier

def text : Identifier → List Char
  | numeric n => Nat.toDigits 10 n
  | word cs _ _ => cs

/-- Numbers are compared as numbers, words as texts, and a number is below a word. -/
def Lower : Identifier → Identifier → Prop
  | numeric m, numeric n => m < n
  | numeric _, word _ _ _ => True
  | word _ _ _, numeric _ => False
  | word v _ _, word w _ _ => v < w

end Identifier

/-- The first identifier that differs decides, and a longer list of equal ones is above. -/
def PreLower (p q : List Identifier) : Prop := p ≠ [] ∧ (q = [] ∨ List.Lex Identifier.Lower p q)

namespace Version

def core (v : Version) : ℕ ×ₗ ℕ ×ₗ ℕ := toLex (v.major, toLex (v.minor, v.patch))

/-- `v` has lower precedence than `w`. -/
def Lower (v w : Version) : Prop :=
  v.core < w.core ∨ v.core = w.core ∧ PreLower v.preRelease w.preRelease

end Version

/-- The identifiers joined by dots. -/
def dotted : List Identifier → List Char
  | [] => []
  | [a] => a.text
  | a :: b :: rest => a.text ++ '.' :: dotted (b :: rest)

def Version.text (v : Version) : List Char :=
  Nat.toDigits 10 v.major ++ '.' :: (Nat.toDigits 10 v.minor ++ '.' :: (Nat.toDigits 10 v.patch ++
    if v.preRelease = [] then [] else '-' :: dotted v.preRelease))

/-- The texts of the version, with and without a leading `v`. -/
def Spells (v : Version) (text : String) : Prop :=
  text.toList = v.text ∨ text.toList = 'v' :: v.text

/-! ### When the texts are in the order of the pre-releases -/

/-- Of two numbers the one with fewer digits is also first as a text, and a number is first as a text
before a word. -/
def Identifier.Fits : Identifier → Identifier → Prop
  | numeric m, numeric n =>
    ((Nat.toDigits 10 m).length < (Nat.toDigits 10 n).length → Nat.toDigits 10 m < Nat.toDigits 10 n) ∧
    ((Nat.toDigits 10 n).length < (Nat.toDigits 10 m).length → Nat.toDigits 10 n < Nat.toDigits 10 m)
  | numeric m, word w _ _ => Nat.toDigits 10 m < w
  | word v _ _, numeric n => Nat.toDigits 10 n < v
  | word _ _ _, word _ _ _ => True

/-- Not that `a` is followed by a dot where `b` goes on with a hyphen. -/
def Unbroken (a : Identifier) (rest : List Identifier) (b : Identifier) : Prop :=
  rest = [] ∨ ¬ a.text ++ ['-'] <+: b.text

/-- The first identifiers that differ fit and are not broken off. -/
def Comparable : List Identifier → List Identifier → Prop
  | a :: as, b :: bs =>
    a = b ∧ Comparable as bs ∨ a ≠ b ∧ a.Fits b ∧ Unbroken a as b ∧ Unbroken b bs a
  | _, _ => True

variable {m n : ℕ} {a b : Identifier} {as bs p q : List Identifier}

theorem dotted_cons (a : Identifier) (as : List Identifier) :
    dotted (a :: as) = a.text ++ if as = [] then [] else '.' :: dotted as := by
  cases as with
  | nil => simp [dotted]
  | cons b bs => simp [dotted]

theorem digit_of_mem {c : Char} (h : c ∈ Nat.toDigits 10 n) : c.isDigit = true :=
  Nat.isDigit_of_mem_toDigits (by decide) (by decide) h

theorem toDigits_injective (h : Nat.toDigits 10 m = Nat.toDigits 10 n) : m = n := by
  rw [← Nat.ofDigitChars_ten_toDigits (n := m), h, Nat.ofDigitChars_ten_toDigits]

theorem length_toDigits_mono (h : m ≤ n) : (Nat.toDigits 10 m).length ≤ (Nat.toDigits 10 n).length := by
  rw [Nat.length_toDigits_le_iff (by decide) Nat.length_toDigits_pos]
  exact lt_of_le_of_lt h
    ((Nat.length_toDigits_le_iff (by decide) Nat.length_toDigits_pos).mp le_rfl)

theorem toDigits_eq_digits (n : ℕ) : Nat.toDigits 10 n = digits (Nat.toDigits 10 n).length n := by
  induction n using Nat.strong_induction_on with
  | h n ih =>
    by_cases hsmall : n < 10
    · rw [Nat.toDigits_of_lt_base hsmall, List.length_singleton, digits, digits,
        Nat.mod_eq_of_lt hsmall]
      rfl
    · rw [Nat.toDigits_of_base_le (by decide) (by omega), List.length_append, List.length_singleton,
        digits, ← ih (n / 10) (by omega)]

/-- Numbers of one length are in the order of their texts. -/
theorem toDigits_lt_toDigits (h : m < n)
    (hlength : (Nat.toDigits 10 m).length = (Nat.toDigits 10 n).length) :
    Nat.toDigits 10 m < Nat.toDigits 10 n := by
  rw [toDigits_eq_digits m, toDigits_eq_digits n, hlength]
  exact digits_lt_digits h ((Nat.length_toDigits_le_iff (by decide) Nat.length_toDigits_pos).mp le_rfl)

namespace Identifier

theorem text_ne_nil (a : Identifier) : a.text ≠ [] := by
  cases a with
  | numeric n => exact Nat.toDigits_ne_nil
  | word cs chars nondigit =>
    obtain ⟨c, hc, -⟩ := nondigit
    exact List.ne_nil_of_mem hc

theorem text_chars {c : Char} (h : c ∈ a.text) : isWordChar c = true := by
  cases a with
  | numeric n => simp [isWordChar, Char.isAlphanum, digit_of_mem h]
  | word cs chars nondigit => exact chars c h

theorem numeric_ne_word {cs : List Char} (nondigit : ∃ c ∈ cs, c.isDigit = false) :
    Nat.toDigits 10 n ≠ cs := by
  intro heq
  obtain ⟨c, hc, hdigit⟩ := nondigit
  rw [digit_of_mem (heq ▸ hc)] at hdigit
  cases hdigit

theorem text_injective (h : a.text = b.text) : a = b := by
  cases a with
  | numeric m =>
    cases b with
    | numeric n => rw [toDigits_injective h]
    | word w _ nondigit => exact absurd h (numeric_ne_word nondigit)
  | word v _ nondigit =>
    cases b with
    | numeric n => exact absurd h.symm (numeric_ne_word nondigit)
    | word w _ _ =>
      have hvw : v = w := h
      subst hvw
      rfl

theorem lower_swap (h : a ≠ b) : b.Lower a ↔ ¬ a.Lower b := by
  cases a with
  | numeric m =>
    cases b with
    | numeric n =>
      have hne : m ≠ n := fun heq => h (by rw [heq])
      simp only [Lower]
      omega
    | word w _ _ => simp [Lower]
  | word v _ _ =>
    cases b with
    | numeric n => simp [Lower]
    | word w _ _ =>
      have hne : v ≠ w := fun heq => h (text_injective heq)
      simp only [Lower, not_lt]
      exact ⟨le_of_lt, fun hle => lt_of_le_of_ne hle hne.symm⟩

theorem fits_comm : a.Fits b ↔ b.Fits a := by
  cases a <;> cases b <;> simp only [Fits, and_comm]

theorem numeric_fits_iff (h : m < n) :
    (numeric m).Fits (numeric n) ↔ Nat.toDigits 10 m < Nat.toDigits 10 n := by
  have hle := length_toDigits_mono h.le
  constructor
  · rintro ⟨hshorter, -⟩
    rcases hle.lt_or_eq with hlt | heq
    · exact hshorter hlt
    · exact toDigits_lt_toDigits h heq
  · exact fun hlt => ⟨fun _ => hlt, fun hlonger => absurd hlonger (not_lt.mpr hle)⟩

/-- Alone, the identifiers are in the order of their texts exactly if they fit. -/
theorem fits_iff (h : a ≠ b) : a.Fits b ↔ (a.text < b.text ↔ a.Lower b) := by
  cases a with
  | numeric m =>
    cases b with
    | numeric n =>
      have hne : m ≠ n := fun heq => h (by rw [heq])
      have htexts : Nat.toDigits 10 n ≠ Nat.toDigits 10 m := fun heq => hne (toDigits_injective heq).symm
      simp only [text, Lower]
      rcases Nat.lt_or_gt_of_ne hne with hlt | hgt
      · rw [numeric_fits_iff hlt]
        simp [hlt]
      · rw [fits_comm, numeric_fits_iff hgt]
        have hnot : ¬ m < n := by omega
        simp only [hnot, iff_false, not_lt]
        exact ⟨le_of_lt, fun hle => lt_of_le_of_ne hle htexts⟩
    | word w _ _ => simp [Fits, text, Lower]
  | word v _ nondigit =>
    cases b with
    | numeric n =>
      have hne := numeric_ne_word (n := n) nondigit
      simp only [Fits, text, Lower, iff_false, not_lt]
      exact ⟨le_of_lt, fun hle => lt_of_le_of_ne hle hne⟩
    | word w _ _ => simp [Fits, text, Lower]

/-- A word that goes on with a hyphen is above what it goes on from. -/
theorem lower_of_broken (h : a.text ++ ['-'] <+: b.text) : a.Lower b := by
  cases b with
  | numeric n =>
    have hmem : '-' ∈ Nat.toDigits 10 n := h.subset (by simp)
    exact absurd (digit_of_mem hmem) (by decide)
  | word w _ _ =>
    cases a with
    | numeric m => trivial
    | word v _ _ =>
      obtain ⟨rest, hrest⟩ := h
      have hword : w = v ++ '-' :: rest := by simpa [text] using hrest.symm
      subst hword
      exact lt_append (by simp)

end Identifier

theorem dot_lt_iff {c : Char} (h : isWordChar c = true) : '.' < c ↔ c ≠ '-' := by
  by_cases hhyphen : c = '-'
  · subst hhyphen
    decide
  · have halnum : c.isAlphanum = true := by simpa [isWordChar, hhyphen] using h
    have hlt : '.' < c := by
      rw [Char.lt_def, UInt32.lt_iff_toNat_lt]
      simp only [Char.isAlphanum, Char.isAlpha, Char.isUpper, Char.isLower, Char.isDigit,
        Bool.or_eq_true, Bool.and_eq_true, decide_eq_true_eq, ge_iff_le, UInt32.le_iff_toNat_le] at halnum
      have hdot : '.'.val.toNat = 46 := rfl
      have hzero : '0'.val.toNat = 48 := rfl
      have hlower : 'a'.val.toNat = 97 := rfl
      have hupper : 'A'.val.toNat = 65 := rfl
      omega
    exact ⟨fun _ => hhyphen, fun _ => hlt⟩

/-- Where the text of `b` goes on from that of `a`, a dot or a hyphen decides. -/
theorem dotted_lt_of_leading (hne : a ≠ b) (h : a.text <+: b.text) :
    dotted (a :: as) < dotted (b :: bs) ↔ Unbroken a as b := by
  obtain ⟨more, hmore⟩ := h
  cases more with
  | nil =>
    rw [List.append_nil] at hmore
    exact absurd (Identifier.text_injective hmore) hne
  | cons c rest =>
    have hc : isWordChar c = true := b.text_chars (by rw [← hmore]; simp)
    have hbroken : a.text ++ ['-'] <+: b.text ↔ c = '-' := by
      rw [← hmore, List.prefix_append_right_inj]
      simp [List.cons_prefix_cons, eq_comm]
    rw [Unbroken, hbroken, dotted_cons, dotted_cons, ← hmore, List.append_assoc,
      append_lt_append_left_iff]
    by_cases has : as = []
    · simp [has]
    · rw [if_neg has, List.cons_append, List.cons_lt_cons_iff, dot_lt_iff hc]
      have hdot : c ≠ '.' := by
        rintro rfl
        exact absurd hc (by decide)
      simp [has, hdot.symm]

theorem unbroken_of_prefix (h : a.text <+: b.text) : Unbroken b bs a := by
  refine .inr fun hback => ?_
  have hlength := (hback.trans h).length_le
  simp only [List.length_append, List.length_singleton] at hlength
  omega

theorem agree_of_leading (hne : a ≠ b) (h : a.text <+: b.text) :
    (dotted (a :: as) < dotted (b :: bs) ↔ a.Lower b) ↔
      a.Fits b ∧ Unbroken a as b ∧ Unbroken b bs a := by
  have htext : a.text < b.text := by
    obtain ⟨more, hmore⟩ := h
    rw [← hmore]
    refine lt_append ?_
    rintro rfl
    rw [List.append_nil] at hmore
    exact hne (Identifier.text_injective hmore)
  have hfits : a.Fits b ↔ a.Lower b := by
    rw [Identifier.fits_iff hne]
    simp [htext]
  have hlower : ¬ Unbroken a as b → a.Lower b := by
    intro hbroken
    rw [Unbroken, not_or, not_not] at hbroken
    exact Identifier.lower_of_broken hbroken.2
  have hback : Unbroken b bs a := unbroken_of_prefix h
  rw [dotted_lt_of_leading hne h, hfits]
  constructor
  · intro hiff
    have hforth : Unbroken a as b := by
      by_contra hbroken
      exact hbroken (hiff.mpr (hlower hbroken))
    exact ⟨hiff.mp hforth, hforth, hback⟩
  · rintro ⟨hl, hforth, -⟩
    exact iff_of_true hforth hl

theorem takeWhile_dotted (a : Identifier) (as : List Identifier) :
    (dotted (a :: as)).takeWhile (fun c => decide (c ≠ '.')) = a.text := by
  have hnodot : ∀ c ∈ a.text, decide (c ≠ '.') = true := by
    intro c hc
    rw [decide_eq_true_eq]
    rintro rfl
    exact absurd (a.text_chars hc) (by decide)
  rw [dotted_cons, List.takeWhile_append_of_pos hnodot]
  split_ifs with has
  · simp
  · simp

theorem dotted_swap (hne : a ≠ b) : dotted (b :: bs) < dotted (a :: as) ↔
    ¬ dotted (a :: as) < dotted (b :: bs) := by
  have hdiffer : dotted (a :: as) ≠ dotted (b :: bs) := by
    intro heq
    apply hne
    apply Identifier.text_injective
    rw [← takeWhile_dotted a as, heq, takeWhile_dotted]
  rw [not_lt]
  exact ⟨le_of_lt, fun hle => lt_of_le_of_ne hle hdiffer.symm⟩

/-- Different first identifiers are in the order of the texts exactly if they fit and neither is
broken off. -/
theorem heads_agree (hne : a ≠ b) :
    (dotted (a :: as) < dotted (b :: bs) ↔ a.Lower b) ↔
      a.Fits b ∧ Unbroken a as b ∧ Unbroken b bs a := by
  by_cases hab : a.text <+: b.text
  · exact agree_of_leading hne hab
  by_cases hba : b.text <+: a.text
  · have hswapped := @agree_of_leading _ _ bs as hne.symm hba
    rw [dotted_swap hne, Identifier.lower_swap hne, not_iff_not, Identifier.fits_comm] at hswapped
    rw [hswapped, and_comm (a := Unbroken b bs a)]
  · have hforth : Unbroken a as b := .inr fun h => hab ((List.prefix_append _ _).trans h)
    have hback : Unbroken b bs a := .inr fun h => hba ((List.prefix_append _ _).trans h)
    rw [dotted_cons, dotted_cons, append_lt_append_iff hab hba, Identifier.fits_iff hne]
    simp [hforth, hback]

theorem lower_irrefl (a : Identifier) : ¬ a.Lower a := by
  cases a with
  | numeric n => exact lt_irrefl n
  | word w _ _ => exact lt_irrefl w

theorem nil_lt_dotted (a : Identifier) (as : List Identifier) : [] < dotted (a :: as) := by
  have hne : dotted (a :: as) ≠ [] := by
    rw [dotted_cons]
    exact List.append_ne_nil_of_left_ne_nil a.text_ne_nil _
  exact lt_append hne

theorem dotted_lt_self (a : Identifier) :
    dotted (a :: as) < dotted (a :: bs) ↔ dotted as < dotted bs := by
  rw [dotted_cons, dotted_cons, append_lt_append_left_iff]
  cases as with
  | nil =>
    cases bs with
    | nil => simp [dotted]
    | cons b bs => simp [dotted, nil_lt_dotted]
  | cons c cs =>
    cases bs with
    | nil => simp [dotted]
    | cons b bs => simp

/-- The texts of two pre-releases are in the order of their identifiers exactly if the pre-releases
are comparable. -/
theorem dotted_lt_iff (p q : List Identifier) :
    (dotted p < dotted q ↔ List.Lex Identifier.Lower p q) ↔ Comparable p q := by
  induction p generalizing q with
  | nil =>
    cases q with
    | nil => simp [dotted, Comparable]
    | cons b bs => simp [dotted, Comparable, nil_lt_dotted]
  | cons a as ih =>
    cases q with
    | nil => simp [dotted, Comparable]
    | cons b bs =>
      by_cases hab : a = b
      · subst hab
        rw [dotted_lt_self, List.cons_lex_cons_iff, or_iff_right (lower_irrefl a),
          and_iff_right rfl, ih]
        simp [Comparable]
      · have hlex : List.Lex Identifier.Lower (a :: as) (b :: bs) ↔ a.Lower b := by
          rw [List.cons_lex_cons_iff]
          simp [hab]
        rw [hlex, heads_agree hab]
        simp [Comparable, hab]

end UniversityHelper.SemVer
