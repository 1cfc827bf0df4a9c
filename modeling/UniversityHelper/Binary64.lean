import Mathlib

/-! Rounding of the 64-bit binary floating-point format to the nearest value, ties to even. A number of
the format is written as the rational number it is; numbers beyond its largest one are kept. -/
namespace UniversityHelper.Binary64

def roundHalfEven (x : ℚ) : ℤ :=
  let rest := x - ⌊x⌋
  if rest < 1 / 2 ∨ (rest = 1 / 2 ∧ ⌊x⌋ % 2 = 0) then ⌊x⌋ else ⌊x⌋ + 1

/-- The exponent of the last of the 53 bits of `x`; no number has a bit below `2 ^ -1074`. -/
def lastExponent (x : ℚ) : ℤ := max (Int.log 2 |x| - 52) (-1074)

/-- The number of the format nearest to `x`. -/
def nearest (x : ℚ) : ℚ := roundHalfEven (x / 2 ^ lastExponent x) * 2 ^ lastExponent x

/-- The number of the format nearest to `x` rounded to this many decimal digits. -/
def roundDigits (digits : ℕ) (x : ℚ) : ℚ := nearest (roundHalfEven (x * 10 ^ digits) / 10 ^ digits)

theorem roundHalfEven_intCast (n : ℤ) : roundHalfEven n = n := by simp [roundHalfEven]

@[simp] theorem nearest_zero : nearest 0 = 0 := by
  have hround : roundHalfEven 0 = 0 := roundHalfEven_intCast 0
  rw [nearest, zero_div, hround, Int.cast_zero, zero_mul]

@[simp] theorem roundDigits_zero (digits : ℕ) : roundDigits digits 0 = 0 := by
  have hround : roundHalfEven 0 = 0 := roundHalfEven_intCast 0
  rw [roundDigits, zero_mul, hround, Int.cast_zero, zero_div, nearest_zero]

example : nearest (1 / 10) = 3602879701896397 / 36028797018963968 := by decide +kernel

end UniversityHelper.Binary64
