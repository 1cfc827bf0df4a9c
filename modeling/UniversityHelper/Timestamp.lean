import UniversityHelper.FixedWidth

/-! The aware datetimes of Python as the storage adapters handle them: `isoformat`, the instant a
datetime denotes, and how the order of the printed texts relates to the order of the instants. -/
namespace UniversityHelper

def isLeap (year : ℕ) : Bool := year % 4 = 0 ∧ (year % 100 ≠ 0 ∨ year % 400 = 0)

def daysInMonth (year month : ℕ) : ℕ :=
  if month = 2 then if isLeap year then 29 else 28
  else if month = 4 ∨ month = 6 ∨ month = 9 ∨ month = 11 then 30 else 31

def daysBeforeYear (year : ℕ) : ℕ :=
  (year - 1) * 365 + (year - 1) / 4 - (year - 1) / 100 + (year - 1) / 400

/-- The days of the months from January to the one before `month`. -/
def daysBeforeMonth (year month : ℕ) : ℕ :=
  ((List.range (month - 1)).map fun m => daysInMonth year (m + 1)).sum

/-- A naive datetime. -/
structure Clock where
  year : ℕ
  month : ℕ
  day : ℕ
  hour : ℕ
  minute : ℕ
  second : ℕ
  microsecond : ℕ
  year_range : 1 ≤ year ∧ year ≤ 9999
  month_range : 1 ≤ month ∧ month ≤ 12
  day_range : 1 ≤ day ∧ day ≤ daysInMonth year month
  hour_lt : hour < 24
  minute_lt : minute < 60
  second_lt : second < 60
  microsecond_lt : microsecond < 10 ^ 6

namespace Clock
variable (c : Clock)

def toOrdinal : ℕ := daysBeforeYear c.year + daysBeforeMonth c.year c.month + c.day

/-- The second of the day. -/
def daySecond : ℕ := (c.hour * 60 + c.minute) * 60 + c.second

/-- The microseconds of the clock from the start of the calendar. -/
def micros : ℕ := (c.toOrdinal * 86400 + c.daySecond) * 10 ^ 6 + c.microsecond

end Clock

/-- The microseconds of a UTC offset: `timedelta`s of less than a day. -/
def Offset := {micros : ℤ // micros.natAbs < 86400 * 10 ^ 6}

def UTC : Offset := ⟨0, by decide⟩

/-- A `datetime` with a `tzinfo`. -/
structure DateTime where
  clock : Clock
  offset : Offset

/-- `.ffffff`, left out for a whole second. -/
def fractionText (microsecond : ℕ) : List Char :=
  if microsecond = 0 then [] else '.' :: digits 6 microsecond

/-- The text of an offset after its sign: `HH:MM[:SS[.ffffff]]`. -/
def offsetDigits (micros : ℕ) : List Char :=
  digits 2 (micros / (3600 * 10 ^ 6)) ++ ':' :: (digits 2 (micros / (60 * 10 ^ 6) % 60) ++
    if micros % (60 * 10 ^ 6) = 0 then []
    else ':' :: (digits 2 (micros / 10 ^ 6 % 60) ++ fractionText (micros % 10 ^ 6)))

def Offset.text (offset : Offset) : List Char :=
  (if offset.1 < 0 then '-' else '+') :: offsetDigits offset.1.natAbs

def Clock.dateText (c : Clock) : List Char :=
  digits 4 c.year ++ '-' :: (digits 2 c.month ++ '-' :: digits 2 c.day)

def Clock.timeText (c : Clock) : List Char :=
  digits 2 c.hour ++ ':' :: (digits 2 c.minute ++ ':' :: digits 2 c.second)

/-- `value.isoformat()`. -/
def DateTime.isoformat (d : DateTime) : List Char :=
  d.clock.dateText ++ 'T' :: (d.clock.timeText ++ (fractionText d.clock.microsecond ++ d.offset.text))

/-- The instant, as the microseconds of the UTC clock. -/
def DateTime.instant (d : DateTime) : ℤ := d.clock.micros - d.offset.1

/-- The instants of the years 1 to 9999, in microseconds of the UTC clock. -/
def FirstInstant : ℤ := 86400 * 10 ^ 6
def LastInstant : ℤ := 3652060 * 86400 * 10 ^ 6

/-- Whether `astimezone(UTC)` has a datetime to return. -/
def DateTime.InRange (d : DateTime) : Prop := FirstInstant ≤ d.instant ∧ d.instant < LastInstant

instance (d : DateTime) : Decidable d.InRange := inferInstanceAs (Decidable (_ ∧ _))

/-! ### The calendar -/

theorem daysInMonth_le (year month : ℕ) : daysInMonth year month ≤ 31 := by
  unfold daysInMonth
  split_ifs <;> omega

theorem daysBeforeMonth_succ {year month : ℕ} (h : 1 ≤ month) :
    daysBeforeMonth year (month + 1) = daysBeforeMonth year month + daysInMonth year month := by
  obtain ⟨m, rfl⟩ : ∃ m, month = m + 1 := ⟨month - 1, by omega⟩
  simp only [daysBeforeMonth, Nat.add_sub_cancel, List.range_succ, List.map_append, List.sum_append,
    List.map_cons, List.map_nil, List.sum_cons, List.sum_nil, Nat.add_zero]

theorem daysBeforeMonth_mono {year month month' : ℕ} (h : 1 ≤ month) (hle : month ≤ month') :
    daysBeforeMonth year month ≤ daysBeforeMonth year month' := by
  induction month', hle using Nat.le_induction with
  | base => exact le_rfl
  | succ m hm ih =>
    rw [daysBeforeMonth_succ (h.trans hm)]
    omega

theorem yearDays (year : ℕ) : daysBeforeMonth year 13 = if isLeap year then 366 else 365 := by
  have hmonths : List.range (13 - 1) = [0, 1, 2, 3, 4, 5, 6, 7, 8, 9, 10, 11] := rfl
  rw [daysBeforeMonth, hmonths]
  cases hleap : isLeap year <;> simp [daysInMonth, hleap]

theorem div_succ_eq (k n : ℕ) :
    (k + 1) / n = k / n + if (k + 1) % n = 0 then 1 else 0 := by
  rw [Nat.succ_div]
  simp only [Nat.dvd_iff_mod_eq_zero]

theorem daysBeforeYear_succ {year : ℕ} (h : 1 ≤ year) :
    daysBeforeYear (year + 1) = daysBeforeYear year + daysBeforeMonth year 13 := by
  obtain ⟨k, rfl⟩ : ∃ k, year = k + 1 := ⟨year - 1, by omega⟩
  have hcenturies : k / 100 ≤ k / 4 := Nat.div_le_div_left (by omega) (by omega)
  have hfour : (k + 1) % 100 = 0 → (k + 1) % 4 = 0 := by omega
  have hhundred : (k + 1) % 400 = 0 → (k + 1) % 100 = 0 := by omega
  simp only [yearDays, daysBeforeYear, isLeap, Nat.add_sub_cancel, decide_eq_true_eq, div_succ_eq]
  generalize k / 4 = quarters, k / 100 = centuries, k / 400 = cycles at hcenturies ⊢
  generalize (k + 1) % 4 = r, (k + 1) % 100 = s, (k + 1) % 400 = t at hfour hhundred ⊢
  split_ifs <;> omega

theorem daysBeforeYear_mono {year year' : ℕ} (h : 1 ≤ year) (hle : year ≤ year') :
    daysBeforeYear year ≤ daysBeforeYear year' := by
  induction year', hle using Nat.le_induction with
  | base => exact le_rfl
  | succ y hy ih =>
    rw [daysBeforeYear_succ (h.trans hy)]
    omega

namespace Clock
variable {c c' : Clock}

theorem toOrdinal_le_month : c.toOrdinal ≤ daysBeforeYear c.year + daysBeforeMonth c.year (c.month + 1) := by
  rw [daysBeforeMonth_succ c.month_range.1, toOrdinal]
  have := c.day_range.2
  omega

theorem toOrdinal_lt_year (h : c.year < c'.year) : c.toOrdinal < c'.toOrdinal := by
  have hmonth : daysBeforeMonth c.year (c.month + 1) ≤ daysBeforeMonth c.year 13 :=
    daysBeforeMonth_mono (by omega) (by have := c.month_range.2; omega)
  have hyear : daysBeforeYear (c.year + 1) ≤ daysBeforeYear c'.year :=
    daysBeforeYear_mono (by omega) h
  rw [daysBeforeYear_succ c.year_range.1] at hyear
  have hle := c.toOrdinal_le_month
  have hday := c'.day_range.1
  rw [toOrdinal] at hle ⊢
  rw [toOrdinal]
  omega

theorem toOrdinal_lt_month (hyear : c.year = c'.year) (h : c.month < c'.month) :
    c.toOrdinal < c'.toOrdinal := by
  have hmonth : daysBeforeMonth c.year (c.month + 1) ≤ daysBeforeMonth c.year c'.month :=
    daysBeforeMonth_mono (by omega) h
  have hle := c.toOrdinal_le_month
  have hday := c'.day_range.1
  rw [toOrdinal] at hle ⊢
  rw [toOrdinal, ← hyear]
  omega

theorem date_cases (h : c.toOrdinal < c'.toOrdinal) :
    c.year < c'.year ∨ c.year = c'.year ∧
      (c.month < c'.month ∨ c.month = c'.month ∧ c.day < c'.day) := by
  rcases lt_trichotomy c.year c'.year with hyear | hyear | hyear
  · exact .inl hyear
  · rcases lt_trichotomy c.month c'.month with hmonth | hmonth | hmonth
    · exact .inr ⟨hyear, .inl hmonth⟩
    · rcases Nat.lt_or_ge c.day c'.day with hday | hday
      · exact .inr ⟨hyear, .inr ⟨hmonth, hday⟩⟩
      · rw [toOrdinal, toOrdinal, hyear, hmonth] at h
        omega
    · exact absurd (toOrdinal_lt_month hyear.symm hmonth) h.asymm
  · exact absurd (toOrdinal_lt_year hyear) h.asymm

theorem date_eq (h : c.toOrdinal = c'.toOrdinal) :
    c.year = c'.year ∧ c.month = c'.month ∧ c.day = c'.day := by
  rcases lt_trichotomy c.year c'.year with hyear | hyear | hyear
  · exact absurd h (toOrdinal_lt_year hyear).ne
  · rcases lt_trichotomy c.month c'.month with hmonth | hmonth | hmonth
    · exact absurd h (toOrdinal_lt_month hyear hmonth).ne
    · refine ⟨hyear, hmonth, ?_⟩
      rw [toOrdinal, toOrdinal, hyear, hmonth] at h
      omega
    · exact absurd h.symm (toOrdinal_lt_month hyear.symm hmonth).ne
  · exact absurd h.symm (toOrdinal_lt_year hyear).ne

/-! ### The printed clock -/

theorem day_lt (c : Clock) : c.day < 10 ^ 2 := by
  have hday := c.day_range.2
  have hmonth := daysInMonth_le c.year c.month
  omega

@[simp] theorem length_dateText : c.dateText.length = 10 := by simp [dateText]

@[simp] theorem length_timeText : c.timeText.length = 8 := by simp [timeText]

theorem dateText_lt (h : c.toOrdinal < c'.toOrdinal) : c.dateText < c'.dateText := by
  have hyears := c'.year_range.2
  have hmonths := c'.month_range.2
  rcases date_cases h with hyear | ⟨hyear, hmonth | ⟨hmonth, hday⟩⟩
  · exact append_lt_append (by simp) (digits_lt_digits hyear (by omega))
  · rw [dateText, dateText, hyear]
    apply List.append_left_lt
    apply cons_lt_cons_of_tail
    exact append_lt_append (by simp) (digits_lt_digits hmonth (by omega))
  · rw [dateText, dateText, hyear, hmonth]
    apply List.append_left_lt
    apply cons_lt_cons_of_tail
    apply List.append_left_lt
    apply cons_lt_cons_of_tail
    exact digits_lt_digits hday c'.day_lt

theorem dateText_congr (h : c.toOrdinal = c'.toOrdinal) : c.dateText = c'.dateText := by
  obtain ⟨hyear, hmonth, hday⟩ := date_eq h
  rw [dateText, dateText, hyear, hmonth, hday]

theorem time_eq (h : c.daySecond = c'.daySecond) :
    c.hour = c'.hour ∧ c.minute = c'.minute ∧ c.second = c'.second := by
  have hm := c.minute_lt
  have hm' := c'.minute_lt
  have hs := c.second_lt
  have hs' := c'.second_lt
  unfold daySecond at h
  omega

theorem time_cases (h : c.daySecond < c'.daySecond) :
    c.hour < c'.hour ∨ c.hour = c'.hour ∧
      (c.minute < c'.minute ∨ c.minute = c'.minute ∧ c.second < c'.second) := by
  have hm := c.minute_lt
  have hm' := c'.minute_lt
  have hs := c.second_lt
  have hs' := c'.second_lt
  unfold daySecond at h
  omega

theorem timeText_lt (h : c.daySecond < c'.daySecond) : c.timeText < c'.timeText := by
  have hhours := c'.hour_lt
  have hminutes := c'.minute_lt
  have hseconds := c'.second_lt
  rcases time_cases h with hhour | ⟨hhour, hminute | ⟨hminute, hsecond⟩⟩
  · exact append_lt_append (by simp) (digits_lt_digits hhour (by omega))
  · rw [timeText, timeText, hhour]
    apply List.append_left_lt
    apply cons_lt_cons_of_tail
    exact append_lt_append (by simp) (digits_lt_digits hminute (by omega))
  · rw [timeText, timeText, hhour, hminute]
    apply List.append_left_lt
    apply cons_lt_cons_of_tail
    apply List.append_left_lt
    apply cons_lt_cons_of_tail
    exact digits_lt_digits hsecond (by omega)

theorem timeText_congr (h : c.daySecond = c'.daySecond) : c.timeText = c'.timeText := by
  obtain ⟨hhour, hminute, hsecond⟩ := time_eq h
  rw [timeText, timeText, hhour, hminute, hsecond]

theorem daySecond_lt (c : Clock) : c.daySecond < 86400 := by
  have hh := c.hour_lt
  have hm := c.minute_lt
  have hs := c.second_lt
  unfold daySecond
  omega

theorem micros_cases (h : c.micros < c'.micros) :
    c.toOrdinal < c'.toOrdinal ∨ c.toOrdinal = c'.toOrdinal ∧
      (c.daySecond < c'.daySecond ∨ c.daySecond = c'.daySecond ∧ c.microsecond < c'.microsecond) := by
  have hd := c.daySecond_lt
  have hd' := c'.daySecond_lt
  have hu := c.microsecond_lt
  have hu' := c'.microsecond_lt
  unfold micros at h
  omega

theorem micros_eq (h : c.micros = c'.micros) :
    c.toOrdinal = c'.toOrdinal ∧ c.daySecond = c'.daySecond ∧ c.microsecond = c'.microsecond := by
  have hd := c.daySecond_lt
  have hd' := c'.daySecond_lt
  have hu := c.microsecond_lt
  have hu' := c'.microsecond_lt
  unfold micros at h
  omega

end Clock

/-! ### The printed offset -/

theorem fractionText_lt {m n : ℕ} (h : m < n) (hn : n < 10 ^ 6) : fractionText m < fractionText n := by
  rw [fractionText, fractionText, if_neg (by omega : n ≠ 0)]
  split_ifs with hm
  · exact List.nil_lt_cons _ _
  · exact cons_lt_cons_of_tail (digits_lt_digits h hn)

/-- A larger offset of the same sign prints as a larger text. -/
theorem offsetDigits_lt {m n : ℕ} (h : m < n) (hn : n < 86400 * 10 ^ 6) :
    offsetDigits m < offsetDigits n := by
  have hhours : m / (3600 * 10 ^ 6) ≤ n / (3600 * 10 ^ 6) := Nat.div_le_div_right h.le
  rcases hhours.lt_or_eq with hhour | hhour
  · exact append_lt_append (by simp) (digits_lt_digits hhour (by omega))
  rw [offsetDigits, offsetDigits, hhour]
  apply List.append_left_lt
  apply cons_lt_cons_of_tail
  rcases Nat.lt_or_ge (m / (60 * 10 ^ 6) % 60) (n / (60 * 10 ^ 6) % 60) with hminute | hminute
  · exact append_lt_append (by simp) (digits_lt_digits hminute (by omega))
  have hminutes : m / (60 * 10 ^ 6) = n / (60 * 10 ^ 6) := by omega
  rw [hminutes]
  apply List.append_left_lt
  have hrest : m % (60 * 10 ^ 6) < n % (60 * 10 ^ 6) := by omega
  rw [if_neg (by omega : n % (60 * 10 ^ 6) ≠ 0)]
  split_ifs with hm
  · exact List.nil_lt_cons _ _
  apply cons_lt_cons_of_tail
  rcases Nat.lt_or_ge (m / 10 ^ 6 % 60) (n / 10 ^ 6 % 60) with hsecond | hsecond
  · exact append_lt_append (by simp) (digits_lt_digits hsecond (by omega))
  have hseconds : m / 10 ^ 6 % 60 = n / 10 ^ 6 % 60 := by omega
  rw [hseconds]
  apply List.append_left_lt
  exact fractionText_lt (by omega) (by omega)

/-- The place of an offset in the order of the texts: `+` stands before `-`. -/
def Offset.rank (offset : Offset) : ℕ :=
  if offset.1 < 0 then 86400 * 10 ^ 6 + offset.1.natAbs else offset.1.natAbs

theorem Offset.text_lt {o o' : Offset} (h : o.rank < o'.rank) : o.text < o'.text := by
  have ho := o.2
  have ho' := o'.2
  unfold Offset.rank at h
  rw [Offset.text, Offset.text]
  split_ifs at h ⊢ with hneg hneg' hneg'
  · exact cons_lt_cons_of_tail (offsetDigits_lt (by omega) ho')
  · omega
  · exact cons_lt_cons_of_lt (by decide)
  · exact cons_lt_cons_of_tail (offsetDigits_lt h ho')

theorem Offset.eq_of_rank_eq {o o' : Offset} (h : o.rank = o'.rank) : o = o' := by
  have ho := o.2
  have ho' := o'.2
  unfold Offset.rank at h
  apply Subtype.ext
  split_ifs at h <;> omega

/-- A clock with a fraction prints above one without: `.` stands after both signs. -/
theorem fraction_offset_lt {m n : ℕ} {o o' : Offset} (h : m < n) (hn : n < 10 ^ 6) :
    fractionText m ++ o.text < fractionText n ++ o'.text := by
  rcases Nat.eq_zero_or_pos m with rfl | hm
  · rw [fractionText, fractionText, if_pos rfl, if_neg (by omega : n ≠ 0), List.nil_append, Offset.text]
    apply cons_lt_cons_of_lt
    split_ifs <;> decide
  · apply append_lt_append _ (fractionText_lt h hn)
    rw [fractionText, fractionText, if_neg (by omega : m ≠ 0), if_neg (by omega : n ≠ 0)]
    simp

namespace DateTime
variable {a b : DateTime}

/-! ### The order of the texts -/

/-- The text of `a` stands before the one of `b`: its clock is earlier, or its offset ranks
lower. -/
def Before (a b : DateTime) : Prop :=
  a.clock.micros < b.clock.micros ∨ a.clock.micros = b.clock.micros ∧ a.offset.rank < b.offset.rank

theorem isoformat_lt (h : Before a b) : a.isoformat < b.isoformat := by
  rcases h with h | ⟨h, hrank⟩
  · rcases Clock.micros_cases h with hdate | ⟨hdate, htime | ⟨htime, hmicro⟩⟩
    · exact append_lt_append (by simp) (Clock.dateText_lt hdate)
    · rw [isoformat, isoformat, Clock.dateText_congr hdate]
      apply List.append_left_lt
      apply cons_lt_cons_of_tail
      exact append_lt_append (by simp) (Clock.timeText_lt htime)
    · rw [isoformat, isoformat, Clock.dateText_congr hdate, Clock.timeText_congr htime]
      apply List.append_left_lt
      apply cons_lt_cons_of_tail
      apply List.append_left_lt
      exact fraction_offset_lt hmicro b.clock.microsecond_lt
  · obtain ⟨hdate, htime, hmicro⟩ := Clock.micros_eq h
    rw [isoformat, isoformat, Clock.dateText_congr hdate, Clock.timeText_congr htime, hmicro]
    apply List.append_left_lt
    apply cons_lt_cons_of_tail
    apply List.append_left_lt
    apply List.append_left_lt
    exact Offset.text_lt hrank

theorem isoformat_lt_iff : a.isoformat < b.isoformat ↔ Before a b := by
  constructor
  · intro hlt
    by_contra hnot
    simp only [Before, not_or, not_and, not_lt] at hnot
    rcases hnot.1.lt_or_eq with hclock | hclock
    · exact hlt.asymm (isoformat_lt (.inl hclock))
    · rcases (hnot.2 hclock.symm).lt_or_eq with hrank | hrank
      · exact hlt.asymm (isoformat_lt (.inr ⟨hclock, hrank⟩))
      · obtain ⟨hdate, htime, hmicro⟩ := Clock.micros_eq hclock
        rw [isoformat, isoformat, Clock.dateText_congr hdate, Clock.timeText_congr htime, hmicro,
          Offset.eq_of_rank_eq hrank] at hlt
        exact lt_irrefl _ hlt
  · exact isoformat_lt

/-- The clocks of two datetimes stand in the order of their instants; of two equal clocks at most
one has an offset to the east, or the offsets are equal. -/
def Agrees (a b : DateTime) : Prop :=
  (a.clock.micros < b.clock.micros → a.instant ≤ b.instant) ∧
  (b.clock.micros < a.clock.micros → b.instant ≤ a.instant) ∧
  (a.clock.micros = b.clock.micros → 0 ≤ a.offset.1 → 0 ≤ b.offset.1 → a.offset.1 = b.offset.1)

instance (a b : DateTime) : Decidable (Agrees a b) := inferInstanceAs (Decidable (_ ∧ _ ∧ _))

theorem Agrees.symm (h : Agrees a b) : Agrees b a :=
  ⟨h.2.1, h.1, fun hclock hb ha => (h.2.2 hclock.symm ha hb).symm⟩

theorem agrees_of_offset_eq (h : a.offset = b.offset) : Agrees a b := by
  unfold Agrees instant
  rw [h]
  omega

theorem Agrees.instant_le (h : Agrees a b) (hle : a.isoformat ≤ b.isoformat) :
    a.instant ≤ b.instant := by
  have hnot : ¬ Before b a := fun hlt => not_lt.mpr hle (isoformat_lt hlt)
  obtain ⟨hclock, -, hequal⟩ := h
  unfold Before Offset.rank at hnot
  unfold instant at *
  have ha := a.offset.2
  have hb := b.offset.2
  split_ifs at hnot <;> omega

/-- The agreeing pairs are the ones whose texts never stand against their instants. -/
theorem agrees_iff : Agrees a b ↔ (a.isoformat < b.isoformat → a.instant ≤ b.instant) ∧
    (b.isoformat < a.isoformat → b.instant ≤ a.instant) := by
  constructor
  · intro h
    exact ⟨fun hlt => h.instant_le hlt.le, fun hlt => h.symm.instant_le hlt.le⟩
  · intro h
    rw [isoformat_lt_iff, isoformat_lt_iff] at h
    unfold Before Offset.rank instant at h
    unfold Agrees instant
    have ha := a.offset.2
    have hb := b.offset.2
    split_ifs at h <;> omega

end DateTime
end UniversityHelper
