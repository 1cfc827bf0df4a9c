import UniversityHelper.SemVer
import UniversityHelper.UpdateCheck

/-! When `is_newer` follows the precedence of Semantic Versioning. -/
namespace UniversityHelper.UpdateCheck
open SemVer (Identifier Version Spells PreLower Comparable)

variable {n : ℕ} {c : Char} {rest : List Char} {v w : Version}

theorem toNat_of_isDigit (h : c.isDigit = true) : 48 ≤ c.toNat ∧ c.toNat ≤ 57 := by
  simp only [Char.isDigit, Bool.and_eq_true, decide_eq_true_eq, ge_iff_le, UInt32.le_iff_toNat_le] at h
  exact h

theorem isDecimal_of_isDigit (h : c.isDigit = true) : isDecimal c = true := by
  have hbounds := toNat_of_isDigit h
  refine List.any_eq_true.mpr ⟨0x30, List.mem_cons_self, ?_⟩
  rw [decide_eq_true_eq]
  omega

theorem decimalValue_of_isDigit (h : c.isDigit = true) : decimalValue c = c.toNat - '0'.toNat := by
  have hbounds := toNat_of_isDigit h
  have hfind : decimalZeros.find? (fun z => decide (z ≤ c.toNat ∧ c.toNat ≤ z + 9)) = some 0x30 := by
    apply List.find?_cons_of_pos
    rw [decide_eq_true_eq]
    omega
  rw [decimalValue, hfind]
  rfl

theorem foldl_decimalValue {cs : List Char} (h : ∀ c ∈ cs, c.isDigit = true) (value : ℕ) :
    cs.foldl (fun value c => 10 * value + decimalValue c) value = Nat.ofDigitChars 10 cs value := by
  induction cs generalizing value with
  | nil => simp
  | cons c cs ih =>
    rw [List.foldl_cons, ih fun d hd => h d (List.mem_cons_of_mem c hd), Nat.ofDigitChars_cons,
      decimalValue_of_isDigit (h c List.mem_cons_self)]

theorem intOf_toDigits (n : ℕ) :
    intOf (Nat.toDigits 10 n) = if n < 10 ^ maxStrDigits then some n else none := by
  have hlength : (Nat.toDigits 10 n).length ≤ maxStrDigits ↔ n < 10 ^ maxStrDigits :=
    Nat.length_toDigits_le_iff (by decide) (by decide)
  rw [intOf, foldl_decimalValue fun c => SemVer.digit_of_mem, Nat.ofDigitChars_ten_toDigits]
  simp only [hlength]

/-- A number is read up to the character after its last digit. -/
theorem number_toDigits (h : ∀ c ∈ rest.head?, isDecimal c = false) :
    number (Nat.toDigits 10 n ++ rest) = some (Nat.toDigits 10 n, rest) := by
  have hdigits : ∀ c ∈ Nat.toDigits 10 n, isDecimal c = true :=
    fun c hc => isDecimal_of_isDigit (SemVer.digit_of_mem hc)
  have hstop : rest.takeWhile isDecimal = [] ∧ rest.dropWhile isDecimal = rest := by
    cases rest with
    | nil => exact ⟨rfl, rfl⟩
    | cons c rest =>
      have hc : ¬ isDecimal c = true := by simp [h c rfl]
      exact ⟨List.takeWhile_cons_of_neg hc, List.dropWhile_cons_of_neg hc⟩
  rw [number, List.takeWhile_append_of_pos hdigits, List.dropWhile_append_of_pos hdigits, hstop.1,
    hstop.2, List.append_nil, if_neg Nat.toDigits_ne_nil]

theorem isPreChar_dotted {ids : List Identifier} (h : c ∈ SemVer.dotted ids) : isPreChar c = true := by
  induction ids with
  | nil => cases h
  | cons a as ih =>
    rw [SemVer.dotted_cons] at h
    rcases List.mem_append.mp h with hword | hmore
    · have hchar := a.text_chars hword
      simp only [SemVer.isWordChar, Bool.or_eq_true] at hchar
      simp only [isPreChar, Bool.or_eq_true]
      exact hchar.imp_left .inl
    · split_ifs at hmore with has
      · cases hmore
      · rcases List.mem_cons.mp hmore with rfl | hrest
        · rfl
        · exact ih hrest

/-- What `_VERSION_RE` finds after the three numbers. -/
def preGroup (v : Version) : Option (List Char) :=
  if v.preRelease = [] then none else some (SemVer.dotted v.preRelease)

theorem suffix_text (v : Version) :
    suffix (if v.preRelease = [] then [] else '-' :: SemVer.dotted v.preRelease) = some (preGroup v) := by
  cases hpre : v.preRelease with
  | nil => simp [suffix, preGroup, hpre]
  | cons a as =>
    have hne : SemVer.dotted (a :: as) ≠ [] := (SemVer.nil_lt_dotted a as).ne'
    have hall : (SemVer.dotted (a :: as)).all isPreChar = true :=
      List.all_eq_true.mpr fun c hc => isPreChar_dotted hc
    simp [suffix, preGroup, hpre, hne, hall]

theorem number_text (v : Version) : ∃ rest, number v.text = some (Nat.toDigits 10 v.major, '.' :: rest) ∧
    ∃ rest', number rest = some (Nat.toDigits 10 v.minor, '.' :: rest') ∧
      number rest' = some (Nat.toDigits 10 v.patch,
        if v.preRelease = [] then [] else '-' :: SemVer.dotted v.preRelease) := by
  have hdot : isDecimal '.' = false := by decide
  have hhyphen : isDecimal '-' = false := by decide
  refine ⟨_, number_toDigits (by simpa using hdot), _, number_toDigits (by simpa using hdot),
    number_toDigits ?_⟩
  split_ifs
  · simp
  · simpa using hhyphen

theorem head_text (v : Version) : v.text.head? ≠ some 'v' := by
  intro hhead
  cases hdigits : Nat.toDigits 10 v.major with
  | nil => exact Nat.toDigits_ne_nil hdigits
  | cons d ds =>
    rw [Version.text, hdigits, List.cons_append, List.head?_cons, Option.some_inj] at hhead
    have hdigit : d.isDigit = true := SemVer.digit_of_mem (hdigits ▸ List.mem_cons_self)
    rw [hhead] at hdigit
    exact absurd hdigit (by decide)

def groupsOf (v : Version) : Groups :=
  ⟨Nat.toDigits 10 v.major, Nat.toDigits 10 v.minor, Nat.toDigits 10 v.patch, preGroup v⟩

theorem matchVersion_text (v : Version) :
    matchVersion v.text = some (groupsOf v) ∧ matchVersion ('v' :: v.text) = some (groupsOf v) := by
  obtain ⟨rest, hmajor, rest', hminor, hpatch⟩ := number_text v
  have hsuffix := suffix_text v
  constructor
  · simp [matchVersion, head_text v, hmajor, dot, hminor, hpatch, hsuffix, groupsOf]
  · simp [matchVersion, hmajor, dot, hminor, hpatch, hsuffix, groupsOf]

/-! ### The keys of two versions -/

/-- No number of the core has more digits than `int` takes. -/
def Convertible (v : Version) : Prop :=
  v.major < 10 ^ maxStrDigits ∧ v.minor < 10 ^ maxStrDigits ∧ v.patch < 10 ^ maxStrDigits

def keyOf (v : Version) : VersionKey :=
  ⟨v.major, v.minor, v.patch, if v.preRelease = [] then 1 else 0, SemVer.dotted v.preRelease⟩

theorem preGroup_getD (v : Version) : (preGroup v).getD [] = SemVer.dotted v.preRelease := by
  unfold preGroup
  split_ifs with hpre
  · rw [hpre]
    rfl
  · rfl

theorem dotted_eq_nil {ids : List Identifier} : SemVer.dotted ids = [] ↔ ids = [] := by
  constructor
  · intro h
    cases ids with
    | nil => rfl
    | cons a as => exact absurd h (SemVer.nil_lt_dotted a as).ne'
  · rintro rfl
    rfl

theorem versionKey_groupsOf (h : Convertible v) : versionKey (groupsOf v) = some (keyOf v) := by
  obtain ⟨hmajor, hminor, hpatch⟩ := h
  simp only [versionKey, groupsOf, intOf_toDigits, hmajor, hminor, hpatch, if_true, preGroup_getD,
    dotted_eq_nil, keyOf]
  rfl

theorem versionKey_raises (h : ¬ Convertible v) : versionKey (groupsOf v) = none := by
  simp only [versionKey, groupsOf, intOf_toDigits]
  by_cases hmajor : v.major < 10 ^ maxStrDigits
  · by_cases hminor : v.minor < 10 ^ maxStrDigits
    · have hpatch : ¬ v.patch < 10 ^ maxStrDigits := fun hpatch => h ⟨hmajor, hminor, hpatch⟩
      simp [hmajor, hminor, hpatch]
    · simp [hmajor, hminor]
  · simp [hmajor]

theorem isPreChar_of_digit (h : c ∈ Nat.toDigits 10 n) : isPreChar c = true := by
  simp [isPreChar, Char.isAlphanum, SemVer.digit_of_mem h]

theorem isPreChar_text (h : c ∈ v.text) : isPreChar c = true := by
  rw [Version.text, List.mem_append, List.mem_cons, List.mem_append, List.mem_cons,
    List.mem_append] at h
  rcases h with hmajor | rfl | hminor | rfl | hpatch | hpre
  · exact isPreChar_of_digit hmajor
  · rfl
  · exact isPreChar_of_digit hminor
  · rfl
  · exact isPreChar_of_digit hpatch
  · split_ifs at hpre
    · cases hpre
    · rcases List.mem_cons.mp hpre with rfl | hdotted
      · rfl
      · exact isPreChar_dotted hdotted

theorem isSpace_of_isPreChar (h : isPreChar c = true) : isSpace c = false := by
  apply isSpace_eq_false
  by_cases hdot : c = '.'
  · subst hdot
    decide
  by_cases hhyphen : c = '-'
  · subst hhyphen
    decide
  simp only [isPreChar, hdot, hhyphen, decide_false, Bool.or_false, Char.isAlphanum, Char.isAlpha,
    Char.isUpper, Char.isLower, Char.isDigit, Bool.or_eq_true, Bool.and_eq_true, decide_eq_true_eq,
    ge_iff_le, UInt32.le_iff_toNat_le] at h
  simp only [Char.toNat]
  have hzero : '0'.val.toNat = 48 := rfl
  have hnine : '9'.val.toNat = 57 := rfl
  have hlower : 'a'.val.toNat = 97 ∧ 'z'.val.toNat = 122 := ⟨rfl, rfl⟩
  have hupper : 'A'.val.toNat = 65 ∧ 'Z'.val.toNat = 90 := ⟨rfl, rfl⟩
  omega

theorem strip_spelled {text : String} (h : Spells v text) : strip text = text := by
  apply strip_eq_self
  intro c hc
  rcases h with hplain | hmarked
  · exact isSpace_of_isPreChar (isPreChar_text (hplain ▸ hc))
  · rw [hmarked] at hc
    rcases List.mem_cons.mp hc with rfl | hc
    · decide
    · exact isSpace_of_isPreChar (isPreChar_text hc)

theorem parseVersion_spelled {text : String} (h : Spells v text) :
    parseVersion (some text) = (versionKey (groupsOf v)).map some := by
  have hmatch : matchVersion (strip text).toList = some (groupsOf v) := by
    rw [strip_spelled h]
    rcases h with hplain | hmarked
    · rw [hplain]
      exact (matchVersion_text v).1
    · rw [hmarked]
      exact (matchVersion_text v).2
  simp only [parseVersion, Option.getD_some, hmatch]

/-! ### The order of the keys -/

theorem pre_lt_iff (p q : List Identifier) :
    ((if p = [] then 1 else 0) < (if q = [] then 1 else 0) ∨
        (if p = [] then 1 else 0) = (if q = [] then 1 else 0) ∧ SemVer.dotted p < SemVer.dotted q ↔ PreLower p q) ↔
      Comparable p q := by
  cases p with
  | nil =>
    cases q with
    | nil => simp [PreLower, Comparable]
    | cons b bs => simp [PreLower, Comparable]
  | cons a as =>
    cases q with
    | nil => simp [PreLower, Comparable]
    | cons b bs =>
      rw [← SemVer.dotted_lt_iff]
      simp [PreLower]

/-- The keys are in the order of the versions exactly if the pre-releases of one core are comparable. -/
theorem key_lt_iff (v w : Version) : ((keyOf v).lt (keyOf w) ↔ v.Lower w) ↔
    (v.core = w.core → Comparable v.preRelease w.preRelease) := by
  have hpre := pre_lt_iff v.preRelease w.preRelease
  by_cases hcore : v.core = w.core
  · have hparts : v.major = w.major ∧ v.minor = w.minor ∧ v.patch = w.patch := by
      simpa [Version.core] using hcore
    obtain ⟨hmajor, hminor, hpatch⟩ := hparts
    simp only [VersionKey.lt, keyOf, Version.Lower, hcore, hmajor, hminor, hpatch, lt_irrefl, true_and,
      false_or, forall_const]
    exact hpre
  · have hkey : (keyOf v).lt (keyOf w) ↔ v.core < w.core := by
      simp only [Version.core, Prod.Lex.toLex_lt_toLex, VersionKey.lt, keyOf]
      have hdiffer : ¬ (v.major = w.major ∧ v.minor = w.minor ∧ v.patch = w.patch) := by
        simpa [Version.core] using hcore
      tauto
    simp [hkey, Version.Lower, hcore]

/-- The answer is there, and it is whether `v` has higher precedence than `w`. -/
def FollowsPrecedence (v w : Version) (answer : Option Bool) : Prop :=
  ∃ newer, answer = some newer ∧ (newer = true ↔ w.Lower v)

theorem is_newer_follows_precedence {a b : String} (ha : Spells v a) (hb : Spells w b) :
    FollowsPrecedence v w (isNewer (some a) (some b)) ↔
      Convertible v ∧ Convertible w ∧ (w.core = v.core → Comparable w.preRelease v.preRelease) := by
  rw [isNewer, parseVersion_spelled ha, parseVersion_spelled hb, ← key_lt_iff]
  by_cases hv : Convertible v
  · by_cases hw : Convertible w
    · rw [versionKey_groupsOf hv, versionKey_groupsOf hw]
      simp [FollowsPrecedence, hv, hw]
    · rw [versionKey_raises hw]
      simp [FollowsPrecedence, hw]
  · rw [versionKey_raises hv]
    simp [FollowsPrecedence, hv]

/-- `1.0.0-rc.n`. -/
def releaseCandidate (n : ℕ) : Version :=
  ⟨1, 0, 0, [.word ['r', 'c'] (by simp [SemVer.isWordChar, Char.isAlphanum, Char.isAlpha, Char.isLower])
    ⟨'r', by simp, rfl⟩, .numeric n]⟩

theorem tenth_candidate_not_newer :
    Spells (releaseCandidate 10) "1.0.0-rc.10" ∧ Spells (releaseCandidate 9) "1.0.0-rc.9" ∧
      ¬ FollowsPrecedence (releaseCandidate 10) (releaseCandidate 9)
        (isNewer (some "1.0.0-rc.10") (some "1.0.0-rc.9")) := by
  have hanswer : isNewer (some "1.0.0-rc.10") (some "1.0.0-rc.9") = some false := by rfl
  refine ⟨.inl (by decide), .inl (by decide), ?_⟩
  rintro ⟨newer, hnewer, hprecedence⟩
  have hlower : (releaseCandidate 9).Lower (releaseCandidate 10) := by
    refine .inr ⟨rfl, by simp [releaseCandidate], .inr ?_⟩
    exact .cons (.rel (by simp [Identifier.Lower]))
  have htrue := hprecedence.mpr hlower
  rw [hanswer] at hnewer
  cases hnewer
  cases htrue

theorem is_newer_follows_precedence_ninth :
    FollowsPrecedence (releaseCandidate 9) (releaseCandidate 8)
      (isNewer (some "1.0.0-rc.9") (some "v1.0.0-rc.8")) := by
  have hconvertible : ∀ n, Convertible (releaseCandidate n) := fun n =>
    ⟨Nat.one_lt_pow (by decide) (by decide), Nat.pow_pos (by decide), Nat.pow_pos (by decide)⟩
  refine (is_newer_follows_precedence (.inl (by decide)) (.inr (by decide))).mpr
    ⟨hconvertible 9, hconvertible 8, fun _ => ?_⟩
  refine .inl ⟨rfl, .inr ⟨by simp, ⟨?_, ?_⟩, .inl rfl, .inl rfl⟩⟩
  · exact fun h => absurd h (by decide)
  · exact fun h => absurd h (by decide)

end UniversityHelper.UpdateCheck
