import UniversityHelper.PythonText

/-! `update_check`: the sort key of a version text, and the comparison of two versions. -/
namespace UniversityHelper.UpdateCheck

/-- The groups of `_VERSION_RE`. -/
structure Groups where
  major : List Char
  minor : List Char
  patch : List Char
  pre : Option (List Char)
  deriving DecidableEq, Repr

/-- `(\d+)`. -/
def number (cs : List Char) : Option (List Char × List Char) :=
  if cs.takeWhile isDecimal = [] then none
  else some (cs.takeWhile isDecimal, cs.dropWhile isDecimal)

/-- `\.`. -/
def dot : List Char → Option (List Char)
  | c :: cs => if c = '.' then some cs else none
  | [] => none

/-- `[0-9A-Za-z.-]`. -/
def isPreChar (c : Char) : Bool := c.isAlphanum || c = '.' || c = '-'

/-- `(?:[-.]?([0-9A-Za-z.-]+))?$`: the separator is given back where nothing follows it. -/
def suffix : List Char → Option (Option (List Char))
  | [] => some none
  | c :: cs =>
    if (c = '-' ∨ c = '.') ∧ cs ≠ [] ∧ cs.all isPreChar = true then some (some cs)
    else if (c :: cs).all isPreChar = true then some (some (c :: cs))
    else none

/-- `_VERSION_RE.match`, on a stripped text: no other way to divide the text up matches where the
longest runs of digits do not. -/
def matchVersion (cs : List Char) : Option Groups := do
  let (major, rest) ← number (if cs.head? = some 'v' then cs.tail else cs)
  let (minor, rest) ← number (← dot rest)
  let (patch, rest) ← number (← dot rest)
  return ⟨major, minor, patch, ← suffix rest⟩

def decimalValue (c : Char) : ℕ :=
  match decimalZeros.find? fun z => z ≤ c.toNat ∧ c.toNat ≤ z + 9 with
  | some z => c.toNat - z
  | none => 0

/-- `sys.int_info.default_max_str_digits`. -/
def maxStrDigits : ℕ := 4300

/-- `int(digits)`; `none` where it raises. -/
def intOf (digits : List Char) : Option ℕ :=
  if digits.length ≤ maxStrDigits then
    some (digits.foldl (fun value c => 10 * value + decimalValue c) 0)
  else none

structure VersionKey where
  major : ℕ
  minor : ℕ
  patch : ℕ
  release : ℕ
  pre : List Char
  deriving DecidableEq, Repr

/-- The order of the tuples. -/
def VersionKey.lt (a b : VersionKey) : Prop :=
  a.major < b.major ∨ a.major = b.major ∧
    (a.minor < b.minor ∨ a.minor = b.minor ∧
      (a.patch < b.patch ∨ a.patch = b.patch ∧
        (a.release < b.release ∨ a.release = b.release ∧ a.pre < b.pre)))

instance (a b : VersionKey) : Decidable (a.lt b) := by
  unfold VersionKey.lt
  infer_instance

def versionKey (groups : Groups) : Option VersionKey := do
  let major ← intOf groups.major
  let minor ← intOf groups.minor
  let patch ← intOf groups.patch
  return ⟨major, minor, patch, if groups.pre.getD [] = [] then 1 else 0, groups.pre.getD []⟩

/-- `parse_version`: `none` where `int` raises, `some none` where it returns `None`. -/
def parseVersion (value : Option String) : Option (Option VersionKey) :=
  match matchVersion (strip (value.getD "")).toList with
  | none => some none
  | some groups => (versionKey groups).map some

/-- `is_newer`; `none` where it raises. -/
def isNewer (candidate current : Option String) : Option Bool := do
  let new ← parseVersion candidate
  let cur ← parseVersion current
  match new, cur with
  | some new, some cur => return decide (cur.lt new)
  | _, _ => return false

end UniversityHelper.UpdateCheck
