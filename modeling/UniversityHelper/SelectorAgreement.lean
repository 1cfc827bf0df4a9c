import UniversityHelper.CourseDict

/-! The selector of a course means this course to every service that is given it. -/
namespace UniversityHelper.CourseDict
open LearningWorker (parseCourseSelector selectCourses chapterLimitFor)

/-- A character that no parser of selectors divides at or takes away. -/
def Plain (c : Char) : Prop :=
  isSpace c = false ∧ JavaScript.isSpace c = false ∧ c ≠ '_' ∧ c ≠ ':' ∧ c ≠ '&'

def PlainText (text : String) : Prop := ∀ c ∈ text.toList, Plain c

theorem plain_of_isAlphanum {c : Char} (h : c.isAlphanum = true) : Plain c := by
  have hbounds : 48 ≤ c.toNat ∧ c.toNat ≤ 122 ∧ c.toNat ≠ 95 ∧ c.toNat ≠ 58 := by
    simp only [Char.isAlphanum, Char.isAlpha, Char.isUpper, Char.isLower, Char.isDigit,
      Bool.or_eq_true, Bool.and_eq_true, decide_eq_true_eq, ge_iff_le, UInt32.le_iff_toNat_le] at h
    have hzero : '0'.val.toNat = 48 ∧ '9'.val.toNat = 57 := ⟨rfl, rfl⟩
    have hlower : 'a'.val.toNat = 97 ∧ 'z'.val.toNat = 122 := ⟨rfl, rfl⟩
    have hupper : 'A'.val.toNat = 65 ∧ 'Z'.val.toNat = 90 := ⟨rfl, rfl⟩
    simp only [Char.toNat]
    omega
  refine ⟨isSpace_eq_false (by omega), ?_, ?_, ?_, ?_⟩
  · simp only [JavaScript.isSpace, decide_eq_false_iff_not]
    omega
  all_goals
    rintro rfl
    revert hbounds
    decide

/-- The ids of a course, of plain characters such as letters and digits; only the cpi may be missing. -/
structure Ids where
  courseId : String
  classId : String
  cpi : String
  courseId_ne : courseId ≠ ""
  classId_ne : classId ≠ ""
  courseId_plain : PlainText courseId
  classId_plain : PlainText classId
  cpi_plain : PlainText cpi

namespace Ids

def parts (ids : Ids) : List String :=
  if ids.cpi = "" then [ids.courseId, ids.classId] else [ids.courseId, ids.classId, ids.cpi]

def selector (ids : Ids) : String := "_".intercalate ids.parts

end Ids

/-- The dictionary has these ids, the class id under one or both of its names, and its selector as
its `id`. -/
structure Carries (course : Course) (ids : Ids) : Prop where
  courseId : course.get "courseId" = some ids.courseId
  classId : ∀ key ∈ ["classId", "clazzId"], ∀ text, course.get key = some text → text = ids.classId
  named : ∃ key ∈ ["classId", "clazzId"], course.get key = some ids.classId
  cpi : value course "cpi" = ids.cpi
  id : course.get "id" = some ids.selector

/-- A course of the list with its ids. -/
structure Listed where
  course : Course
  ids : Ids
  carries : Carries course ids

variable {ids other : Ids} {course : Course} {references : String → String} {text : String}

/-! ### Plain texts -/

theorem PlainText.strip (h : PlainText text) : strip text = text := strip_eq_self fun c hc => (h c hc).1

theorem PlainText.trim (h : PlainText text) : JavaScript.trim text = text :=
  JavaScript.trim_eq_self fun c hc => (h c hc).2.1

namespace Ids

end Ids

/-! ### The builders -/

namespace Carries

end Carries

variable {courses : List Listed} {c : Listed}

theorem plainText_of_all (h : text.toList.all Char.isAlphanum = true) : PlainText text :=
  fun c hc => plain_of_isAlphanum (List.all_eq_true.mp h c hc)

/-- Class 2 of course 1 as the learning client lists it. -/
def physics : Listed where
  course := ⟨[("courseId", "1"), ("clazzId", "2"), ("cpi", "3"), ("id", "1_2_3")], by decide⟩
  ids :=
    { courseId := "1"
      classId := "2"
      cpi := "3"
      courseId_ne := by decide
      classId_ne := by decide
      courseId_plain := plainText_of_all rfl
      classId_plain := plainText_of_all rfl
      cpi_plain := plainText_of_all rfl }
  carries :=
    { courseId := rfl
      classId := by decide
      named := ⟨"clazzId", by simp, rfl⟩
      cpi := rfl
      id := by decide }

/-- Class 23 of the same course, with both names of its id and no cpi. -/
def chemistry : Listed where
  course := ⟨[("courseId", "1"), ("classId", "23"), ("clazzId", "23"), ("id", "1_23")], by decide⟩
  ids :=
    { courseId := "1"
      classId := "23"
      cpi := ""
      courseId_ne := by decide
      classId_ne := by decide
      courseId_plain := plainText_of_all rfl
      classId_plain := plainText_of_all rfl
      cpi_plain := plainText_of_all rfl }
  carries :=
    { courseId := rfl
      classId := by decide
      named := ⟨"clazzId", by simp, rfl⟩
      cpi := rfl
      id := by decide }

end UniversityHelper.CourseDict
