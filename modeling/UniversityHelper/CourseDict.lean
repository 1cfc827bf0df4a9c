import UniversityHelper.ActiveTasks
import UniversityHelper.CourseSelection
import UniversityHelper.JavaScriptText

/-! Courses as the dictionaries in which the services pass them on: how a course selector is built
from one, and how each service finds the course of a selector. -/
namespace UniversityHelper.CourseDict
open AutoSignin (matchesFilter asFilterSet)

abbrev Course := OrderedDict String String

/-- `str(course.get(key) or "")`. -/
def value (course : Course) (key : String) : String := (course.get key).getD ""

/-- `re.sub(r"\s+", " ", text)`, `inside` a run of spaces or not. -/
def collapse : Bool → List Char → List Char
  | _, [] => []
  | inside, c :: cs =>
    if isSpace c = true then (if inside = true then collapse true cs else ' ' :: collapse true cs)
    else c :: collapse false cs

/-- `html.unescape`, which looks up character references only where there is an ampersand. -/
def unescape (references : String → String) (text : String) : String :=
  if '&' ∈ text.toList then references text else text

def cleanText (references : String → String) (text : String) : String :=
  strip (String.ofList (collapse false (unescape references text).toList))

/-- `_first_text`. -/
def firstText (references : String → String) (values : List String) : String :=
  ((values.map (cleanText references)).find? (· ≠ "")).getD ""

/-- `_course_value`. -/
def courseValue (references : String → String) (course : Course) (keys : List String) : String :=
  firstText references (keys.filterMap course.get)

structure SplitSelector where
  courseId : String
  classId : String
  cpi : String

/-- `_split_selector`. -/
def splitSelector (selector : String) : SplitSelector :=
  let parts := ((splitText selector '_').map strip).filter (· ≠ "")
  ⟨parts[0]?.getD "", parts[1]?.getD "", parts[2]?.getD ""⟩

/-- The three conditions under which the loop of `resolve_course` takes a course. -/
def takes (references : String → String) (selector : String) (course : Course) : Bool :=
  let requested := splitSelector selector
  let courseId := courseValue references course ["courseId", "course_id", "rawCourseId"]
  let classId := courseValue references course ["classId", "clazzId", "class_id", "clazz_id"]
  let explicitId := courseValue references course ["id", "course_id"]
  explicitId = selector ||
    (courseId ≠ "" && classId ≠ "" && courseId = requested.courseId && classId = requested.classId) ||
    (courseId ≠ "" && requested.classId = "" && courseId = requested.courseId)

/-- Whether `get_active_tasks` asks for the activities of a course. -/
def visits (courseFilters classFilters : List String) (course : Course) : Bool :=
  let courseId := value course "courseId"
  let classId := value course "classId"
  (courseFilters = [] || courseFilters.any fun f => matchesFilter f courseId classId) &&
    (asFilterSet classFilters = [] || classId ∈ asFilterSet classFilters)

/-- They are the courses that the filters select among those with both of their ids. -/
theorem visits_iff_selects (filters : ActiveTasks.Filters) (course : Course) (known : AutoSignin.Course)
    (hcourse : known.courseId = value course "courseId") (hclass : known.classId = value course "classId") :
    visits filters.courseFilters filters.classFilters course = filters.selects known := by
  rw [visits, ActiveTasks.Filters.selects, hcourse, hclass]

end UniversityHelper.CourseDict
