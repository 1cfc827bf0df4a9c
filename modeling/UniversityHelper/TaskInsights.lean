import UniversityHelper.ChapterLog
import UniversityHelper.TaskManager

/-! The chapters that `collectIssues` finds being retried in the log of a learning task. The issues
that it collects from the same lines and from the failures of the task are left out. -/
namespace UniversityHelper.TaskInsights
open ChapterLog (parseChapterLog)
open JavaScript (Matcher)
open TaskAdmission (Instant)
open TaskManager (LogLine)

/-- `/^Start course:\s*(.*)$/i`. -/
def startCourse : Matcher (List Char) :=
  JavaScript.literalAnyCase "Start course:".toList (JavaScript.spaces JavaScript.restOfLine)

/-- `/^开始学习课程：(.*)$/`. -/
def courseStarted : Matcher (List Char) := JavaScript.literal "开始学习课程：".toList JavaScript.restOfLine

/-- The course that a line starts. -/
def started (text : String) : Option String :=
  ((startCourse text.toList).or (courseStarted text.toList)).map fun course =>
    JavaScript.trim (String.ofList course)

structure Retrying where
  course : String
  chapter : String
  reason : String
  tries : Option ℕ
  timestamp : Instant

/-- What the loop over the lines keeps. -/
structure Collected where
  course : String
  retrying : OrderedDict String Retrying

def key (course chapter : String) : String := course ++ "|" ++ chapter

def collectLine (found : Collected) (line : LogLine) : Collected :=
  let text := JavaScript.trim line.message
  match started text with
  | some course => { found with course := course }
  | none =>
    match parseChapterLog text with
    | none => found
    | some entry =>
      let key := key found.course entry.chapter
      match entry.kind with
      | .retrying =>
        { found with
          retrying := found.retrying.set key
            ⟨found.course, entry.chapter, entry.reason, entry.tries, line.timestamp⟩ }
      | .skipped => { found with retrying := found.retrying.erase key }

def collect (logs : List LogLine) : Collected := logs.foldl collectLine ⟨"", .empty⟩

/-- The `retrying` of `collectIssues`. -/
def retrying (logs : List LogLine) : List Retrying := (collect logs).retrying.values

end UniversityHelper.TaskInsights
