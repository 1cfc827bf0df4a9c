import UniversityHelper.LearningManager

/-! `_run_task_worker` of `ChaoxingLearningManager` as the program it runs: what it asks the
client and its control events, and what it writes to its task. -/
namespace UniversityHelper.LearningWorker
open TaskAdmission TaskManager
open LearningManager (Changes unexpectedWorkerErrorPrefix)

structure Course where
  courseId : String
  clazzId : String
  cpi : String
  title : String
  courseName : String

structure Point where
  id : String
  title : String
  hasFinished : Bool

structure LoginState where
  status : Bool
  msg : String
  message : String

/-- The part of `common_config` and of the payload that a worker uses itself; `speed` as it is
written into the log. -/
structure Payload where
  username : String
  password : String
  courseList : List String
  speed : String
  jobs : ℕ
  chapterLimits : List (String × String)

/-- A course selector: its parts, a missing one empty. -/
structure Selector where
  course : String
  clazz : String
  cpi : String

/-- `none` is the `IndexError` of `parts[0]`. -/
def parseCourseSelector (raw : String) : Option Selector :=
  if strip raw = "" then some ⟨"", "", ""⟩
  else
    match (splitText (strip raw) '_').filter (· ≠ "") with
    | [] => none
    | [course] => some ⟨course, "", ""⟩
    | [course, clazz] => some ⟨course, clazz, ""⟩
    | course :: clazz :: cpi :: _ => some ⟨course, clazz, cpi⟩

def courseMatchesSelector (course : Course) (selector : Selector) : Bool :=
  (selector.course = "" || course.courseId = selector.course) &&
    (selector.clazz = "" || course.clazzId = selector.clazz) &&
    (selector.cpi = "" || course.cpi = selector.cpi)

def Selector.specificity (selector : Selector) : ℕ :=
  ([selector.course, selector.clazz, selector.cpi].filter (· ≠ "")).length

/-- The best limit so far and its specificity, after one more limit. -/
def betterLimit (course : Course) (best : Option String × ℕ) (limit : String × String) :
    Option (Option String × ℕ) :=
  (parseCourseSelector limit.1).map fun selector =>
    if selector.course = "" ∨ courseMatchesSelector course selector = false then best
    else if best.2 < selector.specificity then (some limit.2, selector.specificity) else best

/-- The id of the last chapter to study; of several selectors the most specific one wins. -/
def chapterLimitFor (course : Course) (limits : List (String × String)) : Option (Option String) :=
  (limits.foldlM (betterLimit course) (none, 0)).map Prod.fst

def pointsUpTo (endPointId : String) : List Point → Option (List Point)
  | [] => none
  | point :: rest =>
    if point.id = endPointId then some [point] else (pointsUpTo endPointId rest).map (point :: ·)

def identity (course : Course) : String := course.courseId ++ "_" ++ course.clazzId ++ "_" ++ course.cpi

/-- The selected courses, after one more course. -/
def selectNext (parsed : List Selector) (selected : List Course) (course : Course) : List Course :=
  if parsed.any (courseMatchesSelector course) = true ∧ identity course ∉ selected.map identity then
    selected ++ [course]
  else selected

def selectCourses (allCourses : List Course) (selectors : List String) : Option (List Course) :=
  if selectors = [] then some allCourses
  else
    (selectors.mapM parseCourseSelector).map fun parsed => allCourses.foldl (selectNext parsed) []

def courseLabel (course : Course) : String :=
  if strip course.title ≠ "" then strip course.title
  else if strip course.courseName ≠ "" then strip course.courseName
  else course.courseId

/-- What a worker still has to do. `run` is `JobProcessor.run` over the chapters of a course, with
the number of its failed chapters as the result. -/
inductive Work
  | controlEvents (next : Bool → Work)
  | initChaoxing (next : Except String Unit → Work)
  | login (next : Except String LoginState → Work)
  | getCourseList (next : Except String (List Course) → Work)
  | stopIsSet (next : Bool → Work)
  | waitForResume (next : Bool → Work)
  | getCoursePoint (course : Course) (next : Except String (List Point) → Work)
  | run (course : Course) (points : List Point) (next : Except String ℕ → Work)
  | updateTask (changes : Changes) (next : Work)
  | appendTaskLog (message level : String) (next : Work)
  | updateProgress (updates : List (String × ProgressValue)) (next : Work)
  | increaseProgress (key : String) (delta : ℤ) (next : Work)
  | notify (summary : String) (next : Work)
  | finished

def failTask (message : String) : Work :=
  .updateTask ⟨some .failed, some message, some "failed"⟩ (.appendTaskLog message "error" .finished)

/-- The handler of an exception in `_run_task_worker_guarded`. -/
def failureWork (exception : String) : Work :=
  failTask (unexpectedWorkerErrorPrefix ++ ": " ++ exception)

/-- The text of an `IndexError` of a list. -/
def indexError : String := "list index out of range"

def cancelTask (message : String) : Work :=
  .updateTask ⟨some .cancelled, some message, some "cancelled"⟩
    (.appendTaskLog message "warning" .finished)

def userCancelled : Work := cancelTask "Task cancelled by user"

/-- The end of the course loop. -/
def conclude (failedCourses : ℕ) : Work :=
  .stopIsSet fun stopped =>
  if stopped = true then userCancelled
  else if 0 < failedCourses then
    let summary := "Task finished with failures (" ++ toString failedCourses ++ " failed courses)"
    .updateTask ⟨some .failed, some summary, some "finished"⟩ <|
    .appendTaskLog "Task finished with failures" "warning" (.notify summary .finished)
  else
    .updateTask ⟨some .completed, some "Task completed", some "finished"⟩ <|
    .appendTaskLog "Task completed" "success" (.notify "Task completed" .finished)

/-- The chapters of a course, cut after the last one to study, and what the worker logs about it;
`none` is a last chapter that the course does not have. -/
def limitPoints (label : String) (points : List Point) : Option String → Option (List Point × List String)
  | none => some (points, [])
  | some endPointId =>
    if endPointId = "" then some (points, [])
    else (pointsUpTo endPointId points).map fun limited =>
      (limited, ["Studying " ++ label ++ " up to \"" ++
        (limited.getLast?.map Point.title).getD "" ++ "\" (" ++ toString limited.length ++ "/" ++
          toString points.length ++ " chapters)"])

/-- The loop of `_run_task_worker` from the course with number `index` on. -/
def studyCourses (payload : Payload) (total : ℕ) :
    (index completed failed : ℕ) → List Course → Work
  | _, _, failed, [] => conclude failed
  | index, completed, failed, course :: rest =>
    let label := courseLabel course
    let skip := fun message =>
      .appendTaskLog message "error" <|
      .updateProgress [("failed", .int (failed + 1)), ("current", .int index)] <|
      studyCourses payload total (index + 1) completed (failed + 1) rest
    let proceed := fun completed failed =>
      .updateProgress [("completed", .int completed), ("failed", .int failed),
        ("current", .int index), ("current_course", .text label)] <|
      studyCourses payload total (index + 1) completed failed rest
    .stopIsSet fun stopped =>
    if stopped = true then userCancelled
    else
      .waitForResume fun resumed =>
      if resumed = false then userCancelled
      else
        .updateTask ⟨some .running, some ("Learning course " ++ toString index ++ "/" ++ toString total),
          some ("course:" ++ label)⟩ <|
        .updateProgress [("current", .int index), ("current_course", .text label),
          ("current_chapter", .text ""), ("video_progress", .none)] <|
        .appendTaskLog ("Start course: " ++ label) "info" <|
        .getCoursePoint course fun
        | .error exception => skip ("Fetch chapters failed for " ++ label ++ ": " ++ exception)
        | .ok points =>
          match (chapterLimitFor course payload.chapterLimits).map (limitPoints label points) with
          | none => failureWork indexError
          | some none =>
            skip ("Chosen last chapter no longer exists in " ++ label ++ "; course skipped. " ++
              "Refresh the chapter list and choose again.")
          | some (some (points, lines)) =>
            let run : Work := .run course points fun
              | .error exception =>
                .appendTaskLog ("Course execution failed " ++ label ++ ": " ++ exception) "error" <|
                proceed completed (failed + 1)
              | .ok failedTasks =>
                .stopIsSet fun stopped =>
                if stopped = true then userCancelled
                else if 0 < failedTasks then
                  .appendTaskLog ("Course finished with " ++ toString failedTasks ++
                    " failed chapters: " ++ label) "warning" <|
                  proceed completed (failed + 1)
                else
                  .appendTaskLog ("Course completed: " ++ label) "success" <|
                  proceed (completed + 1) failed
            let counted : Work :=
              if points = [] then run else .increaseProgress "total_chapters" points.length run
            lines.foldr (fun line next => .appendTaskLog line "info" next) counted

def initialProgress (total : ℕ) : List (String × ProgressValue) :=
  [("total", .int total), ("completed", .int 0), ("failed", .int 0), ("current", .int 0),
    ("total_chapters", .int 0), ("completed_chapters", .int 0), ("current_course", .text ""),
    ("current_chapter", .text ""), ("video_progress", .none)]

def runTaskWorker (payload : Payload) : Work :=
  if strip payload.username = "" ∨ strip payload.password = "" then
    failTask "Missing username or password"
  else
    .controlEvents fun found =>
    if found = false then .finished
    else
      .updateTask ⟨some .running, some "Logging in to Chaoxing", some "login"⟩ <|
      .appendTaskLog "Starting login..." "info" <|
      .initChaoxing fun
      | .error exception => failTask ("Initialize chaoxing client failed: " ++ exception)
      | .ok _ =>
        .login fun
        | .error exception => failTask ("Login request failed: " ++ exception)
        | .ok state =>
          if state.status = false then
            failTask (if state.msg ≠ "" then state.msg
              else if state.message ≠ "" then state.message else "Login failed")
          else
            .appendTaskLog "Login successful" "success" <|
            .getCourseList fun
            | .error exception => failTask ("Fetch course list failed: " ++ exception)
            | .ok allCourses =>
              match selectCourses allCourses payload.courseList with
              | none => failureWork indexError
              | some [] => failTask "No available courses after filtering"
              | some courses =>
                .updateProgress (initialProgress courses.length) <|
                .appendTaskLog ("Selected " ++ toString courses.length ++ " courses, speed " ++
                  payload.speed ++ "x, jobs " ++ toString payload.jobs) "info" <|
                studyCourses payload courses.length 1 0 0 courses

/-- What the client, the control events and `JobProcessor` answer to a worker. -/
inductive Answer
  | controlEvents (found : Bool)
  | initChaoxing (result : Except String Unit)
  | login (result : Except String LoginState)
  | getCourseList (result : Except String (List Course))
  | stopIsSet (stopped : Bool)
  | waitForResume (resumed : Bool)
  | getCoursePoint (result : Except String (List Point))
  | run (result : Except String ℕ)

def Work.answer : Work → Answer → Option Work
  | .controlEvents next, .controlEvents found => some (next found)
  | .initChaoxing next, .initChaoxing result => some (next result)
  | .login next, .login result => some (next result)
  | .getCourseList next, .getCourseList result => some (next result)
  | .stopIsSet next, .stopIsSet stopped => some (next stopped)
  | .waitForResume next, .waitForResume resumed => some (next resumed)
  | .getCoursePoint _ next, .getCoursePoint result => some (next result)
  | .run _ _ next, .run result => some (next result)
  | _, _ => none

/-- Whether a worker is at a question, where an exception may reach `_run_task_worker_guarded`. -/
def Work.asks : Work → Bool
  | .updateTask .. | .appendTaskLog .. | .updateProgress .. | .increaseProgress .. | .notify .. => false
  | .finished => false
  | _ => true

def maxTries : ℕ := 5

/-- The line that `chapter_failure_callback` writes about a chapter. -/
def chapterFailureLine (title reason hint : String) (final : Bool) : String × String :=
  if final = true then
    ("章节「" ++ title ++ "」重试 " ++ toString maxTries ++ " 次仍失败，已跳过。原因：" ++ reason ++
      "。建议：" ++ hint, "error")
  else
    ("章节「" ++ title ++ "」处理失败，正在自动重试（最多 " ++ toString maxTries ++ " 次）。原因：" ++ reason,
      "warning")

end UniversityHelper.LearningWorker
