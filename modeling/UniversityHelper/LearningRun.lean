import UniversityHelper.ChapterLog
import UniversityHelper.LogTail

/-! The run of a learning task with the chapters of its courses: the worker, the attempts that the
threads of `JobProcessor` make at the chapters, the requests of the user, and the lines all of them
write. The chapters of a course are attempted in any order and any number of times before the
processor returns; a decision about a chapter and its report are one step. -/
namespace UniversityHelper.LearningRun
open ChapterLog (Exception chapterFailureLine describeException)
open JobProcessor (Attempt Batch ChapterTask Decision countFailure maxTries processTask)
open LearningWorker (Work courseLabel runTaskWorker)
open TaskAdmission (Instant)
open TaskManager (LogLine learningRules)

/-- How a call of `process_chapter` ends; one that is cancelled has no part in this. -/
inductive Ending
  | success
  | notOpen
  | error
  | raised (exception : Exception)

def Ending.attempt : Ending → Attempt
  | .success => .success
  | .notOpen => .notOpen
  | .error => .error
  | .raised exception => .raised (describeException exception) exception.typeName

/-- `match task.result` of `worker_thread`. -/
def afterAttempt (notopenAction : String) (task : ChapterTask) : ChapterTask × Decision :=
  match task.result with
  | .success => (task, .settle)
  | .notOpen => if notopenAction = "continue" then (task, .settle) else countFailure task
  | .error => countFailure task
  | .pending => (task, .giveUp)

theorem afterAttempt_batch (batch : Batch) (task : ChapterTask) :
    JobProcessor.afterAttempt batch task = afterAttempt batch.notopenAction task := rfl

/-- Whether a decision is reported, and the `final` of the report. -/
def reported : Decision → Option Bool
  | .settle => none
  | .giveUp => some true
  | .retry report => if report = true then some false else none

/-- Where a chapter is: in a queue, between an attempt and the decision about it, or done. -/
inductive Phase
  | waiting
  | attempted
  | settled
  | givenUp
  deriving DecidableEq

def Phase.after : Decision → Phase
  | .settle => .settled
  | .giveUp => .givenUp
  | .retry _ => .waiting

structure Chapter where
  title : String
  task : ChapterTask := {}
  phase : Phase := .waiting
  deriving DecidableEq

/-- A course whose chapters are, or were, studied. -/
structure Study where
  label : String
  chapters : List Chapter
  deriving DecidableEq

def Study.set (study : Study) (i : ℕ) (chapter : Chapter) : Study :=
  { study with chapters := study.chapters.set i chapter }

/-- The requests of the user that write to the log. -/
inductive Request
  | pause
  | resume
  | stop

def Request.line : Request → String × String
  | .pause => ("Task paused", "warning")
  | .resume => ("Task resumed", "info")
  | .stop => ("Task cancellation requested", "warning")

/-- How `_send_completion_notification` ends. -/
inductive Notification
  | unsupported
  | unvalidated
  | refused
  | sent (service : String)
  | failed (failureType : String)

def Notification.line : Notification → String × String
  | .unsupported => ("Notification skipped: unsupported service", "warning")
  | .unvalidated => ("Notification skipped: URL validation failed", "warning")
  | .refused => ("Notification skipped: URL must be a public http(s) address", "warning")
  | .sent service => ("Notification sent via " ++ service, "info")
  | .failed failureType => ("Notification failed (" ++ failureType ++ ")", "warning")

/-- `studies` has the latest course first. -/
structure State where
  worker : Work
  notopenAction : String
  studies : List Study
  logs : List LogLine

inductive Action
  | work (input : LogTail.LearningInput)
  | attempt (i : ℕ) (ending : Ending)
  | decide (i : ℕ) (now : Instant)
  | request (request : Request) (now : Instant)
  | notified (notification : Notification) (now : Instant)

/-- `_append_task_log`. -/
def State.append (s : State) (now : Instant) (line : String × String) : State :=
  { s with logs := keepLast learningRules.logLimit (s.logs ++ [⟨now, line.1, line.2⟩]) }

def State.write (s : State) : Option LogTail.Write → State
  | some (.line line) => s.append line.timestamp (line.message, line.level)
  | _ => s

/-- Where a run of the processor begins its chapters are new. -/
def State.moveTo (s : State) (next : Work) : State :=
  match next with
  | .run course points _ =>
    { s with
      worker := next
      studies := ⟨courseLabel course, points.map fun point => { title := point.title }⟩ :: s.studies }
  | _ => { s with worker := next }

/-- A chapter of the course that is being studied. -/
def State.chapter (s : State) (i : ℕ) : Option Chapter :=
  match s.worker, s.studies with
  | .run .., study :: _ => study.chapters[i]?
  | _, _ => none

def State.setChapter (s : State) (i : ℕ) (chapter : Chapter) : State :=
  match s.studies with
  | [] => s
  | study :: earlier => { s with studies := study.set i chapter :: earlier }

/-- A worker that waits for the user stays where it is. -/
def workStep (s : State) : LogTail.LearningInput → Option State
  | .chapterFailed .. => none
  | .wait =>
    (LogTail.learningStep s.worker .wait).map fun (next, write) => { s.write write with worker := next }
  | input =>
    (LogTail.learningStep s.worker input).map fun (next, write) => (s.write write).moveTo next

/-- One attempt at a chapter. -/
def attemptStep (s : State) (i : ℕ) (ending : Ending) : Option State :=
  (s.chapter i).bind fun chapter =>
    if chapter.phase = .waiting then
      some (s.setChapter i
        { chapter with task := processTask chapter.task ending.attempt, phase := .attempted })
    else none

/-- The decision after an attempt, with the line of `chapter_failure_callback` about it. -/
def decideStep (s : State) (i : ℕ) (now : Instant) : Option State :=
  (s.chapter i).bind fun chapter =>
    if chapter.phase = .attempted then
      let (task, decision) := afterAttempt s.notopenAction chapter.task
      let next := s.setChapter i { chapter with task := task, phase := .after decision }
      match reported decision with
      | none => some next
      | some final =>
        some (next.append now (chapterFailureLine chapter.title task final maxTries,
          if final = true then "error" else "warning"))
    else none

def step (s : State) : Action → Option State
  | .work input => workStep s input
  | .attempt i ending => attemptStep s i ending
  | .decide i now => decideStep s i now
  | .request request now => some (s.append now request.line)
  | .notified notification now =>
    match s.worker with
    | .notify _ next => some ((s.append now notification.line).moveTo next)
    | _ => none

def learningRun : Machine State Action where
  start s := (∃ payload, s.worker = runTaskWorker payload) ∧ s.studies = [] ∧ s.logs = []
  step := step

/-! ### What has become of a chapter -/

def Chapter.Failed (chapter : Chapter) : Prop := 0 < chapter.task.tries

def Chapter.Succeeded (chapter : Chapter) : Prop := chapter.task.result = .success

def Chapter.GivenUp (chapter : Chapter) : Prop := chapter.phase = .givenUp

end UniversityHelper.LearningRun
