import UniversityHelper.TaskManager

/-! A task record of `ChaoxingLearningManager` and its critical sections: what each call does to
the record while it holds the manager lock, and the snapshot it takes for the store. -/
namespace UniversityHelper.LearningManager
open TaskAdmission TaskManager

/-- `threading.Event` objects, by identity. -/
abbrev EventId := ℕ

structure LearningTask extends TaskRecord where
  lastProgressPersistTs : Instant
  pauseEvent : EventId
  stopEvent : EventId

instance : Retained LearningTask := ⟨fun task => task.status, fun task => task.times⟩

def progressPersistInterval : Instant := 5 * 1000000
def maxTaskFailures : ℕ := 50
def taskPersistFailureMessage : String := "Failed to persist learning task state"
def threadStartFailureMessage : String :=
  "Server cannot start a new background thread. Stop existing tasks and retry, " ++
    "or restart the service if the problem persists."

/-- Compared as written, unlike the statuses of the admission rules. -/
def finishedStatuses : List String := ["completed", "failed", "error", "cancelled"]
def isFinished (status : TaskStatus) : Bool := status.text ∈ finishedStatuses

/-- The record `start_task` puts into the registry. -/
def newTask (taskId userId : String) (now : Instant) (pauseEvent stopEvent : EventId) :
    LearningTask where
  taskId := taskId
  userId := userId
  status := .pending
  message := "Task created"
  currentTask := "preparing"
  progress := learningRules.defaultProgress
  times := ⟨.at now, .at now, .at now, .absent⟩
  logs := []
  failures := []
  logCursor := 0
  lastProgressPersistTs := 0
  pauseEvent := pauseEvent
  stopEvent := stopEvent

/-- `_prepare_persist_locked`, without the reservation: unforced snapshots are throttled by
the monotonic clock. -/
def preparePersist (force : Bool) (monotonic : Instant) (task : LearningTask) :
    LearningTask × Option PublicTask :=
  if force = true then (task, some task.toPublicTask)
  else if monotonic - task.lastProgressPersistTs < progressPersistInterval then (task, none)
  else ({ task with lastProgressPersistTs := monotonic }, some task.toPublicTask)

def touch (now : Instant) (task : LearningTask) : LearningTask :=
  { task with times := { task.times with updatedAt := .at now } }

/-- The keyword arguments of `_update_task`. -/
structure Changes where
  status : Option TaskStatus
  message : Option String
  currentTask : Option String

def Changes.holdIn (changes : Changes) (task : LearningTask) : Bool :=
  changes.status.all (· = task.status) && changes.message.all (· = task.message) &&
    changes.currentTask.all (· = task.currentTask)

def Changes.applyTo (changes : Changes) (task : LearningTask) : LearningTask :=
  { task with
    status := changes.status.getD task.status
    message := changes.message.getD task.message
    currentTask := changes.currentTask.getD task.currentTask }

def updateTask (changes : Changes) (now monotonic : Instant) (task : LearningTask) :
    LearningTask × Option PublicTask :=
  if changes.holdIn task = true then (task, none)
  else preparePersist true monotonic (touch now (changes.applyTo task))

def appendTaskLog (message level : String) (now monotonic : Instant) (task : LearningTask) :
    LearningTask × Option PublicTask :=
  preparePersist true monotonic
    { task with toTaskRecord := withLogLine learningRules now message level task.toTaskRecord }

def updateProgress (updates : List (String × ProgressValue)) (now monotonic : Instant)
    (task : LearningTask) : LearningTask × Option PublicTask :=
  preparePersist false monotonic (touch now { task with progress := task.progress.update updates })

/-- `int(value or 0)`; `none` where Python raises. -/
def ProgressValue.toInt : ProgressValue → Option ℤ
  | .none => some 0
  | .int n => some n
  | .text value => if value = "" then some 0 else value.toInt?
  | .video .. => none

/-- A count that is not a number raises before anything is changed. -/
def increaseProgress (key : String) (delta : ℤ) (now monotonic : Instant) (task : LearningTask) :
    LearningTask × Option PublicTask :=
  match ProgressValue.toInt ((task.progress.get key).getD .none) with
  | some count =>
    preparePersist false monotonic
      (touch now { task with progress := task.progress.set key (.int (count + delta)) })
  | none => (task, none)

def recordFailure (course chapter reason hint : String) (now monotonic : Instant)
    (task : LearningTask) : LearningTask × Option PublicTask :=
  preparePersist true monotonic (touch now { task with
    failures := keepLast maxTaskFailures (task.failures ++ [⟨course, chapter, reason, hint, now⟩]) })

def recordAdmissionPersistFailure (now monotonic : Instant) (task : LearningTask) :
    LearningTask × Option PublicTask :=
  let failed : LearningTask :=
    touch now { task with
      status := .failed
      message := taskPersistFailureMessage
      currentTask := "failed" }
  preparePersist true monotonic { failed with
    logs := keepLast learningRules.logLimit (failed.logs ++ [⟨now, taskPersistFailureMessage, "error"⟩]) }

/-- The last critical section of `pause_task`; the event is cleared in it too. -/
def pauseTask (now : Instant) (task : LearningTask) : LearningTask :=
  if isFinished task.status = true then task
  else touch now { task with status := .paused, message := "Task paused" }

/-- The last critical section of `resume_task`; the event is set in it too. -/
def resumeTask (now : Instant) (task : LearningTask) : LearningTask :=
  if isFinished task.status = true then task
  else touch now { task with status := .running, message := "Task resumed" }

/-- The last critical section of `stop_task`; both events are set in it too. -/
def stopTask (now : Instant) (task : LearningTask) : LearningTask :=
  touch now (if isFinished task.status = true then task
    else { task with status := .cancelling, message := "Task cancellation requested" })

/-- Every critical section that changes a record after its admission. -/
inductive Mutation
  | updateTask (changes : Changes)
  | appendTaskLog (message level : String)
  | updateProgress (updates : List (String × ProgressValue))
  | increaseProgress (key : String) (delta : ℤ)
  | recordFailure (course chapter reason hint : String)
  | recordAdmissionPersistFailure
  | pauseTask
  | resumeTask
  | stopTask

def Mutation.apply (now monotonic : Instant) (task : LearningTask) :
    Mutation → LearningTask × Option PublicTask
  | .updateTask changes => LearningManager.updateTask changes now monotonic task
  | .appendTaskLog message level => LearningManager.appendTaskLog message level now monotonic task
  | .updateProgress updates => LearningManager.updateProgress updates now monotonic task
  | .increaseProgress key delta => LearningManager.increaseProgress key delta now monotonic task
  | .recordFailure course chapter reason hint =>
    LearningManager.recordFailure course chapter reason hint now monotonic task
  | .recordAdmissionPersistFailure => LearningManager.recordAdmissionPersistFailure now monotonic task
  | .pauseTask => (LearningManager.pauseTask now task, none)
  | .resumeTask => (LearningManager.resumeTask now task, none)
  | .stopTask => (LearningManager.stopTask now task, none)

end UniversityHelper.LearningManager
