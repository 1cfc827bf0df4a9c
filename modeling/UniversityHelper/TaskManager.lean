import UniversityHelper.TaskAdmission

/-! Task records, the task store behind them, and the registry operations that
`ChaoxingLearningManager` and `ChaoxingSigninManager` share up to a few constants. -/
namespace UniversityHelper.TaskManager
open TaskAdmission

structure LogLine where
  timestamp : Instant
  message : String
  level : String
  deriving DecidableEq, Repr

inductive ProgressValue
  | none
  | int (n : ℤ)
  | text (value : String)
  | video (name : String) (current duration : ℚ)
  deriving DecidableEq, Repr

abbrev Progress := OrderedDict String ProgressValue

structure Failure where
  course : String
  chapter : String
  reason : String
  hint : String
  timestamp : Instant
  deriving DecidableEq, Repr

/-- A record without its private (underscored) entries. -/
structure PublicTask where
  taskId : String
  userId : String
  status : TaskStatus
  message : String
  currentTask : String
  progress : Progress
  times : TaskTimes
  logs : List LogLine
  failures : List Failure

structure TaskRecord extends PublicTask where
  logCursor : ℕ

instance : Retained TaskRecord := ⟨fun task => task.status, fun task => task.times⟩

/-- What `task_store.get_task` answers: the payload of a row, where `progress` and `logs` may
be missing or of another type. -/
structure StoredTask where
  taskId : String
  userId : String
  status : TaskStatus
  message : String
  currentTask : String
  progress : Option Progress
  times : TaskTimes
  logs : Option (List LogLine)
  failures : List Failure

structure TaskRow where
  userId : String
  status : TaskStatus
  message : String
  startedAt : Option Instant
  updatedAt : Option Instant
  payload : StoredTask

/-- The rows of one task kind; a store that is not `available` answers nothing. -/
structure TaskStore where
  available : Bool
  rows : OrderedDict String TaskRow

/-- `_row_to_task`: the columns win over the payload. -/
def rowToTask (taskId : String) (row : TaskRow) : StoredTask :=
  { row.payload with
    taskId := taskId
    userId := row.userId
    status := row.status
    message := row.message
    times := { row.payload.times with
      startedAt := (row.startedAt.map TimeField.at).getD row.payload.times.startedAt
      updatedAt := (row.updatedAt.map TimeField.at).getD row.payload.times.updatedAt } }

def TaskStore.getTask (store : TaskStore) (taskId userId : String) : Option StoredTask :=
  if store.available = true ∧ taskId ≠ "" then
    (store.rows.get taskId).bind fun row =>
      if userId = "" ∨ row.userId = userId then some (rowToTask taskId row) else none
  else none

/-- `upsert_task`. A row keeps the `started_at` it was first written with. -/
def TaskStore.upsertTask (store : TaskStore) (task : PublicTask) (now : Instant) :
    Bool × TaskStore :=
  let taskId := strip task.taskId
  let userId := strip task.userId
  if store.available = false ∨ taskId = "" ∨ userId = "" then (false, store)
  else
    let startedAt := ((task.times.startedAt.parse).or task.times.createdAt.parse)
    let updatedAt := ((task.times.updatedAt.parse.or startedAt).getD now)
    let known := (store.rows.get taskId).bind TaskRow.startedAt
    let row : TaskRow :=
      { userId := userId
        status := task.status
        message := task.message
        startedAt := known.or startedAt
        updatedAt := some updatedAt
        payload := { task with progress := some task.progress, logs := some task.logs } }
    (true, { store with rows := store.rows.set taskId row })

structure Manager where
  tasks : OrderedDict String TaskRecord
  store : TaskStore

structure LogAnswer where
  logs : List LogLine
  cursor : ℕ
  deriving DecidableEq, Repr

/-- Where the two managers differ. `interruptedTask` is the `current_task` of a record that a
restart interrupted, `sliceStart` the start of a log slice from the requested cursor and the
record's own one, which `keepsCursor` says to advance. -/
structure Rules where
  logLimit : ℕ
  interruptedStatus : TaskStatus
  interruptedTask : Option String
  defaultProgress : Progress
  sliceStart : Option ℤ → ℕ → ℤ
  keepsCursor : Bool

def learningRules : Rules where
  logLimit := 1000
  interruptedStatus := .failed
  interruptedTask := some "failed"
  defaultProgress := OrderedDict.empty.update
    [("total", .int 0), ("completed", .int 0), ("failed", .int 0), ("current", .int 0),
      ("total_chapters", .int 0), ("completed_chapters", .int 0), ("current_course", .text ""),
      ("current_chapter", .text ""), ("video_progress", .none)]
  sliceStart cursor own := cursor.getD own
  keepsCursor := true

def signinRules : Rules where
  logLimit := 500
  interruptedStatus := .error
  interruptedTask := none
  defaultProgress := OrderedDict.empty.update
    [("total", .int 0), ("completed", .int 0), ("failed", .int 0), ("current", .int 0)]
  sliceStart cursor _ := max (cursor.getD 0) 0
  keepsCursor := false

def restartInterruptedMessage : String := "Task interrupted due to service restart"
def interruptedStatuses : List String := ["running", "pending", "paused", "cancelling", "stopping"]

/-- Statuses a restart ends; the text is compared without stripping it. -/
def isInterrupted (status : TaskStatus) : Bool := lower status.text ∈ interruptedStatuses

variable (rules : Rules)

/-- The times of a record read from the store, missing ones filled in from each other. -/
def mergedTimes (times : TaskTimes) (now : Instant) : TaskTimes :=
  let createdAt := times.createdAt.setDefault (times.startedAt.or now)
  let startedAt := times.startedAt.setDefault (createdAt.or now)
  { updatedAt := times.updatedAt.setDefault (startedAt.or now)
    startedAt := startedAt
    createdAt := createdAt
    startTime := times.startTime }

/-- The record `_merge_task_from_store` builds from a stored task. -/
def mergedTask (item : StoredTask) (now : Instant) : TaskRecord :=
  let task : TaskRecord :=
    { item with
      progress := rules.defaultProgress.update ((item.progress.map OrderedDict.entries).getD [])
      times := mergedTimes item.times now
      logs := item.logs.getD []
      logCursor := 0 }
  if isInterrupted item.status then
    { task with
      status := rules.interruptedStatus
      message := restartInterruptedMessage
      currentTask := rules.interruptedTask.getD task.currentTask
      times := { task.times with updatedAt := .at now }
      logs := keepLast rules.logLimit (task.logs ++ [⟨now, restartInterruptedMessage, "warning"⟩]) }
  else task

/-- `_merge_task_from_store`; an interrupted record is written back. -/
def mergeTaskFromStore (m : Manager) (item : StoredTask) (now : Instant) : Manager :=
  let taskId := strip item.taskId
  if taskId = "" ∨ strip item.userId = "" ∨ (m.tasks.get taskId).isSome = true then m
  else
    let task := mergedTask rules item now
    { tasks := m.tasks.set taskId task
      store := if isInterrupted item.status then (m.store.upsertTask task.toPublicTask now).2
        else m.store }

def loadTaskFromStore (m : Manager) (now : Instant) (userId taskId : String) : Manager :=
  if strip userId = "" ∨ strip taskId = "" then m
  else
    match m.store.getTask (strip taskId) (strip userId) with
    | some item => mergeTaskFromStore rules m item now
    | none => m

/-- The record of a task, if it is the user's. -/
def lookup (tasks : OrderedDict String TaskRecord) (userId taskId : String) : Option TaskRecord :=
  (tasks.get taskId).filter fun task => task.userId = userId

def getTask (m : Manager) (now : Instant) (userId taskId : String) : Option PublicTask × Manager :=
  let tasks := cleanup m.tasks now
  match lookup tasks (strip userId) (strip taskId) with
  | some task => (some task.toPublicTask, { m with tasks := tasks })
  | none =>
    let m := loadTaskFromStore rules { m with tasks := tasks } now (strip userId) (strip taskId)
    ((lookup m.tasks (strip userId) (strip taskId)).map TaskRecord.toPublicTask, m)

/-- The answer about a record of `get_task_logs`, and the registry with its cursor advanced. -/
def answerLogs (m : Manager) (taskId : String) (task : TaskRecord) (cursor : Option ℤ) :
    LogAnswer × Manager :=
  let answer : LogAnswer :=
    ⟨sliceFrom task.logs (rules.sliceStart cursor task.logCursor), task.logs.length⟩
  (answer,
    if rules.keepsCursor = true ∧ cursor = none then
      { m with tasks := m.tasks.modify taskId fun task => { task with logCursor := answer.cursor } }
    else m)

def getTaskLogs (m : Manager) (now : Instant) (userId taskId : String) (cursor : Option ℤ) :
    Option LogAnswer × Manager :=
  let tasks := cleanup m.tasks now
  match lookup tasks (strip userId) (strip taskId) with
  | some task =>
    let (answer, m) := answerLogs rules { m with tasks := tasks } (strip taskId) task cursor
    (some answer, m)
  | none =>
    let m := loadTaskFromStore rules { m with tasks := tasks } now (strip userId) (strip taskId)
    let m := { m with tasks := cleanup m.tasks now }
    match lookup m.tasks (strip userId) (strip taskId) with
    | some task =>
      let (answer, m) := answerLogs rules m (strip taskId) task cursor
      (some answer, m)
    | none => (none, m)

def withLogLine (now : Instant) (message level : String) (task : TaskRecord) : TaskRecord :=
  { task with
    logs := keepLast rules.logLimit (task.logs ++ [⟨now, message, level⟩])
    times := { task.times with updatedAt := .at now } }

/-- The critical section of `_append_task_log`, which also takes the snapshot to persist. -/
def appendTaskLog (tasks : OrderedDict String TaskRecord) (now : Instant)
    (taskId message level : String) : OrderedDict String TaskRecord × Option PublicTask :=
  let tasks := tasks.modify taskId (withLogLine rules now message level)
  (tasks, (tasks.get taskId).map TaskRecord.toPublicTask)

namespace ChaoxingLearningManager
def getTask := TaskManager.getTask learningRules
def getTaskLogs := TaskManager.getTaskLogs learningRules
def appendTaskLog := TaskManager.appendTaskLog learningRules
end ChaoxingLearningManager

namespace ChaoxingSigninManager
def getTask := TaskManager.getTask signinRules
def getTaskLogs := TaskManager.getTaskLogs signinRules
def appendTaskLog := TaskManager.appendTaskLog signinRules
end ChaoxingSigninManager

end UniversityHelper.TaskManager
