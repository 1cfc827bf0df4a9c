import UniversityHelper.Machine
import UniversityHelper.TaskManager

/-! `ChaoxingSigninManager` over its task store: the calls of `start_task`, the worker threads,
and the calls that read tasks and load them. Every critical section of the manager lock is a
step, and so is every access to the store. -/
namespace UniversityHelper.SigninManager
open TaskAdmission TaskManager

def unexpectedWorkerErrorPrefix : String := "Unexpected task failure"
def taskPersistFailureMessage : String := "Failed to persist signin task state"
def userTaskLoadLimit : ℕ := 2000
def restoreLimit : ℕ := 300

/-- `text or other`. -/
def orText (text other : String) : String := if text = "" then other else text

structure Payload where
  username : String
  password : String
  signType : String
  courseList : List String
  classList : List String
  activeId : Option String
  subjectType : Option String
  classId : Option String

/-- What `start_class_task` passes on. -/
def classPayload (payload : Payload) : Payload :=
  let classId := strip (payload.classId.getD "")
  { payload with
    subjectType := some "class"
    classList := if classId ≠ "" ∧ payload.classList = [] then [classId] else payload.classList }

structure LoginResult where
  status : Bool
  message : Option String

structure ActiveTask where
  courseName : String
  className : String
  type : String
  courseId : String
  classId : String

structure SignResult where
  status : Bool
  message : String

structure HistoryEntry where
  status : String
  message : String
  subjectType : String
  subjectId : String
  courseName : String
  className : String
  type : String

structure Changes where
  status : Option TaskStatus
  message : Option String
  progress : Option Progress

def Changes.apply (changes : Changes) (now : Instant) (task : TaskRecord) : TaskRecord :=
  { task with
    status := changes.status.getD task.status
    message := changes.message.getD task.message
    progress := changes.progress.getD task.progress
    times := { task.times with updatedAt := .at now } }

/-- What a worker still has to do: what it asks the client, what it writes to the task. -/
inductive Work
  | login (username password : String) (next : LoginResult → Work)
  | getClient (next : Bool → Work)
  | getActiveTasks (courseFilters : List String) (classFilters : Option (List String))
      (activeId : Option String) (expectedType : String)
      (next : Except String (List ActiveTask) → Work)
  | signTask (task : ActiveTask) (preferredType : String) (next : SignResult → Work)
  | appendHistory (entry : HistoryEntry) (next : Work)
  | update (changes : Changes) (next : Work)
  | appendLog (message level : String) (next : Work)
  | finished

/-- What the client answers to a worker. -/
inductive Answer
  | login (result : LoginResult)
  | client (found : Bool)
  | activeTasks (result : Except String (List ActiveTask))
  | signed (result : SignResult)
  | appended

def Work.answer : Work → Answer → Option Work
  | .login _ _ next, .login result => some (next result)
  | .getClient next, .client found => some (next found)
  | .getActiveTasks _ _ _ _ next, .activeTasks result => some (next result)
  | .signTask _ _ next, .signed result => some (next result)
  | .appendHistory _ next, .appended => some next
  | _, _ => none

def failedWith (message : String) : Changes := ⟨some .error, some message, none⟩

/-- The handler of an exception, in `_run_task_worker_guarded` and in `start_task`. -/
def failureWork (message : String) : Work :=
  .update (failedWith message) (.appendLog message "error" .finished)

def subjectName (subjectType : String) (task : ActiveTask) : String :=
  if subjectType = "class" ∧ strip task.className ≠ "" then strip task.className
  else strip task.courseName

def taskType (signType : String) (task : ActiveTask) : String :=
  orText (strip (orText task.type (orText signType "background"))) "background"

def signProgress (total completed failed current : ℕ) (course : String) : Progress :=
  OrderedDict.empty.update
    [("total", .int total), ("completed", .int completed), ("failed", .int failed),
      ("current", .int current), ("current_course", .text course)]

/-- The loop of `_run_task_worker` from the task with number `index` on. -/
def signTasks (signType subjectType : String) (total : ℕ) :
    (index completed failed : ℕ) → List ActiveTask → Work
  | _, _, failed, [] =>
    .update
      ⟨some (if failed = 0 then .completed else .error),
        some (if failed = 0 then "Task completed" else "Task completed with failures"), none⟩
      .finished
  | index, completed, failed, task :: rest =>
    let subject := subjectName subjectType task
    .appendLog ("Signing " ++ subject ++ " (" ++ taskType signType task ++ ")") "info" <|
    .signTask task signType fun result =>
    let completed := if result.status = true then completed + 1 else completed
    let failed := if result.status = true then failed else failed + 1
    let status := if result.status = true then "success" else "failed"
    .appendLog result.message (if result.status = true then "success" else "error") <|
    .appendHistory ⟨status, result.message, subjectType,
      if subjectType = "class" then task.classId else task.courseId, task.courseName,
      task.className, orText task.type "normal"⟩ <|
    .update
      ⟨none, some ("Processed " ++ toString index ++ "/" ++ toString total),
        some (signProgress total completed failed index subject)⟩ <|
    signTasks signType subjectType total (index + 1) completed failed rest

def runTaskWorker (payload : Payload) : Work :=
  let signType := orText payload.signType "all"
  let subjectType := lower (strip (orText (payload.subjectType.getD "")
    (if payload.classList = [] then "course" else "class")))
  .login payload.username payload.password fun result =>
  if result.status = false then
    .update (failedWith (result.message.getD "Login failed")) <|
    .appendLog ("Login failed: " ++ result.message.getD "") "error" .finished
  else
    .getClient fun found =>
    if found = false then .update (failedWith "Login state unavailable") .finished
    else
      .appendLog "Login successful" "info" <|
      .getActiveTasks payload.courseList
        (if subjectType = "class" then some payload.classList else none) payload.activeId signType
        fun
        | .error exception =>
          let message := "Failed to query active sign-in tasks: " ++ exception
          .update (failedWith message) (.appendLog message "error" .finished)
        | .ok [] =>
          .update ⟨some .completed, some "No active sign-in task", none⟩ <|
          .appendLog "No active sign-in task found" "info" .finished
        | .ok (task :: rest) =>
          let total := rest.length + 1
          .update ⟨none, none, some (signProgress total 0 0 0 (subjectName subjectType task))⟩ <|
          signTasks signType subjectType total 1 0 0 (task :: rest)

/-- A task id from its admission to the end of its worker. `settled` records whether a terminal
status has been written, and `guarded` whether an exception would be caught and written. -/
inductive Life
  | unknown
  | admitted (payload : Payload) (snapshot : PublicTask)
  | unpersisted
  | compensating (snapshot : PublicTask)
  | persisted (payload : Payload)
  | working (guarded settled : Bool) (work : Work)
  | persisting (guarded settled : Bool) (snapshot : PublicTask) (work : Work)
  | ended

/-- How a write to the store ends: `unknown` is one that took effect and was not confirmed. -/
inductive Outcome
  | stored | failed | unknown
  deriving DecidableEq

inductive Request
  | getTask (userId taskId : String)
  | getTaskLogs (userId taskId : String) (cursor : Option ℤ)
  | listTasks (userId : String)
  | restore

inductive Reply
  | task (task : Option PublicTask)
  | logs (answer : Option LogAnswer)
  | tasks (tasks : List PublicTask)
  | restored

/-- Where a reading call stands: `merging` is before the first look at the registry for a stored
task, `inserting` before the second one, `writingBack` before its write to the store. -/
inductive Call
  | idle
  | looking (r : Request)
  | reading (r : Request)
  | merging (items : List StoredTask) (r : Request)
  | inserting (item : StoredTask) (items : List StoredTask) (r : Request)
  | writingBack (snapshot : PublicTask) (items : List StoredTask) (r : Request)
  | closing (r : Request)
  | answering (r : Request)
  | done (reply : Reply)

structure State (C : Type*) where
  tasks : OrderedDict String TaskRecord
  store : TaskStore
  loadedTaskUsers : List String
  life : String → Life
  call : C → Call

inductive Action (C : Type*)
  | startTask (taskId userId : String) (payload : Payload) (now : Instant)
  | startClassTask (taskId userId : String) (payload : Payload) (now : Instant)
  | persistNew (taskId : String) (outcome : Outcome) (now : Instant)
  | recordFailure (taskId : String) (now : Instant)
  | compensate (taskId : String) (outcome : Outcome) (now : Instant)
  | startThread (taskId : String) (failure : Option String)
  | ask (taskId : String) (answer : Answer)
  | write (taskId : String) (now : Instant)
  | persist (taskId : String) (outcome : Outcome) (now : Instant)
  | crash (taskId message : String)
  | finish (taskId : String)
  | request (c : C) (r : Request)
  | proceed (c : C) (outcome : Outcome) (now : Instant)

/-- `task_store.list_tasks` orders by `updated_at` and `task_id`, both descending, and puts rows
without a time last. -/
def listingKey (e : String × TaskRow) : (WithBot Instant) ×ₗ String :=
  toLex ((e.2.updatedAt : WithBot Instant), e.1)

def listStoredTasks (store : TaskStore) (userId : Option String) (limit : ℕ) : List StoredTask :=
  let rows := store.rows.entries.filter fun e => userId.all fun user => e.2.userId = user
  ((rows.insertionSort fun a b => listingKey b ≤ listingKey a).take limit).map fun e => rowToTask e.1 e.2

def newTask (taskId userId : String) (now : Instant) : TaskRecord where
  taskId := taskId
  userId := userId
  status := .running
  message := "Task started"
  currentTask := ""
  progress := signinRules.defaultProgress
  times := ⟨.at now, .at now, .at now, .absent⟩
  logs := []
  failures := []
  logCursor := 0

/-- The critical section of `_record_admission_persist_failure`. -/
def recordPersistFailure (now : Instant) (task : TaskRecord) : TaskRecord :=
  withLogLine signinRules now taskPersistFailureMessage "error"
    ((failedWith taskPersistFailureMessage).apply now task)

/-- A public record as `list_tasks` shows it. -/
def listedTask (task : PublicTask) : PublicTask :=
  let startedAt := task.times.startedAt.parse.or
    (task.times.startTime.parse.or task.times.createdAt.parse)
  { task with
    times := { task.times with
      startedAt := (startedAt.map TimeField.at).getD task.times.startedAt
      updatedAt := match startedAt with
        | some time => task.times.updatedAt.or time
        | none => task.times.updatedAt } }

def sortTaskRecords (tasks : List PublicTask) : List PublicTask :=
  (tasks.insertionSort fun a b => a.taskId ≤ b.taskId).insertionSort
    fun a b => taskDatetime b.times ≤ taskDatetime a.times

/-- `_slice` of `get_task_logs`. -/
def sliceLogs (cursor : Option ℤ) (task : TaskRecord) : LogAnswer :=
  ⟨sliceFrom task.logs (signinRules.sliceStart cursor 0), task.logs.length⟩

variable {C : Type*} [DecidableEq C]

namespace State

def lives (s : State C) (taskId : String) (next : Life) : State C :=
  { s with life := Function.update s.life taskId next }

def goto (s : State C) (c : C) (next : Call) : State C :=
  { s with call := Function.update s.call c next }

/-- A write of `_persist_task_state`. -/
def upsert (s : State C) (snapshot : PublicTask) (outcome : Outcome) (now : Instant) : State C :=
  if outcome = .failed then s else { s with store := (s.store.upsertTask snapshot now).2 }

/-- A critical section of a worker on its record, and the snapshot it takes; without a record
nothing is written. -/
def mutate (s : State C) (taskId : String) (f : TaskRecord → TaskRecord)
    (next : Option PublicTask → Life) : State C :=
  let tasks := s.tasks.modify taskId f
  { s with tasks := tasks }.lives taskId (next ((tasks.get taskId).map TaskRecord.toPublicTask))

end State

/-- The critical section of `start_task`; `uuid4` is new. -/
def startTask (s : State C) (taskId userId : String) (payload : Payload) (now : Instant) :
    Option (State C) :=
  match s.life taskId, s.tasks.get taskId, s.store.rows.get taskId with
  | .unknown, none, none =>
    let tasks := cleanup s.tasks now
    if ∃ task ∈ tasks.values, strip task.userId = strip userId ∧ isActiveStatus task.status = true
    then some { s with tasks := tasks }
    else if maxActiveTasks ≤ countActiveTasks tasks then some { s with tasks := tasks }
    else
      let task := newTask taskId userId now
      some ({ s with tasks := cleanup (tasks.set taskId task) now }.lives taskId
        (.admitted payload task.toPublicTask))
  | _, _, _ => none

def Work.persisted (guarded settled : Bool) (work : Work) : Option PublicTask → Life
  | some snapshot => .persisting guarded settled snapshot work
  | none => .working guarded settled work

/-- A critical section of a worker: `_update_task` or `_append_task_log`. -/
def writeTask (s : State C) (taskId : String) (guarded settled : Bool) (now : Instant) :
    Work → Option (State C)
  | .update changes next =>
    some (s.mutate taskId (changes.apply now)
      (next.persisted guarded (settled || changes.status.any isTerminalStatus)))
  | .appendLog message level next =>
    some (s.mutate taskId (withLogLine signinRules now message level)
      (next.persisted guarded settled))
  | _ => none

/-- The rest of a load once the rows are merged. -/
def Request.merged : Request → Call
  | .listTasks userId => .closing (.listTasks userId)
  | .restore => .closing .restore
  | r => .answering r

/-- The first critical section of a reading call. -/
def look (s : State C) (c : C) (now : Instant) : Request → State C
  | .getTask userId taskId =>
    let tasks := cleanup s.tasks now
    match lookup tasks (strip userId) (strip taskId) with
    | some task => { s with tasks := tasks }.goto c (.done (.task (some task.toPublicTask)))
    | none => { s with tasks := tasks }.goto c (.reading (.getTask userId taskId))
  | .getTaskLogs userId taskId cursor =>
    let tasks := cleanup s.tasks now
    match lookup tasks (strip userId) (strip taskId) with
    | some task =>
      { s with tasks := tasks }.goto c (.done (.logs (some (sliceLogs cursor task))))
    | none => { s with tasks := tasks }.goto c (.reading (.getTaskLogs userId taskId cursor))
  | .listTasks userId =>
    s.goto c (if strip userId = "" ∨ strip userId ∈ s.loadedTaskUsers then .answering (.listTasks userId)
      else .reading (.listTasks userId))
  | .restore => s.goto c (.reading .restore)

/-- What a load reads from the store. -/
def readStore (store : TaskStore) : Request → List StoredTask
  | .getTask userId taskId | .getTaskLogs userId taskId _ =>
    if strip userId = "" ∨ strip taskId = "" then []
    else (store.getTask (strip taskId) (strip userId)).toList
  | .listTasks userId => listStoredTasks store (some (strip userId)) userTaskLoadLimit
  | .restore => listStoredTasks store none restoreLimit

/-- The last critical section of a reading call. -/
def answer (s : State C) (c : C) (now : Instant) : Request → State C
  | .getTask userId taskId =>
    s.goto c (.done (.task ((lookup s.tasks (strip userId) (strip taskId)).map TaskRecord.toPublicTask)))
  | .getTaskLogs userId taskId cursor =>
    let tasks := cleanup s.tasks now
    { s with tasks := tasks }.goto c (.done (.logs
      ((lookup tasks (strip userId) (strip taskId)).map (sliceLogs cursor))))
  | .listTasks userId =>
    let tasks := cleanup s.tasks now
    let listed := (tasks.values.filter fun task => task.userId = userId).map
      fun task => listedTask task.toPublicTask
    { s with tasks := tasks }.goto c (.done (.tasks (sortTaskRecords listed)))
  | .restore => s.goto c (.done .restored)

/-- `_loaded_task_users` after a load. -/
def Request.loads (users : List String) : Request → List String
  | .listTasks userId => strip userId :: users
  | _ => users

/-- A step of a reading call. -/
def proceed (s : State C) (c : C) (outcome : Outcome) (now : Instant) : Option (State C) :=
  match s.call c with
  | .idle | .done _ => none
  | .looking r => some (look s c now r)
  | .reading r =>
    some (s.goto c (.merging (if outcome = .failed then [] else readStore s.store r) r))
  | .merging [] r => some (s.goto c r.merged)
  | .merging (item :: items) r =>
    let known := (s.tasks.get (strip item.taskId)).isSome
    some (s.goto c (if strip item.taskId = "" ∨ strip item.userId = "" ∨ known = true
      then .merging items r else .inserting item items r))
  | .inserting item items r =>
    if (s.tasks.get (strip item.taskId)).isSome then some (s.goto c (.merging items r))
    else
      let task := mergedTask signinRules item now
      some ({ s with tasks := s.tasks.set (strip item.taskId) task }.goto c
        (if isInterrupted item.status then .writingBack task.toPublicTask items r
          else .merging items r))
  | .writingBack snapshot items r => some ((s.upsert snapshot outcome now).goto c (.merging items r))
  | .closing r =>
    some ({ s with
      tasks := cleanup s.tasks now
      loadedTaskUsers := r.loads s.loadedTaskUsers }.goto c (.answering r))
  | .answering r => some (answer s c now r)

def Call.ready : Call → Bool
  | .idle | .done _ => true
  | _ => false

def step (s : State C) : Action C → Option (State C)
  | .startTask taskId userId payload now => startTask s taskId userId payload now
  | .startClassTask taskId userId payload now =>
    startTask s taskId userId (classPayload payload) now
  | .persistNew taskId outcome now =>
    match s.life taskId with
    | .admitted payload snapshot =>
      let confirmed := outcome = .stored ∧ (s.store.upsertTask snapshot now).1 = true
      some ((s.upsert snapshot outcome now).lives taskId
        (if confirmed then .persisted payload else .unpersisted))
    | _ => none
  | .recordFailure taskId now =>
    match s.life taskId with
    | .unpersisted =>
      some (s.mutate taskId (recordPersistFailure now) fun
        | some snapshot => .compensating snapshot
        | none => .ended)
    | _ => none
  | .compensate taskId outcome now =>
    match s.life taskId with
    | .compensating snapshot => some ((s.upsert snapshot outcome now).lives taskId .ended)
    | _ => none
  | .startThread taskId failure =>
    match s.life taskId with
    | .persisted payload =>
      some (s.lives taskId (match failure with
        | none => .working true false (runTaskWorker payload)
        | some exception =>
          .working false false (failureWork (unexpectedWorkerErrorPrefix ++ ": " ++ exception))))
    | _ => none
  | .ask taskId answer =>
    match s.life taskId with
    | .working guarded settled work =>
      (work.answer answer).map fun next => s.lives taskId (.working guarded settled next)
    | _ => none
  | .write taskId now =>
    match s.life taskId with
    | .working guarded settled work => writeTask s taskId guarded settled now work
    | _ => none
  | .persist taskId outcome now =>
    match s.life taskId with
    | .persisting guarded settled snapshot work =>
      some ((s.upsert snapshot outcome now).lives taskId (.working guarded settled work))
    | _ => none
  | .crash taskId message =>
    match s.life taskId with
    | .working true settled _ =>
      some (s.lives taskId
        (.working false settled (failureWork (unexpectedWorkerErrorPrefix ++ ": " ++ message))))
    | _ => none
  | .finish taskId =>
    match s.life taskId with
    | .working _ _ .finished => some (s.lives taskId .ended)
    | _ => none
  | .request c r => if (s.call c).ready = true then some (s.goto c (.looking r)) else none
  | .proceed c outcome now => proceed s c outcome now

/-- A status that a manager may have written: a terminal one, or one that a restart interrupts. -/
def Written (status : TaskStatus) : Prop := isTerminalStatus status = true ∨ isInterrupted status = true

/-- A manager before it has read the store, whose rows are snapshots of earlier records. -/
def Start (s : State C) : Prop :=
  s.tasks = .empty ∧ (∀ taskId row, s.store.rows.get taskId = some row → Written row.status) ∧
    (∀ taskId, s.life taskId = .unknown) ∧ ∀ c, s.call c = .idle

def machine (C : Type*) [DecidableEq C] : Machine (State C) (Action C) := ⟨Start, step⟩

end UniversityHelper.SigninManager
