import UniversityHelper.Machine
import UniversityHelper.LearningTask

/-! `ChaoxingLearningManager` with its worker threads, the callbacks they pass to
`JobProcessor`, and the job threads that `process_chapter` may leave running: every step is one
critical section of the manager lock or one look at an event. -/
namespace UniversityHelper.LearningManager
open TaskAdmission TaskManager

def unexpectedWorkerErrorPrefix : String := "Unexpected task failure"

/-- The record a load puts into the registry. -/
def mergedLearningTask (item : StoredTask) (now : Instant) (pauseEvent stopEvent : EventId) :
    LearningTask :=
  { mergedTask learningRules item now with
    lastProgressPersistTs := 0
    pauseEvent := pauseEvent
    stopEvent := stopEvent }

/-- The rows of the store are snapshots of records, so it holds no other status. -/
def storable : TaskStatus → Bool
  | .other _ => false
  | _ => true

structure Clock where
  now : Instant
  monotonic : Instant

/-- What a run reports about a task without touching its status. -/
inductive Report
  | log (message level : String)
  | progress (updates : List (String × ProgressValue))
  | increase (key : String) (delta : ℤ)
  | failure (course chapter reason hint : String)
  | currentTask (text : String)

def Report.mutation : Report → Mutation
  | .log message level => .appendTaskLog message level
  | .progress updates => .updateProgress updates
  | .increase key delta => .increaseProgress key delta
  | .failure course chapter reason hint => .recordFailure course chapter reason hint
  | .currentTask text => .updateTask ⟨none, none, some text⟩

/-- The control events a worker read from the record, and where it is in its courses. -/
structure CourseRun where
  pauseEvent : EventId
  stopEvent : EventId
  courses : List String
  index : ℕ
  failed : ℕ

def CourseRun.next (run : CourseRun) (failures : ℕ) : CourseRun :=
  { run with index := run.index + 1, failed := run.failed + failures }

/-- Where a thread stands in `_wait_for_resume`: before the two looks at the events of its loop,
before the update in it, before the look after it. -/
inductive WaitPhase
  | checkStop
  | checkPause
  | update
  | recheck
  deriving DecidableEq

/-- The next phase, or what `_wait_for_resume` returns. -/
def waitForResume (isSet : EventId → Bool) (pauseEvent stopEvent : EventId) :
    WaitPhase → WaitPhase ⊕ Bool
  | .checkStop => .inl (if isSet stopEvent then .recheck else .checkPause)
  | .checkPause => .inl (if isSet pauseEvent then .recheck else .update)
  | .update => .inl .checkStop
  | .recheck => .inr !isSet stopEvent

def pausedChanges : Changes := ⟨some .paused, some "Task paused", some "paused"⟩

/-- A task id from its admission, or its load from the store, to the end of its worker. The call
of `start_task` is under way up to `persisted`; the worker is there from `ready` on; `failing`,
`cancelling` and `finishing` are before the last status is written, `logging` after it. -/
inductive Life
  | unknown
  | stored
  | admitted
  | unpersisted
  | persisted
  | ready
  | controlling
  | connecting (run : CourseRun)
  | preparing (run : CourseRun)
  | course (run : CourseRun)
  | waiting (run : CourseRun) (phase : WaitPhase)
  | announcing (run : CourseRun)
  | fetching (run : CourseRun)
  | studying (run : CourseRun)
  | studied (run : CourseRun)
  | concluding (run : CourseRun)
  | failing (message : String)
  | cancelling
  | finishing (failed : ℕ)
  | logging (message level : String)
  | notifying
  | returned

/-- Inside `_run_task_worker_guarded`, outside the `try` around `JobProcessor.run`. -/
def Life.guarded : Life → Bool
  | .unknown | .stored | .admitted | .unpersisted | .persisted | .studying _ | .returned => false
  | _ => true

inductive Role
  | chapter (title : String)
  | video

/-- Where a thread of `JobProcessor` stands in a callback: `chapter_start_callback` for a thread
that runs a chapter, `video_progress_callback` for one that runs a job. -/
inductive CallbackPhase
  | working
  | entered
  | checkingPause
  | waiting (phase : WaitPhase)
  | reporting

/-- `joined` threads end before `JobProcessor.run` returns; a job thread is no longer joined once
`process_chapter` has shut its executor down without waiting. -/
structure JobThread where
  taskId : String
  pauseEvent : EventId
  stopEvent : EventId
  role : Role
  joined : Bool
  phase : CallbackPhase

def joins (taskId : String) (thread : Option JobThread) : Bool :=
  thread.any fun thread => thread.joined && thread.taskId = taskId

inductive ControlKind
  | pause
  | resume
  | stop

/-- A caller in `pause_task`, `resume_task` or `stop_task`. -/
inductive ControlCall
  | idle
  | finding (kind : ControlKind) (userId taskId : String)
  | loading (kind : ControlKind) (userId taskId : String)
  | applying (kind : ControlKind) (userId taskId : String)
  | logging (taskId message level : String)

structure State (C J : Type*) where
  tasks : OrderedDict String LearningTask
  isSet : EventId → Bool
  nextEvent : EventId
  life : String → Life
  job : J → Option JobThread
  call : C → ControlCall

/-- What the code outside the manager answers at a step of a worker or of a callback. -/
inductive Input
  | go
  | selected (courses : List String)
  | fails (message : String)
  | raises (message : String)
  | reports (report : Report)

inductive Action (C J : Type*)
  | startTask (taskId userId : String) (clock : Clock)
  | launch (taskId : String) (ok : Bool) (clock : Clock)
  | work (taskId : String) (input : Input) (clock : Clock)
  | startJob (j : J) (taskId : String) (role : Role)
  | job (j : J) (input : Input) (clock : Clock)
  | abandon (j : J)
  | endJob (j : J)
  | control (c : C) (kind : ControlKind) (userId taskId : String)
  | proceed (c : C) (stored : Option StoredTask) (clock : Clock)
  | cleanup (now : Instant)
  | merge (item : StoredTask) (now : Instant)

variable {C J : Type*} [DecidableEq C] [DecidableEq J]

namespace State

def mutate (s : State C J) (taskId : String) (m : Mutation) (clock : Clock) : State C J :=
  { s with tasks := s.tasks.modify taskId fun task => (m.apply clock.now clock.monotonic task).1 }

def lives (s : State C J) (taskId : String) (next : Life) : State C J :=
  { s with life := Function.update s.life taskId next }

def runs (s : State C J) (j : J) (thread : Option JobThread) : State C J :=
  { s with job := Function.update s.job j thread }

def goto (s : State C J) (c : C) (next : ControlCall) : State C J :=
  { s with call := Function.update s.call c next }

def setEvent (s : State C J) (event : EventId) (value : Bool) : State C J :=
  { s with isSet := Function.update s.isSet event value }

/-- Two new events: a set one to pause with, a clear one to stop with. -/
def withEvents (s : State C J) : State C J :=
  { s with
    isSet := Function.update (Function.update s.isSet s.nextEvent true) (s.nextEvent + 1) false
    nextEvent := s.nextEvent + 2 }

end State

/-- The admission of `start_task`; `uuid4` is new. -/
def startTask (s : State C J) (taskId userId : String) (now : Instant) : Option (State C J) :=
  match s.life taskId with
  | .unknown =>
    let tasks := cleanup s.tasks now
    if ∃ task ∈ tasks.values, strip task.userId = strip userId ∧ isActiveStatus task.status = true
    then some { s with tasks := tasks }
    else if maxActiveTasks ≤ countActiveTasks tasks then some { s with tasks := tasks }
    else
      let task := newTask taskId userId now s.nextEvent (s.nextEvent + 1)
      some (({ s with tasks := cleanup (tasks.set taskId task) now }.withEvents).lives taskId
        .admitted)
  | _ => none

/-- The rest of `start_task`: the outcome of its store write, then of its thread start. -/
def launch (s : State C J) (taskId : String) (ok : Bool) (clock : Clock) : Option (State C J) :=
  match s.life taskId with
  | .admitted => some (s.lives taskId (if ok then .persisted else .unpersisted))
  | .unpersisted => some ((s.mutate taskId .recordAdmissionPersistFailure clock).lives taskId .returned)
  | .persisted => some (s.lives taskId (if ok then .ready else .failing threadStartFailureMessage))
  | _ => none

/-- `_merge_task_from_store`. -/
def mergeTask (s : State C J) (item : StoredTask) (now : Instant) : State C J :=
  let taskId := strip item.taskId
  if taskId = "" ∨ strip item.userId = "" ∨ (s.tasks.get taskId).isSome = true then s
  else
    let task := mergedLearningTask item now s.nextEvent (s.nextEvent + 1)
    let life := match s.life taskId with
      | .unknown => Life.stored
      | life => life
    ({ s with tasks := s.tasks.set taskId task }.withEvents).lives taskId life

/-- The last critical section of the three control calls, on the record it finds. -/
def applyControl (s : State C J) (c : C) (kind : ControlKind) (taskId : String)
    (task : LearningTask) (clock : Clock) : State C J :=
  match kind with
  | .pause =>
    if isFinished task.status = true then s.goto c .idle
    else ((s.setEvent task.pauseEvent false).mutate (strip taskId) .pauseTask clock).goto c
      (.logging taskId "Task paused" "warning")
  | .resume =>
    if isFinished task.status = true then s.goto c .idle
    else ((s.setEvent task.pauseEvent true).mutate (strip taskId) .resumeTask clock).goto c
      (.logging taskId "Task resumed" "info")
  | .stop =>
    (((s.setEvent task.stopEvent true).setEvent task.pauseEvent true).mutate (strip taskId)
      .stopTask clock).goto c (.logging taskId "Task cancellation requested" "warning")

/-- `pause_task`, `resume_task` and `stop_task`; `stored` is what a load finds. -/
def controlStep (s : State C J) (c : C) (stored : Option StoredTask) (clock : Clock) :
    Option (State C J) :=
  match s.call c with
  | .idle => none
  | .finding kind userId taskId =>
    let found := (s.tasks.get (strip taskId)).any fun task => task.userId = strip userId
    some (s.goto c (if found then .applying kind userId taskId else .loading kind userId taskId))
  | .loading kind userId taskId =>
    match stored with
    | some item =>
      if storable item.status then
        some ((mergeTask s item clock.now).goto c (.applying kind userId taskId))
      else none
    | none => some (s.goto c (.applying kind userId taskId))
  | .applying kind userId taskId =>
    match (s.tasks.get (strip taskId)).filter fun task => task.userId = strip userId with
    | some task => some (applyControl s c kind taskId task clock)
    | none => some (s.goto c .idle)
  | .logging taskId message level =>
    some ((s.mutate taskId (.appendTaskLog message level) clock).goto c .idle)

/-- `_run_task_worker` inside `_run_task_worker_guarded`. -/
def workerStep [Fintype J] (s : State C J) (taskId : String) (input : Input) (clock : Clock) :
    Option (State C J) :=
  match input, s.life taskId with
  | .reports report, life =>
    if life.guarded then some (s.mutate taskId report.mutation clock) else none
  | .raises message, .studying run =>
    if ∀ j, joins taskId (s.job j) = false then
      some ((s.mutate taskId (.appendTaskLog message "error") clock).lives taskId
        (.course (run.next 1)))
    else none
  | .raises message, life =>
    if life.guarded then
      some (s.lives taskId (.failing (unexpectedWorkerErrorPrefix ++ ": " ++ message)))
    else none
  | .fails message, .ready => some (s.lives taskId (.failing message))
  | .go, .ready => some (s.lives taskId .controlling)
  | .go, .controlling =>
    match s.tasks.get taskId with
    | some task => some (s.lives taskId (.connecting ⟨task.pauseEvent, task.stopEvent, [], 0, 0⟩))
    | none => some (s.lives taskId .returned)
  | .go, .connecting run =>
    some ((s.mutate taskId
      (.updateTask ⟨some .running, some "Logging in to Chaoxing", some "login"⟩) clock).lives
        taskId (.preparing run))
  | .fails message, .preparing _ => some (s.lives taskId (.failing message))
  | .selected courses, .preparing run =>
    if courses = [] then none else some (s.lives taskId (.course { run with courses := courses }))
  | .go, .course run =>
    if run.index < run.courses.length then
      some (s.lives taskId (if s.isSet run.stopEvent then .cancelling else .waiting run .checkStop))
    else some (s.lives taskId (.concluding run))
  | .go, .waiting run phase =>
    match waitForResume s.isSet run.pauseEvent run.stopEvent phase with
    | .inr resumed => some (s.lives taskId (if resumed then .announcing run else .cancelling))
    | .inl next =>
      if phase = .update then
        some ((s.mutate taskId (.updateTask pausedChanges) clock).lives taskId (.waiting run next))
      else some (s.lives taskId (.waiting run next))
  | .go, .announcing run =>
    let message := "Learning course " ++ toString (run.index + 1) ++ "/" ++
      toString run.courses.length
    some ((s.mutate taskId (.updateTask ⟨some .running, some message,
      some ("course:" ++ run.courses.getD run.index "")⟩) clock).lives taskId (.fetching run))
  | .fails message, .fetching run =>
    some ((s.mutate taskId (.appendTaskLog message "error") clock).lives taskId
      (.course (run.next 1)))
  | .go, .fetching run => some (s.lives taskId (.studying run))
  | .go, .studying run =>
    if ∀ j, joins taskId (s.job j) = false then some (s.lives taskId (.studied run)) else none
  | .go, .studied run =>
    some (s.lives taskId (if s.isSet run.stopEvent then .cancelling else .course (run.next 0)))
  | .fails _, .studied run =>
    some (s.lives taskId (if s.isSet run.stopEvent then .cancelling else .course (run.next 1)))
  | .go, .concluding run =>
    some (s.lives taskId (if s.isSet run.stopEvent then .cancelling else .finishing run.failed))
  | .go, .failing message =>
    some ((s.mutate taskId (.updateTask ⟨some .failed, some message, some "failed"⟩) clock).lives
      taskId (.logging message "error"))
  | .go, .cancelling =>
    some ((s.mutate taskId
      (.updateTask ⟨some .cancelled, some "Task cancelled by user", some "cancelled"⟩) clock).lives
        taskId (.logging "Task cancelled by user" "warning"))
  | .go, .finishing failed =>
    if 0 < failed then
      let summary := "Task finished with failures (" ++ toString failed ++ " failed courses)"
      some ((s.mutate taskId
        (.updateTask ⟨some .failed, some summary, some "finished"⟩) clock).lives taskId
          (.logging "Task finished with failures" "warning"))
    else
      some ((s.mutate taskId
        (.updateTask ⟨some .completed, some "Task completed", some "finished"⟩) clock).lives taskId
          (.logging "Task completed" "success"))
  | .go, .logging message level =>
    some ((s.mutate taskId (.appendTaskLog message level) clock).lives taskId .notifying)
  | .go, .notifying => some (s.lives taskId .returned)
  | _, _ => none

/-- The callbacks that `_run_task_worker` passes to `JobProcessor`. -/
def jobStep (s : State C J) (j : J) (input : Input) (clock : Clock) : Option (State C J) :=
  match s.job j with
  | none => none
  | some thread =>
    let goto := fun phase => s.runs j (some { thread with phase := phase })
    match input, thread.phase with
    | .reports report, _ => some (s.mutate thread.taskId report.mutation clock)
    | .go, .working => some (goto .entered)
    | .go, .entered =>
      some (goto (if s.isSet thread.stopEvent then .working else .checkingPause))
    | .go, .checkingPause =>
      some (goto (if s.isSet thread.pauseEvent then .reporting else .waiting .checkStop))
    | .go, .waiting phase =>
      match waitForResume s.isSet thread.pauseEvent thread.stopEvent phase with
      | .inr _ => some (goto .reporting)
      | .inl next =>
        if phase = .update then
          some ((s.mutate thread.taskId (.updateTask pausedChanges) clock).runs j
            (some { thread with phase := .waiting next }))
        else some (goto (.waiting next))
    | .go, .reporting =>
      match thread.role with
      | .chapter title =>
        some ((s.mutate thread.taskId (.updateTask ⟨none, none, some ("chapter:" ++ title)⟩)
          clock).runs j (some { thread with phase := .working }))
      | .video => some (goto .working)
    | _, _ => none

def step [Fintype J] (s : State C J) : Action C J → Option (State C J)
  | .startTask taskId userId clock => startTask s taskId userId clock.now
  | .launch taskId ok clock => launch s taskId ok clock
  | .work taskId input clock => workerStep s taskId input clock
  | .startJob j taskId role =>
    match s.job j, s.life taskId with
    | none, .studying run =>
      some (s.runs j (some ⟨taskId, run.pauseEvent, run.stopEvent, role, true, .working⟩))
    | _, _ => none
  | .job j input clock => jobStep s j input clock
  | .abandon j =>
    match s.job j with
    | some thread =>
      match thread.role with
      | .video => some (s.runs j (some { thread with joined := false }))
      | .chapter _ => none
    | none => none
  | .endJob j =>
    match s.job j with
    | some thread =>
      match thread.phase with
      | .working => some (s.runs j none)
      | _ => none
    | none => none
  | .control c kind userId taskId =>
    match s.call c with
    | .idle => some (s.goto c (.finding kind userId taskId))
    | _ => none
  | .proceed c stored clock => controlStep s c stored clock
  | .cleanup now => some { s with tasks := cleanup s.tasks now }
  | .merge item now => if storable item.status then some (mergeTask s item now) else none

/-- A manager before it reads anything from the store. -/
def machine (C J : Type*) [DecidableEq C] [DecidableEq J] [Fintype J] :
    Machine (State C J) (Action C J) where
  start s := s.tasks = OrderedDict.empty ∧ (∀ taskId, s.life taskId = .unknown) ∧
    (∀ j, s.job j = none) ∧ ∀ c, s.call c = .idle
  step := step

end UniversityHelper.LearningManager
