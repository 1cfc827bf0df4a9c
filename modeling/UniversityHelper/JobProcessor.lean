import UniversityHelper.Machine

/-! The threaded run of `JobProcessor`: worker threads that attempt chapters, the retry thread
and the controller loop that put failed chapters back, and the two counters the controller
reads, up to the moment it leaves its loop. Nothing asks the run to stop. -/
namespace UniversityHelper.JobProcessor

/-- `CANCELLED` is left out: it is the result of an attempt that was asked to stop. -/
inductive ChapterResult
  | success
  | error
  | notOpen
  | pending
  deriving DecidableEq

/-- How one call of `process_chapter` ends. -/
inductive Attempt
  | success
  | notOpen
  | error
  | raised (error errorType : String)
  deriving DecidableEq

structure ChapterTask where
  result : ChapterResult := .pending
  tries : ℕ := 0
  error : String := ""
  errorType : String := ""
  deriving DecidableEq

/-- A batch of chapters, named by their indices, and what each attempt of each of them meets. -/
structure Batch where
  chapters : List ℕ
  distinct : chapters.Nodup
  notopenAction : String
  attempt : ℕ → ℕ → Attempt

def maxTries : ℕ := 5

def processTask (task : ChapterTask) : Attempt → ChapterTask
  | .success => { task with result := .success, error := "", errorType := "" }
  | .notOpen => { task with result := .notOpen, error := "", errorType := "" }
  | .error => { task with result := .error, error := "", errorType := "" }
  | .raised error errorType => { task with result := .error, error := error, errorType := errorType }

/-- What a thread does with a chapter after an attempt. -/
inductive Decision
  | settle
  | giveUp
  | retry (report : Bool)
  deriving DecidableEq

def countFailure (task : ChapterTask) : ChapterTask × Decision :=
  let task := { task with tries := task.tries + 1 }
  if maxTries ≤ task.tries then (task, .giveUp) else (task, .retry (task.tries = 1))

/-- `match task.result` of `worker_thread`. -/
def afterAttempt (batch : Batch) (task : ChapterTask) : ChapterTask × Decision :=
  match task.result with
  | .success => (task, .settle)
  | .notOpen => if batch.notopenAction = "continue" then (task, .settle) else countFailure task
  | .error => countFailure task
  | .pending => (task, .giveUp)

/-- `queue.PriorityQueue`, its items in the order in which they are got. -/
structure PriorityQueue where
  items : List ℕ
  unfinishedTasks : ℕ

namespace PriorityQueue

def put (q : PriorityQueue) (i : ℕ) : PriorityQueue :=
  ⟨q.items.orderedInsert (· ≤ ·) i, q.unfinishedTasks + 1⟩

def get (q : PriorityQueue) : Option (ℕ × PriorityQueue) :=
  match q.items with
  | [] => none
  | i :: rest => some (i, { q with items := rest })

/-- The `ValueError` of a call too many is caught, or never raised. -/
def taskDone (q : PriorityQueue) : PriorityQueue :=
  { q with unfinishedTasks := q.unfinishedTasks - 1 }

end PriorityQueue

/-- Where a worker stands: `enlisting`, `putting` and `unlocking` are inside the drain lock of
`_enqueue_retry`, `finishing` is before the `task_done` of its `finally`. -/
inductive WorkerPhase
  | unstarted
  | getting
  | processing (i : ℕ)
  | deciding (i : ℕ)
  | retrying (i : ℕ)
  | enlisting (i : ℕ)
  | putting (i : ℕ)
  | unlocking
  | finishing
  deriving DecidableEq

/-- Where the retry thread stands: from `locked` to `unlocking` inside the drain lock. -/
inductive RetryPhase
  | unstarted
  | getting
  | holding (i : ℕ)
  | locked (i : ℕ)
  | releasing
  | unlocking
  | marking
  | sleeping
  deriving DecidableEq

/-- Where the controller stands: from `promoting` to `unlocking` inside the drain lock of
`_promote_retry_once`, `counted` between the two reads of `_has_outstanding_work`. -/
inductive ControllerPhase
  | starting
  | looping
  | promoting
  | promoted (i : ℕ)
  | marking
  | releasing
  | unlocking
  | checking
  | counted (pending : ℕ)
  | resting
  | left
  deriving DecidableEq

/-- `attempts` counts the calls of `process_chapter`, `failureReports` records those of
`chapter_failure_callback` with their `final` flag. -/
structure State (W : Type*) where
  taskQueue : PriorityQueue
  retryQueue : PriorityQueue
  pendingRetries : ℕ
  drainLock : Bool
  task : ℕ → ChapterTask
  attempts : ℕ → ℕ
  failedTasks : List ℕ
  failureReports : List (ℕ × Bool)
  worker : W → WorkerPhase
  retry : RetryPhase
  controller : ControllerPhase

inductive Action (W : Type*)
  | startWorker (w : W)
  | startRetry
  | work (w : W)
  | retry
  | control

variable {W : Type*} [DecidableEq W]

def State.goto (s : State W) (w : W) (next : WorkerPhase) : State W :=
  { s with worker := Function.update s.worker w next }

/-- `worker_thread` with `_enqueue_retry` and `_give_up`. -/
def workerStep (batch : Batch) (s : State W) (w : W) : Option (State W) :=
  match s.worker w with
  | .unstarted => none
  | .getting =>
    match s.taskQueue.get with
    | none => none
    | some (i, taskQueue) => some { s.goto w (.processing i) with taskQueue := taskQueue }
  | .processing i =>
    some { s.goto w (.deciding i) with
      task := Function.update s.task i
        (processTask (s.task i) (batch.attempt i (s.attempts i + 1)))
      attempts := Function.update s.attempts i (s.attempts i + 1) }
  | .deciding i =>
    let task := Function.update s.task i (afterAttempt batch (s.task i)).1
    match (afterAttempt batch (s.task i)).2 with
    | .settle => some { s.goto w .finishing with task := task }
    | .giveUp =>
      some { s.goto w .finishing with
        task := task
        failedTasks := s.failedTasks ++ [i]
        failureReports := s.failureReports ++ [(i, true)] }
    | .retry report =>
      some { s.goto w (.retrying i) with
        task := task
        failureReports := if report then s.failureReports ++ [(i, false)] else s.failureReports }
  | .retrying i =>
    if s.drainLock then none else some { s.goto w (.enlisting i) with drainLock := true }
  | .enlisting i => some { s.goto w (.putting i) with pendingRetries := s.pendingRetries + 1 }
  | .putting i => some { s.goto w .unlocking with retryQueue := s.retryQueue.put i }
  | .unlocking => some { s.goto w .finishing with drainLock := false }
  | .finishing => some { s.goto w .getting with taskQueue := s.taskQueue.taskDone }

def retryStep (s : State W) : Option (State W) :=
  match s.retry with
  | .unstarted => none
  | .getting =>
    match s.retryQueue.get with
    | none => none
    | some (i, retryQueue) => some { s with retry := .holding i, retryQueue := retryQueue }
  | .holding i =>
    if s.drainLock then none else some { s with retry := .locked i, drainLock := true }
  | .locked i => some { s with retry := .releasing, taskQueue := s.taskQueue.put i }
  | .releasing => some { s with retry := .unlocking, pendingRetries := s.pendingRetries - 1 }
  | .unlocking => some { s with retry := .marking, drainLock := false }
  | .marking => some { s with retry := .sleeping, retryQueue := s.retryQueue.taskDone }
  | .sleeping => some { s with retry := .getting }

/-- The loop of `run` with `_promote_retry_once` and `_has_outstanding_work`. -/
def controllerStep [Fintype W] (s : State W) : Option (State W) :=
  match s.controller with
  | .starting =>
    if ∃ w, s.worker w ≠ .unstarted then some { s with controller := .looping } else none
  | .looping =>
    if s.drainLock then none else some { s with controller := .promoting, drainLock := true }
  | .promoting =>
    match s.retryQueue.get with
    | none => some { s with controller := .unlocking }
    | some (i, retryQueue) => some { s with controller := .promoted i, retryQueue := retryQueue }
  | .promoted i => some { s with controller := .marking, taskQueue := s.taskQueue.put i }
  | .marking => some { s with controller := .releasing, retryQueue := s.retryQueue.taskDone }
  | .releasing => some { s with controller := .unlocking, pendingRetries := s.pendingRetries - 1 }
  | .unlocking => some { s with controller := .checking, drainLock := false }
  | .checking => some { s with controller := .counted s.pendingRetries }
  | .counted pending =>
    if 0 < s.taskQueue.unfinishedTasks ∨ 0 < pending then some { s with controller := .resting }
    else some { s with controller := .left }
  | .resting => some { s with controller := .looping }
  | .left => none

def step [Fintype W] (batch : Batch) (s : State W) : Action W → Option (State W)
  | .startWorker w =>
    if s.controller = .starting ∧ s.worker w = .unstarted then some (s.goto w .getting) else none
  | .startRetry =>
    if s.controller = .starting ∧ s.retry = .unstarted then some { s with retry := .getting }
    else none
  | .work w => workerStep batch s w
  | .retry => retryStep s
  | .control => controllerStep s

/-- The threads start while the controller is `starting`; some of them may fail to. -/
def machine (W : Type*) [DecidableEq W] [Fintype W] (batch : Batch) :
    Machine (State W) (Action W) where
  start s := s.taskQueue = batch.chapters.foldl PriorityQueue.put ⟨[], 0⟩ ∧
    s.retryQueue = ⟨[], 0⟩ ∧ s.pendingRetries = 0 ∧ s.drainLock = false ∧ (∀ i, s.task i = {}) ∧
    (∀ i, s.attempts i = 0) ∧ s.failedTasks = [] ∧ s.failureReports = [] ∧
    (∀ w, s.worker w = .unstarted) ∧ s.retry = .unstarted ∧ s.controller = .starting
  step := step batch

end UniversityHelper.JobProcessor
