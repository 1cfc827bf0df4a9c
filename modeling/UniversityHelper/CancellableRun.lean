import UniversityHelper.Machine
import UniversityHelper.JobProcessor

/-! The whole of `JobProcessor.run`, with a stop that may be requested at any time: the loop of the
controller, the shutdown after it, and what every thread does when it finds that it should stop. -/
namespace UniversityHelper.CancellableRun
open JobProcessor (Attempt Batch ChapterTask PriorityQueue afterAttempt processTask)

/-- What the threads share; `stopRequested` is what the callback `should_stop` answers. -/
structure Shared where
  taskQueue : PriorityQueue
  retryQueue : PriorityQueue
  pendingRetries : ℕ
  drainLock : Bool
  runStop : Bool
  stopRequested : Bool
  task : ℕ → ChapterTask
  attempts : ℕ → ℕ
  failedTasks : List ℕ
  failureReports : List (ℕ × Bool)

/-- Where a thread stands in `_drain_pending_tasks_locked`. Nothing is ever put into `wait_queue`. -/
inductive DrainPhase
  | tasks
  | tasksDone
  | retries
  | retriesDone
  | retriesRelease

/-- `getting` is the `get` with its timeout, an `Empty` together with the look at the stop event after it;
`gotten` and `processed` are before the other looks, from `enlisting` to `unlocking` the worker is inside the
drain lock, `finishing` is before the `task_done` of its `finally`. -/
inductive WorkerPhase
  | getting
  | gotten (i : ℕ)
  | processing (i : ℕ)
  | processed (i : ℕ) (cancelled : Bool)
  | deciding (i : ℕ)
  | retrying (i : ℕ)
  | enlisting (i : ℕ)
  | announcing (i : ℕ)
  | putting (i : ℕ)
  | unlocking
  | finishing (last : Bool)

/-- `looking` and `asking` are the two parts of `stopping`; from `locked` to `unlocking`, and at
`abandoning`, the retry thread is inside the drain lock. -/
inductive RetryPhase
  | checking
  | doubting
  | getting
  | looking (i : ℕ)
  | asking (i : ℕ)
  | holding (i : ℕ) (stopping : Bool)
  | locked (i : ℕ) (stopping : Bool)
  | putting (i : ℕ)
  | releasing
  | unlocking
  | abandoning
  | marking (last : Bool)
  | sleeping

/-- From `promoting` to `unlocking` the controller is inside the drain lock of `_promote_retry_once`. -/
inductive ControllerPhase
  | starting
  | looping
  | promoting
  | promoted (i : ℕ)
  | putting (i : ℕ)
  | marking
  | releasing
  | unlocking
  | asking
  | checking
  | counted (pending : ℕ)
  | resting
  | stopping
  | joining
  | returned

/-- Where a thread is; the three last are a call of `_drain_pending_tasks` and what comes after it. -/
inductive Local
  | unstarted
  | ended
  | worker (phase : WorkerPhase)
  | retry (phase : RetryPhase)
  | controller (phase : ControllerPhase)
  | wanting (next : Local)
  | draining (phase : DrainPhase) (next : Local)
  | drained (next : Local)

def drainStep (s : Shared) (next : Local) : DrainPhase → Shared × Local
  | .tasks =>
    match s.taskQueue.get with
    | none => (s, .draining .retries next)
    | some (_, taskQueue) => ({ s with taskQueue := taskQueue }, .draining .tasksDone next)
  | .tasksDone => ({ s with taskQueue := s.taskQueue.taskDone }, .draining .tasks next)
  | .retries =>
    match s.retryQueue.get with
    | none => (s, .drained next)
    | some (_, retryQueue) => ({ s with retryQueue := retryQueue }, .draining .retriesDone next)
  | .retriesDone => ({ s with retryQueue := s.retryQueue.taskDone }, .draining .retriesRelease next)
  | .retriesRelease => ({ s with pendingRetries := s.pendingRetries - 1 }, .draining .retries next)

/-- `worker_thread`; `none` is an attempt that ends with `CANCELLED`, whose worker goes no further. -/
def workerStep (batch : Batch) (s : Shared) (outcome : Option Attempt) :
    WorkerPhase → Option (Shared × Local)
  | .getting =>
    match s.taskQueue.get with
    | none => some (s, if s.runStop then .ended else .worker .getting)
    | some (i, taskQueue) => some ({ s with taskQueue := taskQueue }, .worker (.gotten i))
  | .gotten i => some (s, .worker (if s.runStop then .finishing true else .processing i))
  | .processing i =>
    match outcome with
    | some attempt =>
      some ({ s with
        task := Function.update s.task i (processTask (s.task i) attempt)
        attempts := Function.update s.attempts i (s.attempts i + 1) }, .worker (.processed i false))
    | none =>
      if s.stopRequested then
        some ({ s with
          task := Function.update s.task i { s.task i with error := "", errorType := "" }
          attempts := Function.update s.attempts i (s.attempts i + 1) }, .worker (.processed i true))
      else none
  | .processed i cancelled =>
    some (s, if s.runStop then .worker (.finishing true)
      else if cancelled then .wanting (.worker (.finishing true))
      else .worker (.deciding i))
  | .deciding i =>
    let task := Function.update s.task i (afterAttempt batch (s.task i)).1
    match (afterAttempt batch (s.task i)).2 with
    | .settle => some ({ s with task := task }, .worker (.finishing false))
    | .giveUp =>
      some ({ s with
        task := task
        failedTasks := s.failedTasks ++ [i]
        failureReports := s.failureReports ++ [(i, true)] }, .worker (.finishing false))
    | .retry report =>
      some ({ s with
        task := task
        failureReports := if report then s.failureReports ++ [(i, false)] else s.failureReports },
        .worker (.retrying i))
  | .retrying i =>
    if s.drainLock then none else some ({ s with drainLock := true }, .worker (.enlisting i))
  | .enlisting i => some (s, .worker (if s.runStop then .unlocking else .announcing i))
  | .announcing i =>
    some ({ s with pendingRetries := s.pendingRetries + 1 }, .worker (.putting i))
  | .putting i => some ({ s with retryQueue := s.retryQueue.put i }, .worker .unlocking)
  | .unlocking => some ({ s with drainLock := false }, .worker (.finishing false))
  | .finishing last =>
    some ({ s with taskQueue := s.taskQueue.taskDone }, if last then .ended else .worker .getting)

def retryStep (s : Shared) : RetryPhase → Option (Shared × Local)
  | .checking => some (s, if s.runStop then .ended else .retry .doubting)
  | .doubting => some (s, if s.stopRequested then .wanting .ended else .retry .getting)
  | .getting =>
    match s.retryQueue.get with
    | none => some (s, .retry .checking)
    | some (i, retryQueue) => some ({ s with retryQueue := retryQueue }, .retry (.looking i))
  | .looking i => some (s, .retry (if s.runStop then .holding i true else .asking i))
  | .asking i => some (s, .retry (.holding i s.stopRequested))
  | .holding i stopping =>
    if s.drainLock then none else some ({ s with drainLock := true }, .retry (.locked i stopping))
  | .locked i stopping =>
    some (s, .retry (if stopping || s.runStop then .abandoning else .putting i))
  | .putting i => some ({ s with taskQueue := s.taskQueue.put i }, .retry .releasing)
  | .releasing => some ({ s with pendingRetries := s.pendingRetries - 1 }, .retry .unlocking)
  | .unlocking => some ({ s with drainLock := false }, .retry (.marking false))
  | .abandoning =>
    some ({ s with pendingRetries := s.pendingRetries - 1 }, .draining .tasks (.retry (.marking true)))
  | .marking last =>
    some ({ s with retryQueue := s.retryQueue.taskDone }, if last then .ended else .retry .sleeping)
  | .sleeping => some (s, if s.runStop then .ended else .retry .checking)

/-- `run` from the start of its threads on; `started` says that a worker has started, `joined` that every
thread that has started has ended. -/
def controllerStep (started joined : Bool) (s : Shared) : ControllerPhase → Option (Shared × Local)
  | .starting => if started then some (s, .controller .looping) else none
  | .looping =>
    if s.drainLock then none else some ({ s with drainLock := true }, .controller .promoting)
  | .promoting =>
    match s.retryQueue.get with
    | none => some (s, .controller .unlocking)
    | some (i, retryQueue) => some ({ s with retryQueue := retryQueue }, .controller (.promoted i))
  | .promoted i => some (s, .controller (if s.runStop then .marking else .putting i))
  | .putting i => some ({ s with taskQueue := s.taskQueue.put i }, .controller .marking)
  | .marking => some ({ s with retryQueue := s.retryQueue.taskDone }, .controller .releasing)
  | .releasing => some ({ s with pendingRetries := s.pendingRetries - 1 }, .controller .unlocking)
  | .unlocking => some ({ s with drainLock := false }, .controller .asking)
  | .asking =>
    some (s, if s.stopRequested then .wanting (.controller .checking) else .controller .checking)
  | .checking => some (s, .controller (.counted s.pendingRetries))
  | .counted pending =>
    some (s, .controller
      (if 0 < s.taskQueue.unfinishedTasks ∨ 0 < pending then .resting else .stopping))
  | .resting => some (s, .controller .looping)
  | .stopping => some ({ s with runStop := true }, .wanting (.controller .joining))
  | .joining => if joined then some (s, .wanting (.controller .returned)) else none
  | .returned => none

def threadStep (batch : Batch) (started joined : Bool) (s : Shared) (outcome : Option Attempt) :
    Local → Option (Shared × Local)
  | .unstarted => none
  | .ended => none
  | .worker phase => workerStep batch s outcome phase
  | .retry phase => retryStep s phase
  | .controller phase => controllerStep started joined s phase
  | .wanting next =>
    if s.drainLock then none else some ({ s with drainLock := true }, .draining .tasks next)
  | .draining phase next => some (drainStep s next phase)
  | .drained next => some ({ s with drainLock := false }, next)

inductive Thread (W : Type*)
  | worker (w : W)
  | retry
  | controller
  deriving DecidableEq, Fintype

structure State (W : Type*) where
  shared : Shared
  locals : Thread W → Local

inductive Action (W : Type*)
  | start (x : Thread W)
  | run (x : Thread W) (outcome : Option Attempt)
  | requestStop

def Local.isEnded : Local → Bool
  | .unstarted => true
  | .ended => true
  | _ => false

def Local.isStarted : Local → Bool
  | .unstarted => false
  | _ => true

def Thread.first {W : Type*} : Thread W → Local
  | .worker _ => .worker .getting
  | .retry => .retry .checking
  | .controller => .controller .starting

variable {W : Type*} [DecidableEq W] [Fintype W]

def State.started (s : State W) : Bool := decide (∃ w, (s.locals (.worker w)).isStarted = true)

def State.joined (s : State W) : Bool :=
  decide ((∀ w, (s.locals (.worker w)).isEnded = true) ∧ (s.locals .retry).isEnded = true)

def step (batch : Batch) (s : State W) : Action W → Option (State W)
  | .start x =>
    match s.locals .controller, s.locals x with
    | .controller .starting, .unstarted =>
      some { s with locals := Function.update s.locals x x.first }
    | _, _ => none
  | .run x outcome =>
    (threadStep batch s.started s.joined s.shared outcome (s.locals x)).map fun (shared, next) =>
      ⟨shared, Function.update s.locals x next⟩
  | .requestStop => some { s with shared := { s.shared with stopRequested := true } }

def newShared (batch : Batch) (stopRequested : Bool) : Shared where
  taskQueue := batch.chapters.foldl PriorityQueue.put ⟨[], 0⟩
  retryQueue := ⟨[], 0⟩
  pendingRetries := 0
  drainLock := false
  runStop := false
  stopRequested := stopRequested
  task _ := {}
  attempts _ := 0
  failedTasks := []
  failureReports := []

/-- The threads start while the controller is `starting`; some of them may fail to. -/
def machine (W : Type*) [DecidableEq W] [Fintype W] (batch : Batch) : Machine (State W) (Action W) where
  start s := (∃ stopRequested, s.shared = newShared batch stopRequested) ∧
    s.locals .controller = .controller .starting ∧ ∀ x, x ≠ .controller → s.locals x = .unstarted
  step := step batch

end UniversityHelper.CancellableRun
