import UniversityHelper.Machine
import UniversityHelper.VideoStudy

/-! One call of `process_chapter` with its `ThreadPoolExecutor`: the calling thread, the threads of
the pool and the futures of the jobs, which are named by their place in the list. -/
namespace UniversityHelper.ChapterCall
open VideoStudy (StudyResult)

def StudyResult.isFailure : StudyResult → Bool
  | .forbidden => true
  | .error => true
  | .timeout => true
  | .success => false
  | .cancelled => false

/-- How one call of `process_job` ends. -/
inductive Outcome
  | ends (result : StudyResult)
  | raises
  deriving DecidableEq

/-- `PENDING` is left out: no call returns it. -/
inductive ChapterResult
  | success
  | error
  | notOpen
  | cancelled
  deriving DecidableEq

/-- How the call ends. -/
inductive Ending
  | returned (result : ChapterResult)
  | raised
  deriving DecidableEq

/-- What the call finds: the chapter is marked finished, `get_job_list` raises or answers
`({}, {})`, the chapter is not open, or there is a list of so many jobs. -/
inductive Chapter
  | finished
  | unreachable
  | unlisted
  | notOpen
  | jobs (count : ℕ)
  deriving DecidableEq

inductive FutureState
  | unsubmitted
  | pending
  | running
  | cancelled
  | finished (outcome : Outcome)
  deriving DecidableEq

/-- Whether the job of a future is in a thread's hands, or was. -/
def FutureState.taken : FutureState → Bool
  | .running => true
  | .finished _ => true
  | _ => false

inductive Told
  | chapterStart
  | chapterDone
  deriving DecidableEq

/-- Where the calling thread stands. `falling` and `leaving` cancel futures one by one, `inlining` and
`running` are in `_process_jobs_inline`, `draining` and `joining` in `executor.shutdown`; `none` is
the end of the `try` block with no `return`. -/
inductive Phase
  | starting
  | listing
  | submitting (next : ℕ)
  | falling (rest : Finset ℕ)
  | inlining (next : ℕ)
  | running (job : ℕ)
  | waiting
  | collecting (done : Finset ℕ)
  | leaving (result : ChapterResult) (rest : Finset ℕ)
  | draining (ending : Option Ending)
  | joining (ending : Option Ending)
  | reporting
  | ended (ending : Ending)
  deriving DecidableEq

/-- The pool has `threads` threads; `resting` of them have run an item and not yet released the
idle semaphore, which stands at `idle`. `started` and `succeeded` list the calls of `process_job`
that were begun, and those that returned `SUCCESS`. -/
structure Call where
  phase : Phase
  fastShutdown : Bool
  fellBack : Bool
  pending : Finset ℕ
  jobResults : List StudyResult
  workQueue : List ℕ
  future : ℕ → FutureState
  threads : ℕ
  resting : ℕ
  idle : ℕ
  started : List ℕ
  succeeded : List ℕ
  told : List Told

def maxWorkers : ℕ := 5

def Call.begin : Call where
  phase := .starting
  fastShutdown := false
  fellBack := false
  pending := ∅
  jobResults := []
  workQueue := []
  future := fun _ => .unsubmitted
  threads := 0
  resting := 0
  idle := 0
  started := []
  succeeded := []
  told := []

/-- The steps of the calling thread, and from `take` on those of a thread of the pool; `stop` is
what `should_stop` answers. -/
inductive Action
  | start
  | list (stop : Bool)
  | submit (fails : Bool)
  | submitted
  | cancel (job : ℕ)
  | fallBack
  | inline (stop : Bool)
  | inlineEnds (outcome : Outcome)
  | wait (stop : Bool) (done : Finset ℕ)
  | collect (job : ℕ)
  | collected
  | leave
  | drain
  | join
  | report
  | take
  | finish (job : ℕ) (outcome : Outcome)
  | rest
  deriving DecidableEq

namespace Call

def goto (s : Call) (next : Phase) : Call := { s with phase := next }

/-- `future.cancel()`. -/
def cancel (s : Call) (job : ℕ) : Call :=
  if s.future job = .pending then { s with future := Function.update s.future job .cancelled } else s

/-- What `submit` does before it looks at the threads. -/
def enqueue (s : Call) (job : ℕ) : Call :=
  { s with workQueue := s.workQueue ++ [job], future := Function.update s.future job .pending }

/-- `pending.add(executor.submit(…))`. A thread is started where none is idle and there are fewer
than `max_workers`; where that fails, the job is in the queue and its future is lost. -/
def submit (s : Call) (next : ℕ) (fails : Bool) : Option Call :=
  let queued := { s.enqueue next with
    phase := .submitting (next + 1)
    pending := insert next s.pending }
  if 0 < s.idle then if fails then none else some { queued with idle := s.idle - 1 }
  else if s.threads < maxWorkers then
    if fails then
      some { s.enqueue next with phase := .falling s.pending, fastShutdown := true, fellBack := true }
    else some { queued with threads := s.threads + 1 }
  else if fails then none
  else some queued

/-- `return`, or the end of the `try` block, after the `finally`. -/
def close (s : Call) : Option Ending → Call
  | some ending => s.goto (.ended ending)
  | none =>
    match s.jobResults.find? fun result => result = .cancelled ∨ StudyResult.isFailure result with
    | some .cancelled => s.goto (.ended (.returned .cancelled))
    | some _ => s.goto (.ended (.returned .error))
    | none => s.goto .reporting

/-- The `finally` of the pool: `shutdown(wait=not fast_shutdown, cancel_futures=fast_shutdown)`. -/
def shutdown (s : Call) (ending : Option Ending) : Call :=
  s.goto (if s.fastShutdown then .draining ending else .joining ending)

/-- The early exits of the waiting loop. -/
def leaveEarly (s : Call) (result : ChapterResult) : Call :=
  { s with phase := .leaving result s.pending, fastShutdown := true }

/-- The threads of the pool that run a job. -/
def busy (s : Call) (count : ℕ) : ℕ :=
  ((Finset.range count).filter fun job => s.future job = .running).card

/-- What `_process_jobs_inline` does with the result of a job. -/
def inlineEnds (s : Call) (job : ℕ) : Outcome → Call
  | .raises => s.shutdown (some .raised)
  | .ends .success => { s with phase := .inlining (job + 1), succeeded := s.succeeded ++ [job] }
  | .ends .cancelled => s.shutdown (some (.returned .cancelled))
  | .ends _ => s.shutdown (some (.returned .error))

/-- `result = future.result()` and what follows it; `done` are the futures after it. -/
def collect (s : Call) (done : Finset ℕ) : Outcome → Call
  | .raises => s.shutdown (some .raised)
  | .ends .success => { s with phase := .collecting done, jobResults := s.jobResults ++ [.success] }
  | .ends .cancelled => s.leaveEarly .cancelled
  | .ends _ => s.leaveEarly .error

/-- A thread of the pool takes a job up. -/
def takeUp (s : Call) (job : ℕ) (rest : List ℕ) : Call :=
  { s with
    workQueue := rest
    future := Function.update s.future job .running
    started := s.started ++ [job] }

/-- `set_result` or `set_exception`. -/
def finish (s : Call) (job : ℕ) (outcome : Outcome) : Call :=
  { s with
    future := Function.update s.future job (.finished outcome)
    resting := s.resting + 1
    succeeded := if outcome = .ends .success then s.succeeded ++ [job] else s.succeeded }

end Call

/-- The calling thread of a chapter with `count` jobs. -/
def callerStep (count : ℕ) (s : Call) : Action → Option Call
  | .submit fails =>
    match s.phase with
    | .submitting next => if next < count then s.submit next fails else none
    | _ => none
  | .submitted => if s.phase = .submitting count then some (s.goto .waiting) else none
  | .cancel job =>
    match s.phase with
    | .falling rest =>
      if job ∈ rest then some ((s.cancel job).goto (.falling (rest.erase job))) else none
    | .leaving result rest =>
      if job ∈ rest then some ((s.cancel job).goto (.leaving result (rest.erase job))) else none
    | _ => none
  | .fallBack => if s.phase = .falling ∅ then some (s.goto (.inlining 0)) else none
  | .inline stop =>
    match s.phase with
    | .inlining next =>
      if next < count then
        if stop then some (s.shutdown (some (.returned .cancelled)))
        else some { s with phase := .running next, started := s.started ++ [next] }
      else some { s with phase := .waiting, pending := ∅ }
    | _ => none
  | .inlineEnds outcome =>
    match s.phase with
    | .running job => some (s.inlineEnds job outcome)
    | _ => none
  | .wait stop done =>
    if s.phase ≠ .waiting then none
    else if s.pending = ∅ then some (s.shutdown none)
    else if stop then some (s.leaveEarly .cancelled)
    else if done ⊆ s.pending ∧ ∀ job ∈ done, (s.future job).taken ∧ s.future job ≠ .running then
      some { s with phase := .collecting done, pending := s.pending \ done }
    else none
  | .collect job =>
    match s.phase, s.future job with
    | .collecting done, .finished outcome =>
      if job ∈ done then some (s.collect (done.erase job) outcome) else none
    | _, _ => none
  | .collected => if s.phase = .collecting ∅ then some (s.goto .waiting) else none
  | .leave =>
    match s.phase with
    | .leaving result rest => if rest = ∅ then some (s.shutdown (some (.returned result))) else none
    | _ => none
  | .drain =>
    match s.phase with
    | .draining ending =>
      match s.workQueue with
      | [] => some (s.close ending)
      | job :: rest => some { s.cancel job with workQueue := rest }
    | _ => none
  | .join =>
    match s.phase with
    | .joining ending =>
      if s.workQueue = [] ∧ s.busy count = 0 then some (s.close ending) else none
    | _ => none
  | .report =>
    if s.phase = .reporting then
      some { s with phase := .ended (.returned .success), told := s.told ++ [.chapterDone] }
    else none
  | _ => none

/-- A thread of the pool: it takes the next item of the queue, where the job of a cancelled future
is passed over, runs it, and releases the idle semaphore. -/
def poolStep (count : ℕ) (s : Call) : Action → Option Call
  | .take =>
    match s.workQueue with
    | [] => none
    | job :: rest =>
      if s.busy count + s.resting < s.threads then
        if s.future job = .pending then some (s.takeUp job rest)
        else some { s with workQueue := rest, resting := s.resting + 1 }
      else none
  | .finish job outcome =>
    if s.future job = .running then some (s.finish job outcome) else none
  | .rest => if 0 < s.resting then some { s with resting := s.resting - 1, idle := s.idle + 1 } else none
  | _ => none

/-- The steps before there is a list of jobs. -/
def openingStep (chapter : Chapter) (s : Call) : Action → Option Call
  | .start =>
    if s.phase ≠ .starting then none
    else if chapter = .finished then
      some { s with
        phase := .ended (.returned .success)
        told := s.told ++ [.chapterStart, .chapterDone] }
    else some { s with phase := .listing, told := s.told ++ [.chapterStart] }
  | .list stop =>
    if s.phase ≠ .listing then none
    else
      match chapter with
      | .unreachable => some (s.goto (.ended .raised))
      | _ =>
        if stop then some (s.goto (.ended (.returned .cancelled)))
        else
          match chapter with
          | .notOpen => some (s.goto (.ended (.returned .notOpen)))
          | .jobs _ => some (s.goto (.submitting 0))
          | _ => some (s.goto (.ended (.returned .error)))
  | _ => none

def Chapter.count : Chapter → ℕ
  | .jobs count => count
  | _ => 0

def step (chapter : Chapter) (s : Call) (a : Action) : Option Call :=
  match a with
  | .start => openingStep chapter s a
  | .list _ => openingStep chapter s a
  | .take => poolStep chapter.count s a
  | .finish _ _ => poolStep chapter.count s a
  | .rest => poolStep chapter.count s a
  | _ => callerStep chapter.count s a

def machine (chapter : Chapter) : Machine Call Action where
  start s := s = .begin
  step := step chapter

end UniversityHelper.ChapterCall
