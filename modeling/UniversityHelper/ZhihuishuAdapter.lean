import UniversityHelper.Binary64
import UniversityHelper.Machine
import UniversityHelper.ZhihuishuWatch

/-! `ZhihuishuAdapter`: one current task, the records of all tasks, the calls that start and
control them, and one worker thread for each started task. Every critical section of
`_task_lock` is a step. -/
namespace UniversityHelper.Zhihuishu

inductive Status
  | running | paused | completed | cancelled | error
  deriving DecidableEq, Repr

def Status.text : Status → String
  | .running => "running"
  | .paused => "paused"
  | .completed => "completed"
  | .cancelled => "cancelled"
  | .error => "error"

def activeTaskStatuses : List String := ["pending", "running", "paused", "cancelling", "stopping"]

def isActive (status : Status) : Bool := status.text ∈ activeTaskStatuses

inductive VideoStatus
  | pending | learning | completed | failed
  deriving DecidableEq, Repr

structure VideoItem where
  video : Video
  status : VideoStatus
  progress : ℕ
  error : Option String

abbrev TaskId := ℕ

structure Task where
  courseId : String
  status : Status
  message : String
  videos : List VideoItem
  total : ℕ
  completed : ℕ
  failed : ℕ
  percentage : ℚ
  currentVideo : Option String
  paused : Bool
  cancelled : Bool
  speed : ℚ
  autoAnswer : Bool
  endChapterId : Option String

/-- The arguments of `start_course`. -/
structure StartRequest where
  courseId : String
  speed : ℚ
  autoAnswer : Bool
  endChapterId : Option String

def threadStartFailureMessage : String :=
  "Server cannot start a new background thread. Stop existing tasks and retry, " ++
    "or restart the service if the problem persists."

def unexpectedTaskErrorPrefix : String := "Unexpected task failure"

/-- `round((completed / total) * 100, 2)` in the floats of the language. -/
def percentageOf (completed total : ℕ) : ℚ :=
  if 0 < total then
    Binary64.roundDigits 2 (Binary64.nearest (Binary64.nearest (completed / total) * 100))
  else 0

-- the rounded quotient and product stay below `0.14375` and `14.375`; exactly it would be `14.38`
example : percentageOf 23 160 = Binary64.nearest (1437 / 100) := by decide +kernel

theorem percentageOf_none (total : ℕ) : percentageOf 0 total = 0 := by simp [percentageOf]

def recomputePercentage (task : Task) : Task :=
  { task with percentage := percentageOf task.completed task.total }

def newTask (r : StartRequest) (videos : List Video) : Task where
  courseId := r.courseId
  status := if videos.length = 0 then .completed else .running
  message := if 0 < videos.length then "Task started" else "No videos found"
  videos := videos.map fun video => ⟨video, .pending, 0, none⟩
  total := videos.length
  completed := 0
  failed := 0
  percentage := 0
  currentVideo := none
  paused := false
  cancelled := false
  speed := if 0 < r.speed then r.speed else 1
  autoAnswer := r.autoAnswer
  endChapterId := r.endChapterId

def pauseTask (task : Task) : Task :=
  if task.status = .completed ∨ task.status = .cancelled then task
  else { task with paused := true, status := .paused, message := "Task paused" }

def resumeTask (task : Task) : Task :=
  if task.status = .cancelled ∨ task.status = .completed then task
  else { task with paused := false, status := .running, message := "Task resumed" }

/-- What `cancel_task`, `cancel_task_by_id` and `logout` do to a task. -/
def cancelTask (message : String) (task : Task) : Task :=
  { task with cancelled := true, paused := false, status := .cancelled, message := message }

/-- `_mark_task_error`. -/
def markTaskError (message : String) (task : Task) : Task :=
  { task with status := .error, message := message }

/-- The worker leaves because its task was cancelled. -/
def leaveCancelled (task : Task) : Task :=
  { task with status := .cancelled, message := "Task cancelled" }

/-- Phase 1 of the worker loop after the last video. -/
def finishTask (task : Task) : Task :=
  let message := match task.videos.findSome? VideoItem.error with
    | some error => "Task finished with failed videos: " ++ error
    | none => "Task finished with failed videos"
  recomputePercentage { task with
    status := if task.failed = 0 then .completed else .error
    message := if task.failed = 0 then "Task completed" else message
    currentVideo := none }

/-- Phase 1 of the worker loop for the video at `index`. -/
def pickVideo (index : ℕ) (item : VideoItem) (task : Task) : Task :=
  { task with
    videos := task.videos.set index { item with status := .learning, progress := 0 }
    currentVideo := some item.video.title
    status := .running
    message := "Task is running" }

/-- Phase 3 of the worker loop. -/
def recordVideo (index : ℕ) (ok : Bool) (error : Option String) (task : Task) : Task :=
  recomputePercentage { task with
    videos := task.videos.modify index fun item =>
      if ok = true then { item with status := .completed, progress := 100 }
      else { item with status := .failed, error := error.or item.error }
    completed := if ok = true then task.completed + 1 else task.completed
    failed := if ok = true then task.failed else task.failed + 1 }

/-- The evaluations of `_wait_for_playback`: `is_cancelled` on entry, `is_paused` and
`is_cancelled` in its loop, and `is_cancelled` on leaving. -/
inductive Gate
  | first | paused | again | last
  deriving DecidableEq, Repr

/-- Where a worker thread stands; `entering` to `inFlight` is phase 2, `checking` the section
after it and `recording` phase 3. -/
inductive Worker
  | absent
  | deciding (index : ℕ)
  | entering (index : ℕ) (video : Video) (speed : ℚ) (autoAnswer : Bool)
  | watching (index : ℕ) (program : Watch)
  | waiting (index : ℕ) (gate : Gate) (pass : Watch)
  | inFlight (index : ℕ) (r : Request) (next : r.Answer → Watch)
  | checking (index : ℕ) (ok : Bool) (error : Option String)
  | recording (index : ℕ) (ok : Bool) (error : Option String)
  | crashed (message : String)
  | returned

/-- The thread runs: it has been started and has not returned. -/
def Worker.alive : Worker → Bool
  | .absent | .returned => false
  | _ => true

/-- In phase 2, between picking a video and coming back from `watch_video`. -/
def Worker.inPlayback : Worker → Bool
  | .entering .. | .watching .. | .waiting .. | .inFlight .. => true
  | _ => false

/-- Inside `watch_video`. -/
def Worker.inWatch : Worker → Bool
  | .watching .. | .waiting .. | .inFlight .. => true
  | _ => false

/-- A thread inside `start_course`: before and after it loaded the videos, and, once it has
installed its task, before `Thread.start` and before the handler of its failure. -/
inductive Caller
  | idle
  | loading (r : StartRequest)
  | loaded (r : StartRequest) (videos : List Video)
  | starting (id : TaskId)
  | startFailed (id : TaskId)

structure State (C : Type*) where
  loggedIn : Bool
  current : Option TaskId
  tasks : TaskId → Option Task
  nextId : TaskId
  worker : TaskId → Worker
  caller : C → Caller
  sentAfterCancel : TaskId → ℕ

inductive Action (C : Type*)
  | login
  | logout
  | startCheck (c : C) (r : StartRequest)
  | loadVideos (c : C) (videos : Option (List Video))
  | install (c : C)
  | startThread (c : C) (ok : Bool)
  | markStartError (c : C)
  | pauseTask
  | resumeTask
  | cancelTask
  | cancelTaskById (id : TaskId)
  | decide (id : TaskId)
  | enter (id : TaskId)
  | advance (id : TaskId)
  | pollCancelled (id : TaskId)
  | pollPaused (id : TaskId)
  | send (id : TaskId)
  | receive (id : TaskId) (answer : Except String (Σ r : Request, r.Answer))
  | check (id : TaskId)
  | record (id : TaskId)
  | crash (id : TaskId) (message : String)
  | markCrash (id : TaskId)

variable {C : Type*} [DecidableEq C]

def State.currentTask (s : State C) : Option Task := s.current.bind s.tasks

/-- What makes `start_course` raise `ZhihuishuTaskConflictError`. -/
def State.conflict (s : State C) : Bool := s.currentTask.any fun task => isActive task.status

def State.modifyTask (s : State C) (id : TaskId) (f : Task → Task) : State C :=
  { s with tasks := Function.update s.tasks id ((s.tasks id).map f) }

def State.modifyCurrent (s : State C) (f : Task → Task) : State C :=
  match s.current with
  | some id => s.modifyTask id f
  | none => s

def State.goto (s : State C) (id : TaskId) (next : Worker) : State C :=
  { s with worker := Function.update s.worker id next }

def State.call (s : State C) (c : C) (next : Caller) : State C :=
  { s with caller := Function.update s.caller c next }

/-- `_is_task_cancelled`: it asks the current task. -/
def State.isTaskCancelled (s : State C) (id : TaskId) : Bool :=
  s.current = some id && s.currentTask.any Task.cancelled

def State.isTaskPaused (s : State C) (id : TaskId) : Bool :=
  s.current = some id && s.currentTask.any Task.paused

/-- The second critical section of `start_course`, where no task is active. -/
def State.installTask (s : State C) (c : C) (r : StartRequest) (videos : List Video) : State C :=
  { s with
    current := some s.nextId
    tasks := Function.update s.tasks s.nextId (some (newTask r videos))
    nextId := s.nextId + 1
    caller := Function.update s.caller c (if videos = [] then .idle else .starting s.nextId) }

/-- Phase 1 of the worker loop. -/
def State.decideVideo (s : State C) (id : TaskId) (index : ℕ) : State C :=
  match s.tasks id with
  | none => s.goto id .returned
  | some task =>
    if s.current ≠ some id then s.goto id .returned
    else if task.cancelled = true then (s.modifyTask id leaveCancelled).goto id .returned
    else match task.videos[index]? with
      | none => (s.modifyTask id finishTask).goto id .returned
      | some item =>
        if task.paused = true then
          (s.modifyTask id fun task => { task with status := .paused }).goto id (.deciding index)
        else (s.modifyTask id (pickVideo index item)).goto id
          (.entering index item.video task.speed task.autoAnswer)

/-- The check that the task is still the current one and not cancelled, before `next`. -/
def State.unlessCancelled (s : State C) (id : TaskId) (next : State C) : State C :=
  match s.tasks id with
  | none => s.goto id .returned
  | some task =>
    if s.current ≠ some id then s.goto id .returned
    else if task.cancelled = true then (s.modifyTask id leaveCancelled).goto id .returned
    else next

/-- The step of `watch_video` that needs neither an evaluation nor a request. -/
def advanceWatch (index : ℕ) : Watch → Option Worker
  | .finish ok => some (.checking index ok none)
  | .raise message => some (.checking index false (some message))
  | .gate pass => some (.waiting index .first pass)
  | .sleep next => some (.watching index next)
  | .request _ _ => none

/-- After an evaluation of `is_cancelled` inside `_wait_for_playback`. -/
def afterPoll (index : ℕ) (pass : Watch) (cancelled : Bool) : Gate → Option Worker
  | .first => some (if cancelled = true then .checking index false none else .waiting index .paused pass)
  | .again => some (if cancelled = true then .checking index false none else .waiting index .paused pass)
  | .last => some (if cancelled = true then .checking index false none else .watching index pass)
  | .paused => none

def State.countSent (s : State C) (id : TaskId) : State C :=
  let sent := s.sentAfterCancel id + if (s.tasks id).any Task.cancelled = true then 1 else 0
  { s with sentAfterCancel := Function.update s.sentAfterCancel id sent }

def step (s : State C) : Action C → Option (State C)
  | .login => some { s with loggedIn := true }
  | .logout => some { s.modifyCurrent (cancelTask "Task cancelled by logout") with loggedIn := false }
  | .startCheck c r =>
    match s.caller c with
    | .idle => some (if s.loggedIn = true ∧ s.conflict = false then s.call c (.loading r) else s)
    | _ => none
  | .loadVideos c videos =>
    match s.caller c, videos with
    | .loading r, some videos => some (s.call c (.loaded r videos))
    | .loading _, none => some (s.call c .idle)
    | _, _ => none
  | .install c =>
    match s.caller c with
    | .loaded r videos =>
      some (if s.conflict = true then s.call c .idle else s.installTask c r videos)
    | _ => none
  | .startThread c ok =>
    match s.caller c with
    | .starting id =>
      some (if ok = true then (s.call c .idle).goto id (.deciding 0) else s.call c (.startFailed id))
    | _ => none
  | .markStartError c =>
    match s.caller c with
    | .startFailed id =>
      some ((s.call c .idle).modifyTask id (markTaskError threadStartFailureMessage))
    | _ => none
  | .pauseTask => some (s.modifyCurrent pauseTask)
  | .resumeTask => some (s.modifyCurrent resumeTask)
  | .cancelTask => some (s.modifyCurrent (cancelTask "Task cancelled"))
  | .cancelTaskById id => some (s.modifyTask id (cancelTask "Task cancelled"))
  | .decide id =>
    match s.worker id with
    | .deciding index => some (s.decideVideo id index)
    | _ => none
  | .enter id =>
    match s.worker id with
    | .entering index video speed autoAnswer =>
      some (s.goto id (if s.loggedIn = true then .watching index (watchVideo video speed autoAnswer)
        else .checking index false (some "Not logged in")))
    | _ => none
  | .advance id =>
    match s.worker id with
    | .watching index program => (advanceWatch index program).map (s.goto id)
    | _ => none
  | .pollCancelled id =>
    match s.worker id with
    | .waiting index gate pass => (afterPoll index pass (s.isTaskCancelled id) gate).map (s.goto id)
    | _ => none
  | .pollPaused id =>
    match s.worker id with
    | .waiting index .paused pass =>
      some (s.goto id (.waiting index (if s.isTaskPaused id = true then .again else .last) pass))
    | _ => none
  | .send id =>
    match s.worker id with
    | .watching index (.request r next) => some ((s.countSent id).goto id (.inFlight index r next))
    | _ => none
  | .receive id answer =>
    match s.worker id, answer with
    | .inFlight index _ _, .error message =>
      some (s.goto id (.checking index false (some message)))
    | .inFlight index r next, .ok ⟨r', answer⟩ =>
      if h : r' = r then some (s.goto id (.watching index (next (h ▸ answer)))) else none
    | _, _ => none
  | .check id =>
    match s.worker id with
    | .checking index ok error => some (s.unlessCancelled id (s.goto id (.recording index ok error)))
    | _ => none
  | .record id =>
    match s.worker id with
    | .recording index ok error =>
      some (s.unlessCancelled id
        ((s.modifyTask id (recordVideo index ok error)).goto id (.deciding (index + 1))))
    | _ => none
  | .crash id message =>
    if (s.worker id).alive = true then
      some (s.goto id (.crashed (unexpectedTaskErrorPrefix ++ ": " ++ message)))
    else none
  | .markCrash id =>
    match s.worker id with
    | .crashed message => some ((s.modifyTask id (markTaskError message)).goto id .returned)
    | _ => none

/-- A newly created adapter. -/
def Start (s : State C) : Prop :=
  s.current = none ∧ (∀ id, s.tasks id = none) ∧ (∀ id, s.worker id = .absent) ∧
    (∀ c, s.caller c = .idle) ∧ ∀ id, s.sentAfterCancel id = 0

def machine (C : Type*) [DecidableEq C] : Machine (State C) (Action C) := ⟨Start, step⟩

end UniversityHelper.Zhihuishu
