import UniversityHelper.QrLogin
import UniversityHelper.ZhihuishuAdapter

/-! The registry of course tasks of the course endpoints, for one Zhihuishu user: the start,
status, pause, resume, cancel and logout handlers over the adapter of that user. A handler runs
from one await to the next in one step, and a call it awaits runs in a thread, one critical
section of the adapter at a time. -/
namespace UniversityHelper.CourseTasks
open Zhihuishu

def courseTaskTtlSeconds : ℚ := 2 * 60 * 60
def terminalTaskStatuses : List String := ["completed", "failed", "cancelled", "error"]

abbrev Terminal (status : String) : Prop := status ∈ terminalTaskStatuses

/-- The dictionaries that `get_progress` and `get_task` return. -/
structure Progress where
  taskId : Option TaskId
  courseId : String
  status : String
  message : String
  total : ℕ
  completed : ℕ
  failed : ℕ
  percentage : ℚ
  currentVideo : Option String
  paused : Bool

def taskPayload (id : TaskId) (task : Task) : Progress :=
  ⟨some id, task.courseId, task.status.text, task.message, task.total, task.completed, task.failed,
    task.percentage, task.currentVideo, task.paused⟩

def noRunningTask (courseId : String) : Progress :=
  ⟨none, courseId, "idle", "No running task", 0, 0, 0, 0, none, false⟩

structure CourseTask where
  taskType : String
  courseId : String
  status : String
  message : String
  progress : Progress
  currentTask : Option String
  createdAt : ℚ
  updatedAt : ℚ

inductive Endpoint
  | start | course | aiCourse
  deriving DecidableEq, Repr

def Endpoint.taskType : Endpoint → String
  | .aiCourse => "ai-course"
  | _ => "course"

def Endpoint.failure : Endpoint → String
  | .start => "Failed to start Zhihuishu task"
  | .course => "Failed to start Zhihuishu course task"
  | .aiCourse => "Failed to start Zhihuishu AI course task"

def taskConflictDetail : String := "An active task already exists for this user"
def chapterNotFoundDetail : String := "所选的最后一章已不在这门课里，请重新加载视频列表后再选。"

/-- How loading the videos of a course fails; the texts are those of the exception and its causes. -/
inductive LoadError
  | chapterNotFound | raised (causes : List String)

inductive Command
  | pause | resume | cancel | cancelById (id : TaskId)
  deriving DecidableEq, Repr

structure CommandReply where
  status : String
  message : String

inductive Reply
  | success (message : String)
  | started (id : TaskId) (progress : Progress)
  | status (id : TaskId) (status message : String) (progress : Progress) (currentTask : Option String)
  | learning
  | error (code : ℕ) (detail : String)

inductive Request
  | start (endpoint : Endpoint) (r : StartRequest)
  | status (id : TaskId)
  | command (command : Command)
  | logout

/-- Where a handler stands. `configuring`, `asking`, `fetching`, `commanding`, `leaving` and the
phases from `calling` to `reading` are inside an await. -/
inductive Handler
  | idle
  | configuring (endpoint : Endpoint) (r : StartRequest)
  | calling (endpoint : Endpoint) (r : StartRequest)
  | loading (endpoint : Endpoint) (r : StartRequest)
  | loaded (endpoint : Endpoint) (r : StartRequest)
  | threading (endpoint : Endpoint) (r : StartRequest) (id : TaskId)
  | threadFailed (endpoint : Endpoint) (id : TaskId) (causes : List String)
  | reading (endpoint : Endpoint) (r : StartRequest) (id : TaskId)
  | answered (endpoint : Endpoint) (r : StartRequest) (id : TaskId) (progress : Progress)
  | asking (id : TaskId)
  | fetching (id : TaskId) (record : CourseTask)
  | fetched (id : TaskId) (record : CourseTask) (progress : Option Progress)
  | commanding (command : Command)
  | commanded (command : Command) (reply : CommandReply)
  | leaving
  | left
  | done (reply : Reply)

structure State (H : Type*) where
  adapter : Zhihuishu.State H
  registered : Bool
  courseTasks : OrderedDict TaskId CourseTask
  handler : H → Handler

inductive Action (H : Type*)
  | request (h : H) (request : Request) (now : ℚ)
  | configured (h : H)
  | check (h : H)
  | loadVideos (h : H) (videos : Except LoadError (List Video))
  | install (h : H)
  | startThread (h : H) (failure : Option (List String))
  | markStartError (h : H)
  | readProgress (h : H)
  | register (h : H) (now : ℚ)
  | learningAnswered (h : H) (found : Bool)
  | fetch (h : H)
  | sync (h : H) (now : ℚ)
  | run (h : H)
  | mark (h : H) (now : ℚ)
  | logoutAdapter (h : H)
  | leave (h : H) (now : ℚ)
  | cleanup (now : ℚ)
  | worker (a : Zhihuishu.Action H)

/-- The handler that takes the step, once it has begun. -/
def Action.owner {H : Type*} : Action H → Option H
  | .configured h | .check h | .loadVideos h _ | .install h | .startThread h _ | .markStartError h
  | .readProgress h | .register h _ | .learningAnswered h _ | .fetch h | .sync h _ | .run h
  | .mark h _ | .logoutAdapter h | .leave h _ => some h
  | .request _ _ _ | .cleanup _ | .worker _ => none

/-- The steps of the adapter's own worker threads. -/
def ofWorker {H : Type*} : Zhihuishu.Action H → Bool
  | .decide _ | .enter _ | .advance _ | .pollCancelled _ | .pollPaused _ | .send _ | .receive _ _
  | .check _ | .record _ | .crash _ _ | .markCrash _ => true
  | _ => false

variable {H : Type*} [DecidableEq H]

/-- `get_progress`: it speaks of the current task, if that is a task of this course. -/
def progressOf (adapter : Zhihuishu.State H) (courseId : String) : Progress :=
  match adapter.current, adapter.currentTask with
  | some id, some task =>
    if task.courseId = courseId then taskPayload id task else noRunningTask courseId
  | _, _ => noRunningTask courseId

def newCourseTask (endpoint : Endpoint) (courseId : String) (progress : Progress) (now : ℚ) :
    CourseTask :=
  ⟨endpoint.taskType, courseId, progress.status, progress.message, progress, progress.currentVideo,
    now, now⟩

/-- The changes of `get_course_status`. -/
def syncTask (progress : Progress) (now : ℚ) (task : CourseTask) : CourseTask :=
  { task with
    status := progress.status
    message := progress.message
    progress := progress
    currentTask := progress.currentVideo
    updatedAt := now }

/-- What the command endpoints and the logout do to a record that is not terminal. -/
def markTask (status message : String) (now : ℚ) (task : CourseTask) : CourseTask :=
  if Terminal task.status then task
  else { task with status := status, message := message, updatedAt := now }

def cleanupTasks (tasks : OrderedDict TaskId CourseTask) (now : ℚ) : OrderedDict TaskId CourseTask :=
  tasks.filter fun e => !(courseTaskTtlSeconds < now - e.2.updatedAt && Terminal e.2.status)

def statusReply (id : TaskId) (task : CourseTask) : Reply :=
  .status id task.status task.message task.progress task.currentTask

def startFailureReply (endpoint : Endpoint) (causes : List String) : Reply :=
  if QrLogin.isThreadStartFailure causes = true then .error 503 QrLogin.threadStartFailureDetail
  else .error 500 endpoint.failure

def loadErrorReply (endpoint : Endpoint) : LoadError → Reply
  | .chapterNotFound => .error 400 chapterNotFoundDetail
  | .raised causes => startFailureReply endpoint causes

def Command.action {H : Type*} : Command → Zhihuishu.Action H
  | .pause => .pauseTask
  | .resume => .resumeTask
  | .cancel => .cancelTask
  | .cancelById id => .cancelTaskById id

/-- What the adapter answers to a command. -/
def Command.reply (adapter : Zhihuishu.State H) : Command → CommandReply
  | .pause =>
    match adapter.currentTask with
    | none => ⟨"idle", "No running task"⟩
    | some task =>
      if task.status = .completed ∨ task.status = .cancelled then
        ⟨task.status.text, "Task already finished"⟩
      else ⟨"paused", "Task paused"⟩
  | .resume =>
    match adapter.currentTask with
    | none => ⟨"idle", "No running task"⟩
    | some task =>
      if task.status = .cancelled then ⟨"cancelled", "Task already cancelled"⟩
      else if task.status = .completed then ⟨"completed", "Task already completed"⟩
      else ⟨"running", "Task resumed"⟩
  | .cancel => if adapter.currentTask.isSome then ⟨"cancelled", "Task cancelled"⟩
      else ⟨"idle", "No running task"⟩
  | .cancelById id => if (adapter.tasks id).isSome then ⟨"cancelled", "Task cancelled"⟩
      else ⟨"idle", "Task not found"⟩

/-- The status a command endpoint gives to the records, whatever the adapter answered. -/
def Command.mark : Command → String
  | .pause => "paused"
  | .resume => "running"
  | .cancel | .cancelById _ => "cancelled"

def State.goto (s : State H) (h : H) (next : Handler) : State H :=
  { s with handler := Function.update s.handler h next }

/-- The handler goes on in `next` after a critical section of the adapter. -/
def State.call (s : State H) (h : H) (a : Zhihuishu.Action H)
    (next : Zhihuishu.State H → Handler) : Option (State H) :=
  (Zhihuishu.step s.adapter a).map fun adapter =>
    { s with adapter := adapter }.goto h (next adapter)

def State.markTasks (s : State H) (command : Command) (message : String) (now : ℚ) : State H :=
  match command with
  | .cancelById id =>
    { s with courseTasks := s.courseTasks.modify id (markTask command.mark message now) }
  | _ => { s with courseTasks := s.courseTasks.mapValues (markTask command.mark message now) }

/-- The last part of `zhihuishu_logout`, after the call of the adapter. -/
def State.closeTasks (s : State H) (h : H) (now : ℚ) : State H :=
  { s with
    registered := false
    courseTasks := s.courseTasks.mapValues (markTask "cancelled" "Task cancelled by logout" now) }.goto h
      (.done (.success "Logout successful"))

def notLoggedIn : Reply := .error 401 "Zhihuishu not logged in"

/-- A handler up to its first await. -/
def State.begin (s : State H) (h : H) (now : ℚ) : Request → State H
  | .start endpoint r =>
    s.goto h
      (if s.registered = false then .done notLoggedIn
        else if endpoint = .start then .calling endpoint r else .configuring endpoint r)
  | .status id => s.goto h (.asking id)
  | .command command =>
    s.goto h (if s.registered = true then .commanding command else .done notLoggedIn)
  | .logout => if s.registered = true then s.goto h .leaving else s.closeTasks h now

/-- `get_course_status` once the learning manager does not know the task. -/
def State.lookUp (s : State H) (h : H) (id : TaskId) : State H :=
  match s.courseTasks.get id with
  | none => s.goto h (.done (.error 404 "Task not found"))
  | some record =>
    s.goto h (if s.registered = true then .fetching id record else .done (statusReply id record))

def State.handle (s : State H) (h : H) : Handler → Action H → Option (State H)
  | .configuring endpoint r, .configured _ => some (s.goto h (.calling endpoint r))
  | .calling endpoint r, .check _ =>
    s.call h (.startCheck h r) fun _ =>
      if s.adapter.loggedIn = false then .done (.error 500 endpoint.failure)
      else if s.adapter.conflict = true then .done (.error 409 taskConflictDetail)
      else .loading endpoint r
  | .loading endpoint r, .loadVideos _ (.ok videos) =>
    s.call h (.loadVideos h (some videos)) fun _ => .loaded endpoint r
  | .loading endpoint _, .loadVideos _ (.error failure) =>
    s.call h (.loadVideos h none) fun _ => .done (loadErrorReply endpoint failure)
  | .loaded endpoint r, .install _ =>
    s.call h (.install h) fun adapter =>
      if s.adapter.conflict = true then .done (.error 409 taskConflictDetail)
      else match adapter.caller h with
        | .starting id => .threading endpoint r id
        | _ => .reading endpoint r s.adapter.nextId
  | .threading endpoint r id, .startThread _ none =>
    s.call h (.startThread h true) fun _ => .reading endpoint r id
  | .threading endpoint _ id, .startThread _ (some causes) =>
    s.call h (.startThread h false) fun _ => .threadFailed endpoint id causes
  | .threadFailed endpoint _ causes, .markStartError _ =>
    s.call h (.markStartError h) fun _ =>
      .done (startFailureReply endpoint (threadStartFailureMessage :: causes))
  | .reading endpoint r id, .readProgress _ =>
    some (s.goto h (.answered endpoint r id (progressOf s.adapter r.courseId)))
  | .answered endpoint r id progress, .register _ now =>
    some ({ s with
      courseTasks := s.courseTasks.set id (newCourseTask endpoint r.courseId progress now) }.goto h
        (.done (.started id progress)))
  | .asking id, .learningAnswered _ found =>
    some (if found = true then s.goto h (.done .learning) else s.lookUp h id)
  | .fetching id record, .fetch _ =>
    some (s.goto h (.fetched id record ((s.adapter.tasks id).map (taskPayload id))))
  | .fetched id record none, .sync _ _ => some (s.goto h (.done (statusReply id record)))
  | .fetched id record (some progress), .sync _ now =>
    let tasks := s.courseTasks.modify id (syncTask progress now)
    some ({ s with courseTasks := tasks }.goto h
      (.done (statusReply id ((tasks.get id).getD record))))
  | .commanding command, .run _ =>
    s.call h command.action fun _ => .commanded command (command.reply s.adapter)
  | .commanded command reply, .mark _ now =>
    some (match command with
      | .cancelById _ =>
        if reply.status = "idle" then s.goto h (.done (.error 404 "Task not found"))
        else (s.markTasks command reply.message now).goto h (.done (.success reply.message))
      | _ => (s.markTasks command reply.message now).goto h (.done (.success reply.message)))
  | .leaving, .logoutAdapter _ => s.call h .logout fun _ => .left
  | .left, .leave _ now => some (s.closeTasks h now)
  | _, _ => none

/-- A handler that may take a new request. -/
def Handler.ready : Handler → Bool
  | .idle | .done _ => true
  | _ => false

def step (s : State H) (a : Action H) : Option (State H) :=
  match a with
  | .request h request now =>
    if (s.handler h).ready = true then some (s.begin h now request) else none
  | .cleanup now => some { s with courseTasks := cleanupTasks s.courseTasks now }
  | .worker a =>
    if ofWorker a = true then
      (Zhihuishu.step s.adapter a).map fun adapter => { s with adapter := adapter }
    else none
  | a => a.owner.bind fun h => s.handle h (s.handler h) a

/-- The user has just logged in with a new adapter. -/
def Start (s : State H) : Prop :=
  Zhihuishu.Start s.adapter ∧ s.registered = true ∧ s.courseTasks = .empty ∧
    ∀ h, s.handler h = .idle

def machine (H : Type*) [DecidableEq H] : Machine (State H) (Action H) := ⟨Start, step⟩

end UniversityHelper.CourseTasks
