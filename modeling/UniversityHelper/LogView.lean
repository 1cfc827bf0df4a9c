import UniversityHelper.LogTail

/-! The log view of `useTaskExecution` on a page with several tasks: the polls, control requests
and selections that write to it, the React state they write through, and the refs they read. -/
namespace UniversityHelper.LogView
open TaskAdmission TaskManager

/-- A cursor, and how often the view had been emptied when it was read for the first time. -/
structure Mark where
  cursor : ℕ
  emptied : ℕ

/-- The part of the React state that shows a log. No task is selected at first. -/
structure View (T : Type*) where
  taskId : Option T
  logs : List LogLine
  logCursor : Mark

/-- The refs that say which task is current. -/
structure Refs (T : Type*) where
  taskGenerationRef : ℕ
  taskIdRef : Option T

/-- An update of the React state. The last two carry a function, which asks whether the task is
current only when it is applied. -/
inductive Update (T : Type*)
  | setTaskIdState (taskId : T)
  | setLogs (logs : List LogLine)
  | setLogCursor (mark : Mark)
  | appendLogs (generation : ℕ) (targetId : T) (incoming : List LogLine)
  | setNextCursor (generation : ℕ) (targetId : T) (mark : Mark)

inductive Control
  | pause
  | resume
  | stop
  deriving DecidableEq

inductive Origin
  | poll
  | control (action : Control)
  deriving DecidableEq

/-- What a request waits for: the answer to its control call, to its status call, to its logs
call, or its turn to process the last. -/
inductive Phase
  | control
  | status (mark : Mark)
  | logs (mark : Mark)
  | answered (mark : Mark) (logs : List LogLine) (cursor : ℕ)

structure Request (T : Type*) where
  generation : ℕ
  targetId : T
  origin : Origin
  phase : Phase

/-- `rendered` is what the last render committed, `updates` what waits for the next one, `effect`
the cursor that the effect of the last render has not yet passed on. -/
structure State (T : Type*) where
  server : T → List LogLine
  refs : Refs T
  logCursorRef : Mark
  pollInFlightRef : Option (ℕ × T)
  controlInFlightRef : List (T × Control)
  rendered : View T
  updates : List (Update T)
  effect : Option Mark
  requests : List (Request T)
  emptied : ℕ

inductive Action (T : Type*)
  | append (task : T) (line : LogLine)
  | setTaskId (task : T)
  | selectTaskFromHistory (task : T)
  | poll
  | refreshTask
  | controlTask (action : Control)
  | hearControl (i : ℕ)
  | hearStatus (i : ℕ)
  | answerLogs (i : ℕ)
  | hearLogs (i : ℕ)
  | fail (i : ℕ)
  | render
  | flush

variable {T : Type*} [DecidableEq T]

def Refs.isCurrentTask (refs : Refs T) (generation : ℕ) (targetId : T) : Bool :=
  generation = refs.taskGenerationRef ∧ (refs.taskIdRef = none ∨ refs.taskIdRef = some targetId)

def Refs.apply (refs : Refs T) (view : View T) : Update T → View T
  | .setTaskIdState taskId => { view with taskId := some taskId }
  | .setLogs logs => { view with logs := logs }
  | .setLogCursor mark => { view with logCursor := mark }
  | .appendLogs generation targetId incoming =>
    if refs.isCurrentTask generation targetId = true then
      { view with logs := LogTail.useTaskExecution.appendLogs view.logs incoming }
    else view
  | .setNextCursor generation targetId mark =>
    if refs.isCurrentTask generation targetId = true then { view with logCursor := mark } else view

/-- What a render would commit now. -/
def State.view (s : State T) : View T := s.updates.foldl s.refs.apply s.rendered

def State.setState (s : State T) (updates : List (Update T)) : State T :=
  { s with updates := s.updates ++ updates }

def State.emptyView (s : State T) : State T :=
  let zero : Mark := ⟨0, s.emptied + 1⟩
  { s.setState [.setLogs [], .setLogCursor zero] with
    logCursorRef := zero
    emptied := s.emptied + 1 }

def setTaskId (s : State T) (nextId : T) : State T :=
  let t :=
    if s.refs.taskIdRef = some nextId then s
    else { s.emptyView with refs := ⟨s.refs.taskGenerationRef + 1, some nextId⟩ }
  t.setState [.setTaskIdState nextId]

/-- `loadTaskSnapshot` up to its first request. -/
def loadTaskSnapshot (s : State T) (targetId : T) (resetLogs : Bool) (origin : Origin) : State T :=
  let t := if resetLogs = true then s.emptyView else s
  { t with
    requests := t.requests ++ [⟨t.refs.taskGenerationRef, targetId, origin, .status t.logCursorRef⟩] }

def runTaskSnapshot (s : State T) (targetId : T) (resetLogs : Bool) : State T :=
  let generation := s.refs.taskGenerationRef
  if s.refs.isCurrentTask generation targetId = false then s
  else if s.pollInFlightRef = some (generation, targetId) then s
  else
    loadTaskSnapshot { s with pollInFlightRef := some (generation, targetId) } targetId resetLogs
      .poll

def selectTaskFromHistory (s : State T) (targetId : T) : State T :=
  if s.refs.taskIdRef = some targetId then runTaskSnapshot (setTaskId s targetId) targetId true
  else setTaskId s targetId

def controlTask (s : State T) (action : Control) (targetId : T) : State T :=
  let generation := s.refs.taskGenerationRef
  if s.refs.isCurrentTask generation targetId = false then s
  else if (targetId, action) ∈ s.controlInFlightRef then s
  else
    { s with
      controlInFlightRef := s.controlInFlightRef ++ [(targetId, action)]
      requests := s.requests ++ [⟨generation, targetId, .control action, .control⟩] }

def State.setPhase (s : State T) (i : ℕ) (request : Request T) (phase : Phase) : State T :=
  { s with requests := s.requests.set i { request with phase := phase } }

/-- The `finally` of a request. -/
def State.settle (s : State T) (i : ℕ) (request : Request T) : State T :=
  let t := { s with requests := s.requests.eraseIdx i }
  match request.origin with
  | .poll =>
    if t.pollInFlightRef = some (request.generation, request.targetId) then
      { t with pollInFlightRef := none }
    else t
  | .control action =>
    { t with controlInFlightRef := t.controlInFlightRef.erase (request.targetId, action) }

/-- The processing of an answer goes on only for the task that is current. -/
def State.ifCurrent (s : State T) (i : ℕ) (request : Request T) (next : State T) : State T :=
  if s.refs.isCurrentTask request.generation request.targetId = true then next
  else s.settle i request

/-- `get_task_logs`. -/
def getTaskLogs (logs : List LogLine) (cursor : ℕ) : List LogLine :=
  sliceFrom logs (learningRules.sliceStart (some cursor) 0)

/-- A line is appended only to a log that stays under 1000 lines, all of them different. -/
def step (s : State T) : Action T → Option (State T)
  | .append task line =>
    if line ∉ s.server task ∧ (s.server task).length + 1 < 1000 then
      some { s with server := Function.update s.server task (s.server task ++ [line]) }
    else none
  | .setTaskId task => some (setTaskId s task)
  | .selectTaskFromHistory task => some (selectTaskFromHistory s task)
  | .poll => s.rendered.taskId.map fun targetId => runTaskSnapshot s targetId false
  | .refreshTask => s.refs.taskIdRef.map fun targetId => runTaskSnapshot s targetId false
  | .controlTask action => s.rendered.taskId.map fun targetId => controlTask s action targetId
  | .hearControl i =>
    match s.requests[i]? with
    | some ⟨generation, targetId, origin, .control⟩ =>
      let request : Request T := ⟨generation, targetId, origin, .control⟩
      some (s.ifCurrent i request (s.setPhase i request (.status s.logCursorRef)))
    | _ => none
  | .hearStatus i =>
    match s.requests[i]? with
    | some ⟨generation, targetId, origin, .status mark⟩ =>
      let request : Request T := ⟨generation, targetId, origin, .status mark⟩
      some (s.ifCurrent i request (s.setPhase i request (.logs mark)))
    | _ => none
  | .answerLogs i =>
    match s.requests[i]? with
    | some ⟨generation, targetId, origin, .logs mark⟩ =>
      some (s.setPhase i ⟨generation, targetId, origin, .logs mark⟩
        (.answered mark (getTaskLogs (s.server targetId) mark.cursor) (s.server targetId).length))
    | _ => none
  | .hearLogs i =>
    match s.requests[i]? with
    | some ⟨generation, targetId, origin, .answered mark logs cursor⟩ =>
      let request : Request T := ⟨generation, targetId, origin, .answered mark logs cursor⟩
      some (s.ifCurrent i request ((s.setState
        [.appendLogs generation targetId logs,
          .setNextCursor generation targetId ⟨cursor, mark.emptied⟩]).settle i request))
    | _ => none
  | .fail i => s.requests[i]?.map fun request => s.settle i request
  | .render =>
    match s.effect with
    | none =>
      some { s with
        rendered := s.view
        updates := []
        effect :=
          if s.view.logCursor.cursor = s.rendered.logCursor.cursor then none
          else some s.view.logCursor }
    | some _ => none
  | .flush => s.effect.map fun mark => { s with effect := none, logCursorRef := mark }

/-- The hook when it is mounted. The tasks may have a log already. -/
def machine (T : Type*) [DecidableEq T] : Machine (State T) (Action T) where
  start s := (∀ task, (s.server task).Nodup ∧ (s.server task).length < 1000) ∧
    s.refs = ⟨0, none⟩ ∧ s.logCursorRef = ⟨0, 0⟩ ∧ s.pollInFlightRef = none ∧
    s.controlInFlightRef = [] ∧ s.rendered = ⟨none, [], ⟨0, 0⟩⟩ ∧ s.updates = [] ∧
    s.effect = none ∧ s.requests = [] ∧ s.emptied = 0
  step := step

end UniversityHelper.LogView
