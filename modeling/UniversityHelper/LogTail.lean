import UniversityHelper.LearningWorker
import UniversityHelper.SigninManager

/-! A client that polls the status and the log of the task it has selected while the task's worker
writes both: the two hooks of the pages and the workers of the two managers. -/
namespace UniversityHelper.LogTail
open TaskAdmission TaskManager

/-- What a worker does to the part of its record that a client polls. -/
inductive Write
  | status (status : TaskStatus)
  | line (line : LogLine)

/-- A worker and what it may be told: the answers to its questions, the time of its writes. -/
structure Worker (W I : Type*) where
  start : W → Prop
  step : W → I → Option (W × Option Write)
  ended : W → Bool

inductive LearningInput
  | answer (answer : LearningWorker.Answer)
  | write (now : Instant)
  | wait
  | chapterFailed (title reason hint : String) (final : Bool) (now : Instant)
  | raise (exception : String)

/-- The line of a completion notification is left out. While chapters are studied, the callbacks
of `JobProcessor` write too. -/
def learningStep : LearningWorker.Work → LearningInput → Option (LearningWorker.Work × Option Write)
  | work, .answer answer => (work.answer answer).map (·, none)
  | .updateTask changes next, .write _ => some (next, changes.status.map .status)
  | .appendTaskLog message level next, .write now => some (next, some (.line ⟨now, message, level⟩))
  | .updateProgress _ next, .write _ => some (next, none)
  | .increaseProgress _ _ next, .write _ => some (next, none)
  | .notify _ next, .write _ => some (next, none)
  | .waitForResume next, .wait => some (.waitForResume next, some (.status .paused))
  | .run course points next, .wait => some (.run course points next, some (.status .paused))
  | .run course points next, .chapterFailed title reason hint final now =>
    let line := LearningWorker.chapterFailureLine title reason hint final
    some (.run course points next, some (.line ⟨now, line.1, line.2⟩))
  | work, .raise exception =>
    if work.asks = true then some (LearningWorker.failureWork exception, none) else none
  | _, _ => none

def learningWorker : Worker LearningWorker.Work LearningInput where
  start work := ∃ payload, work = LearningWorker.runTaskWorker payload
  step := learningStep
  ended
    | .finished => true
    | _ => false

inductive SigninInput
  | answer (answer : SigninManager.Answer)
  | write (now : Instant)
  | raise (exception : String)

def signinStep : SigninManager.Work → SigninInput → Option (SigninManager.Work × Option Write)
  | work, .answer answer => (work.answer answer).map (·, none)
  | .update changes next, .write _ => some (next, changes.status.map .status)
  | .appendLog message level next, .write now => some (next, some (.line ⟨now, message, level⟩))
  | .update .., _ | .appendLog .., _ | .finished, _ => none
  | _, .raise exception =>
    some (SigninManager.failureWork
      (SigninManager.unexpectedWorkerErrorPrefix ++ ": " ++ exception), none)
  | _, .write _ => none

def signinWorker : Worker SigninManager.Work SigninInput where
  start work := ∃ payload, work = SigninManager.runTaskWorker payload
  step := signinStep
  ended
    | .finished => true
    | _ => false

/-- Where the hooks differ: `parallel` sends both requests of a poll at once, `deferred` passes a
new cursor on to the next polls in an effect, `dedup` drops repeated lines, `resets` lets a poll
begin with an empty view. -/
structure Hook where
  rules : Rules
  stops : TaskStatus → Bool
  parallel : Bool
  deferred : Bool
  dedup : Bool
  resets : Bool
  viewLimit : ℕ

def useTaskExecution : Hook where
  rules := learningRules
  stops status := lower status.text ∈ ["completed", "failed", "error", "cancelled"]
  parallel := false
  deferred := true
  dedup := true
  resets := true
  viewLimit := 1000

def useBackgroundTasks : Hook where
  rules := signinRules
  stops status := status.text = "completed" ∨ status.text = "error"
  parallel := true
  deferred := false
  dedup := false
  resets := false
  viewLimit := 200

/-- The lines a view shows after an answer. The key of a line consists of all its entries. -/
def Hook.appendLogs (hook : Hook) (view incoming : List LogLine) : List LogLine :=
  if incoming = [] then view
  else
    let merged := view ++ incoming
    keepLast hook.viewLimit (if hook.dedup = true then merged.eraseDups else merged)

/-- A cursor, and how many lines had been appended when the server answered it. -/
structure Mark where
  cursor : ℕ
  seen : ℕ

def Mark.zero : Mark := ⟨0, 0⟩

structure Answer where
  logs : List LogLine
  mark : Mark

/-- A status and a logs request; `heard` says that the answer to the first has been processed. -/
structure Poll where
  mark : Mark
  status : Option TaskStatus
  heard : Bool
  logs : Option Answer

/-- `status`, `logs` and `appended` are the server's; `shown` is how many lines had been appended
at the last answer the view took in. -/
structure State (W : Type*) where
  worker : W
  status : TaskStatus
  logs : List LogLine
  appended : List LogLine
  view : List LogLine
  logCursor : Mark
  rendered : Option Mark
  logCursorRef : Mark
  shown : ℕ
  polling : Bool
  inFlight : Option Poll

inductive Action (I : Type*)
  | work (input : I)
  | poll (resetLogs : Bool)
  | answerStatus
  | hearStatus
  | answerLogs
  | hearLogs
  | render
  | flush

variable {W I : Type*} (worker : Worker W I) (hook : Hook)

def State.write (s : State W) : Option Write → State W
  | none => s
  | some (.status status) => { s with status := status }
  | some (.line line) =>
    { s with
      logs := keepLast hook.rules.logLimit (s.logs ++ [line])
      appended := s.appended ++ [line] }

/-- `get_task_logs`. -/
def getTaskLogs (s : State W) (cursor : ℕ) : Answer :=
  ⟨sliceFrom s.logs (hook.rules.sliceStart (some cursor) 0), ⟨s.logs.length, s.appended.length⟩⟩

/-- A poll by the interval or by hand; none starts while one is in flight. -/
def startPoll (s : State W) (resetLogs : Bool) : Option (State W) :=
  match s.inFlight with
  | some _ => none
  | none =>
    if resetLogs = false then some { s with inFlight := some ⟨s.logCursorRef, none, false, none⟩ }
    else if hook.resets = true then
      some { s with
        view := []
        shown := 0
        logCursor := .zero
        logCursorRef := .zero
        inFlight := some ⟨.zero, none, false, none⟩ }
    else none

def step (s : State W) : Action I → Option (State W)
  | .work input =>
    (worker.step s.worker input).map fun (next, write) => ({ s with worker := next }.write hook write)
  | .poll resetLogs => startPoll hook s resetLogs
  | .answerStatus =>
    match s.inFlight with
    | some ⟨mark, none, heard, logs⟩ =>
      some { s with inFlight := some ⟨mark, some s.status, heard, logs⟩ }
    | _ => none
  | .hearStatus =>
    match s.inFlight with
    | some ⟨mark, some status, false, logs⟩ =>
      some { s with
        polling := s.polling && !hook.stops status
        inFlight := some ⟨mark, some status, true, logs⟩ }
    | _ => none
  | .answerLogs =>
    match s.inFlight with
    | some ⟨mark, status, heard, none⟩ =>
      if hook.parallel = true ∨ heard = true then
        some { s with
          inFlight := some ⟨mark, status, heard, some (getTaskLogs hook s mark.cursor)⟩ }
      else none
    | _ => none
  | .hearLogs =>
    match s.inFlight with
    | some ⟨_, _, true, some answer⟩ =>
      some { s with
        view := hook.appendLogs s.view answer.logs
        shown := answer.mark.seen
        logCursor := answer.mark
        logCursorRef := if hook.deferred = true then s.logCursorRef else answer.mark
        inFlight := none }
    | _ => none
  | .render =>
    match hook.deferred, s.rendered with
    | true, none => some { s with rendered := some s.logCursor }
    | _, _ => none
  | .flush =>
    match s.rendered with
    | some mark => some { s with rendered := none, logCursorRef := mark }
    | none => none

/-- A task that has just been started and selected, with its polling on. -/
def machine : Machine (State W) (Action I) where
  start s := worker.start s.worker ∧ s.logs = [] ∧ s.appended = [] ∧ s.view = [] ∧
    s.logCursor = .zero ∧ s.rendered = none ∧ s.logCursorRef = .zero ∧ s.shown = 0 ∧
    s.polling = true ∧ s.inFlight = none
  step := step worker hook

end UniversityHelper.LogTail
