import UniversityHelper.LogView
import UniversityHelper.PythonText

/-! The status that `useTaskExecution` displays for the selected task: polls and control requests
ask the server for it, and their answers are displayed in the order in which they arrive. -/
namespace UniversityHelper.StatusView
open LogView (Refs Control Origin)

/-- `DONE_STATUSES`. -/
def doneStatuses : List String := ["completed", "failed", "error", "cancelled"]

def isDone (status : String) : Bool := lower status ∈ doneStatuses

/-- An answer to a status request: the status of the task after so many changes. -/
structure Answer (T : Type*) where
  task : T
  changes : ℕ
  status : String

def Answer.done {T : Type*} (answer : Answer T) : Bool := isDone answer.status

/-- What the page displays. No task is selected at first. -/
structure View (T : Type*) where
  taskId : Option T
  taskStatus : Option (Answer T)

/-- An update of the React state. The last one carries a function, which asks whether the task is
current when it is applied. -/
inductive Update (T : Type*)
  | setTaskIdState (taskId : T)
  | clearTaskStatus
  | setTaskStatus (generation : ℕ) (answer : Answer T)

/-- What a request waits for: the answer to its control call, the answer to its status call, its
turn to process that answer, or the answer to its logs call. -/
inductive Phase
  | control
  | status
  | answered (changes : ℕ) (status : String)
  | logs
  deriving DecidableEq

structure Request (T : Type*) where
  generation : ℕ
  targetId : T
  origin : Origin
  phase : Phase

/-- `server` holds the statuses a task went through, `heard` the answers processed so far, `effect`
the task whose polling effect is about to run, `pollRef` the one the interval polls. -/
structure State (T : Type*) where
  server : T → List String
  refs : Refs T
  pollInFlightRef : Option (ℕ × T)
  controlInFlightRef : List (T × Control)
  rendered : View T
  updates : List (Update T)
  effect : Option T
  pollRef : Option T
  requests : List (Request T)
  heard : List (Answer T)

inductive Action (T : Type*)
  | change (task : T) (status : String)
  | setTaskId (task : T)
  | selectTaskFromHistory (task : T)
  | poll
  | refreshTask
  | controlTask (action : Control)
  | hearControl (i : ℕ)
  | answerStatus (i : ℕ)
  | hearStatus (i : ℕ)
  | hearLogs (i : ℕ)
  | fail (i : ℕ) (missing : Bool)
  | render
  | runEffect

variable {T : Type*} [DecidableEq T]

def Refs.apply (refs : Refs T) (view : View T) : Update T → View T
  | .setTaskIdState taskId => { view with taskId := some taskId }
  | .clearTaskStatus => { view with taskStatus := none }
  | .setTaskStatus generation answer =>
    if refs.isCurrentTask generation answer.task = true then { view with taskStatus := some answer }
    else view

/-- What a render would commit now. -/
def State.view (s : State T) : View T := s.updates.foldl (Refs.apply s.refs) s.rendered

def setTaskId (s : State T) (nextId : T) : State T :=
  let t :=
    if s.refs.taskIdRef = some nextId then s
    else
      { s with
        refs := ⟨s.refs.taskGenerationRef + 1, some nextId⟩
        updates := s.updates ++ [.clearTaskStatus] }
  { t with updates := t.updates ++ [.setTaskIdState nextId] }

/-- `loadTaskSnapshot` up to its first request. -/
def loadTaskSnapshot (s : State T) (targetId : T) (origin : Origin) : State T :=
  { s with requests := s.requests ++ [⟨s.refs.taskGenerationRef, targetId, origin, .status⟩] }

def runTaskSnapshot (s : State T) (targetId : T) : State T :=
  let generation := s.refs.taskGenerationRef
  if s.refs.isCurrentTask generation targetId = false then s
  else if s.pollInFlightRef = some (generation, targetId) then s
  else loadTaskSnapshot { s with pollInFlightRef := some (generation, targetId) } targetId .poll

def stopPolling (s : State T) : State T := { s with pollRef := none }

def selectTaskFromHistory (s : State T) (targetId : T) : State T :=
  if s.refs.taskIdRef = some targetId then runTaskSnapshot (setTaskId s targetId) targetId
  else stopPolling (setTaskId s targetId)

def controlTask (s : State T) (action : Control) (targetId : T) : State T :=
  let generation := s.refs.taskGenerationRef
  if s.refs.isCurrentTask generation targetId = false then s
  else if s.controlInFlightRef.contains (targetId, action) = true then s
  else
    { s with
      controlInFlightRef := s.controlInFlightRef ++ [(targetId, action)]
      requests := s.requests ++ [⟨generation, targetId, .control action, .control⟩] }

def State.setPhase (s : State T) (i : ℕ) (request : Request T) (phase : Phase) : State T :=
  { s with requests := s.requests.set i { request with phase := phase } }

/-- The `finally` of a request. -/
def State.settle (s : State T) (i : ℕ) (request : Request T) : State T :=
  let t := { s with requests := s.requests.eraseIdx i }
  match request.origin with
  | .poll =>
    if t.pollInFlightRef = some (request.generation, request.targetId) then
      { t with pollInFlightRef := none }
    else t
  | .control action =>
    { t with controlInFlightRef := t.controlInFlightRef.erase (request.targetId, action) }

/-- `loadTaskSnapshot` from the answer to the status request to the logs request. -/
def State.hearStatus (s : State T) (i : ℕ) (request : Request T) (answer : Answer T) : State T :=
  if s.refs.isCurrentTask request.generation request.targetId = true then
    let t := { s with
      updates := s.updates ++ [.setTaskStatus request.generation answer]
      heard := answer :: s.heard }
    (if answer.done = true then stopPolling t else t).setPhase i request .logs
  else s.settle i request

/-- The status of a task never leaves the terminal ones. -/
def step (s : State T) : Action T → Option (State T)
  | .change task status =>
    if (s.server task).any isDone = true ∧ isDone status = false then none
    else some { s with server := Function.update s.server task (s.server task ++ [status]) }
  | .setTaskId task => some (setTaskId s task)
  | .selectTaskFromHistory task => some (selectTaskFromHistory s task)
  | .poll => s.pollRef.map fun targetId => runTaskSnapshot s targetId
  | .refreshTask => s.refs.taskIdRef.map fun targetId => runTaskSnapshot s targetId
  | .controlTask action => s.rendered.taskId.map fun targetId => controlTask s action targetId
  | .hearControl i =>
    match s.requests[i]? with
    | some ⟨generation, targetId, origin, .control⟩ =>
      let request : Request T := ⟨generation, targetId, origin, .control⟩
      if s.refs.isCurrentTask generation targetId = true then some (s.setPhase i request .status)
      else some (s.settle i request)
    | _ => none
  | .answerStatus i =>
    match s.requests[i]? with
    | some ⟨generation, targetId, origin, .status⟩ =>
      (s.server targetId).getLast?.map fun status =>
        s.setPhase i ⟨generation, targetId, origin, .status⟩
          (.answered ((s.server targetId).length - 1) status)
    | _ => none
  | .hearStatus i =>
    match s.requests[i]? with
    | some ⟨generation, targetId, origin, .answered changes status⟩ =>
      some (s.hearStatus i ⟨generation, targetId, origin, .answered changes status⟩
        ⟨targetId, changes, status⟩)
    | _ => none
  | .hearLogs i =>
    match s.requests[i]? with
    | some ⟨generation, targetId, origin, .logs⟩ =>
      some (s.settle i ⟨generation, targetId, origin, .logs⟩)
    | _ => none
  | .fail i missing =>
    s.requests[i]?.map fun request =>
      if missing = true ∧ request.origin = .poll ∧
          s.refs.isCurrentTask request.generation request.targetId = true then
        stopPolling (s.settle i request)
      else s.settle i request
  | .render =>
    match s.effect with
    | none =>
      some { s with
        rendered := s.view
        updates := []
        effect := if s.view.taskId = s.rendered.taskId then none else s.view.taskId }
    | some _ => none
  | .runEffect =>
    s.effect.map fun targetId =>
      { runTaskSnapshot { s with effect := none } targetId with pollRef := some targetId }

/-- The hook when it is mounted; the tasks may have gone through some statuses already. -/
def machine (T : Type*) [DecidableEq T] : Machine (State T) (Action T) where
  start s := (∀ task, (s.server task).Pairwise fun a b => isDone a = true → isDone b = true) ∧
    s.refs = ⟨0, none⟩ ∧ s.pollInFlightRef = none ∧ s.controlInFlightRef = [] ∧
    s.rendered = ⟨none, none⟩ ∧ s.updates = [] ∧ s.effect = none ∧ s.pollRef = none ∧
    s.requests = [] ∧ s.heard = []
  step := step

/-- The answer has been overtaken: a terminal status that the server gave later has been processed. -/
def Overtaken (s : State T) (answer : Answer T) : Prop :=
  ∃ earlier ∈ s.heard, earlier.task = answer.task ∧ answer.changes < earlier.changes ∧
    earlier.done = true

/-- No answer to a current request with an active status is processed after a terminal one that the server gave
later. -/
def Timely (s : State T) : Action T → Prop
  | .hearStatus i => ∀ generation targetId origin changes status,
      s.requests[i]? = some ⟨generation, targetId, origin, .answered changes status⟩ →
        s.refs.isCurrentTask generation targetId = true → isDone status = false →
          ¬ Overtaken s ⟨targetId, changes, status⟩
  | _ => True

def Update.answer : Update T → Option (Answer T)
  | .setTaskStatus _ answer => some answer
  | .setTaskIdState _ | .clearTaskStatus => none

/-- An answer on its way to the page. -/
def State.Told (s : State T) (x : Answer T) : Prop :=
  ∃ request ∈ s.requests, request.targetId = x.task ∧ request.phase = .answered x.changes x.status

def State.Latest (s : State T) (x : Answer T) : Prop :=
  (s.server x.task).getLast? = some x.status ∧ x.changes = (s.server x.task).length - 1

/-- A step that displays no answer; an answer it sends to the page is the server's latest. -/
structure Quiet (s t : State T) : Prop where
  server : t.server = s.server
  heard : t.heard = s.heard
  rendered : t.rendered = s.rendered
  updates : ∃ added, t.updates = s.updates ++ added ∧ added.filterMap Update.answer = []
  told : ∀ x, t.Told x → s.Told x ∨ s.Latest x
  refs : t.refs = s.refs ∨ s.refs.taskGenerationRef < t.refs.taskGenerationRef

/-- What a step can do to the statuses, the answers and the view. -/
inductive Effect (s : State T) : Action T → State T → Prop
  | quiet {a : Action T} {t : State T} (quiet : Quiet s t) : Effect s a t
  | changed {task : T} {status : String}
      (allowed : ¬ ((s.server task).any isDone = true ∧ isDone status = false)) :
      Effect s (.change task status)
        { s with server := Function.update s.server task (s.server task ++ [status]) }
  | heard {i : ℕ} {generation : ℕ} {x : Answer T} {origin : Origin} {t : State T}
      (request : s.requests[i]? = some ⟨generation, x.task, origin, .answered x.changes x.status⟩)
      (current : s.refs.isCurrentTask generation x.task = true)
      (server : t.server = s.server) (heard : t.heard = x :: s.heard)
      (rendered : t.rendered = s.rendered)
      (updates : t.updates = s.updates ++ [.setTaskStatus generation x])
      (told : ∀ y, t.Told y → s.Told y) (refs : t.refs = s.refs) : Effect s (.hearStatus i) t
  | rendered {t : State T} (server : t.server = s.server) (heard : t.heard = s.heard)
      (view : t.rendered = s.view) (updates : t.updates = []) (told : ∀ y, t.Told y → s.Told y)
      (refs : t.refs = s.refs) : Effect s .render t

omit [DecidableEq T] in
theorem Quiet.of_requests {s t : State T} (server : t.server = s.server) (heard : t.heard = s.heard)
    (rendered : t.rendered = s.rendered) (updates : t.updates = s.updates) (refs : t.refs = s.refs)
    (told : ∀ x, t.Told x → s.Told x ∨ s.Latest x) : Quiet s t :=
  ⟨server, heard, rendered, ⟨[], by simp [updates], rfl⟩, told, .inl refs⟩

omit [DecidableEq T] in
theorem Quiet.refl (s : State T) : Quiet s s := .of_requests rfl rfl rfl rfl rfl fun _ => .inl

omit [DecidableEq T] in
theorem Quiet.trans {s t u : State T} (h : Quiet s t) (g : Quiet t u) : Quiet s u := by
  obtain ⟨added, hadded, hnone⟩ := h.updates
  obtain ⟨added', hadded', hnone'⟩ := g.updates
  refine ⟨g.server.trans h.server, g.heard.trans h.heard, g.rendered.trans h.rendered,
    ⟨added ++ added', ?_, ?_⟩, fun x hx => ?_, ?_⟩
  · rw [hadded', hadded, List.append_assoc]
  · rw [List.filterMap_append, hnone, hnone', List.append_nil]
  · rcases g.told x hx with hold | hlatest
    · exact h.told x hold
    · exact .inr (by rwa [State.Latest, h.server] at hlatest)
  · rcases h.refs with hsame | hmore <;> rcases g.refs with hsame' | hmore'
    · exact .inl (hsame'.trans hsame)
    · exact .inr (hsame ▸ hmore')
    · exact .inr (hsame' ▸ hmore)
    · exact .inr (hmore.trans hmore')

omit [DecidableEq T] in
theorem told_append {s : State T} {x : Answer T} {generation : ℕ} {targetId : T} {origin : Origin}
    {phase : Phase} (hphase : ∀ changes status, phase ≠ .answered changes status)
    (h : ∃ request ∈ s.requests ++ [⟨generation, targetId, origin, phase⟩],
      request.targetId = x.task ∧ request.phase = .answered x.changes x.status) : s.Told x := by
  obtain ⟨request, hmem, htask, hanswered⟩ := h
  rcases List.mem_append.mp hmem with hold | hnew
  · exact ⟨request, hold, htask, hanswered⟩
  · obtain rfl := List.mem_singleton.mp hnew
    exact absurd hanswered (hphase _ _)

omit [DecidableEq T] in
theorem quiet_loadTaskSnapshot (s : State T) (targetId : T) (origin : Origin) :
    Quiet s (loadTaskSnapshot s targetId origin) :=
  .of_requests rfl rfl rfl rfl rfl fun _ hx => .inl (told_append (by simp) hx)

theorem quiet_runTaskSnapshot (s : State T) (targetId : T) : Quiet s (runTaskSnapshot s targetId) := by
  unfold runTaskSnapshot
  dsimp only
  split_ifs
  · exact .refl s
  · exact .refl s
  · have hmarked : Quiet s { s with
        pollInFlightRef := some (s.refs.taskGenerationRef, targetId) } :=
      .of_requests rfl rfl rfl rfl rfl fun _ => .inl
    exact hmarked.trans (quiet_loadTaskSnapshot _ _ _)

theorem quiet_controlTask (s : State T) (action : Control) (targetId : T) :
    Quiet s (controlTask s action targetId) := by
  unfold controlTask
  dsimp only
  split_ifs
  · exact .refl s
  · exact .refl s
  · exact .of_requests rfl rfl rfl rfl rfl fun _ hx => .inl (told_append (by simp) hx)

theorem quiet_setTaskId (s : State T) (nextId : T) : Quiet s (setTaskId s nextId) := by
  unfold setTaskId
  dsimp only
  split_ifs
  · exact ⟨rfl, rfl, rfl, ⟨[.setTaskIdState nextId], rfl, rfl⟩, fun _ => .inl, .inl rfl⟩
  · refine ⟨rfl, rfl, rfl, ⟨[.clearTaskStatus, .setTaskIdState nextId], ?_, rfl⟩, fun _ => .inl,
      .inr (Nat.lt_succ_self _)⟩
    exact List.append_assoc _ _ _

omit [DecidableEq T] in
theorem quiet_stopPolling (s : State T) : Quiet s (stopPolling s) :=
  .of_requests rfl rfl rfl rfl rfl fun _ => .inl

theorem quiet_settle (s : State T) (i : ℕ) (request : Request T) : Quiet s (s.settle i request) := by
  have htold : ∀ x : Answer T, (∃ request ∈ s.requests.eraseIdx i, request.targetId = x.task ∧
      request.phase = .answered x.changes x.status) → s.Told x ∨ s.Latest x := by
    rintro x ⟨other, hmem, hother⟩
    exact .inl ⟨other, List.mem_of_mem_eraseIdx hmem, hother⟩
  unfold State.settle
  split
  · dsimp only
    split_ifs
    · exact .of_requests rfl rfl rfl rfl rfl htold
    · exact .of_requests rfl rfl rfl rfl rfl htold
  · exact .of_requests rfl rfl rfl rfl rfl htold

omit [DecidableEq T] in
theorem told_setPhase {s : State T} {i : ℕ} {request : Request T} {phase : Phase} {x : Answer T}
    (h : (s.setPhase i request phase).Told x) :
    s.Told x ∨ request.targetId = x.task ∧ phase = .answered x.changes x.status := by
  obtain ⟨other, hmem, hother⟩ := h
  rcases List.mem_or_eq_of_mem_set hmem with hold | rfl
  · exact .inl ⟨other, hold, hother⟩
  · exact .inr hother

omit [DecidableEq T] in
theorem quiet_setPhase {s : State T} {i : ℕ} {request : Request T} {phase : Phase}
    (hphase : ∀ changes status, phase = .answered changes status →
      s.Latest ⟨request.targetId, changes, status⟩) : Quiet s (s.setPhase i request phase) := by
  refine .of_requests rfl rfl rfl rfl rfl fun x hx => ?_
  rcases told_setPhase hx with hold | ⟨htask, hnew⟩
  · exact .inl hold
  · have hlatest := hphase _ _ hnew
    rw [htask] at hlatest
    exact .inr hlatest

theorem step_effect {s t : State T} {a : Action T} (taken : step s a = some t) : Effect s a t := by
  cases a with
  | change task status =>
    simp only [step] at taken
    split_ifs at taken with hleft
    cases taken
    exact .changed hleft
  | setTaskId task =>
    cases taken
    exact .quiet (quiet_setTaskId s task)
  | selectTaskFromHistory task =>
    cases taken
    unfold selectTaskFromHistory
    split_ifs
    · exact .quiet ((quiet_setTaskId s task).trans (quiet_runTaskSnapshot _ _))
    · exact .quiet ((quiet_setTaskId s task).trans (quiet_stopPolling _))
  | poll =>
    obtain ⟨targetId, -, rfl⟩ := Option.map_eq_some_iff.mp taken
    exact .quiet (quiet_runTaskSnapshot s targetId)
  | refreshTask =>
    obtain ⟨targetId, -, rfl⟩ := Option.map_eq_some_iff.mp taken
    exact .quiet (quiet_runTaskSnapshot s targetId)
  | controlTask action =>
    obtain ⟨targetId, -, rfl⟩ := Option.map_eq_some_iff.mp taken
    exact .quiet (quiet_controlTask s action targetId)
  | hearControl i =>
    simp only [step] at taken
    split at taken
    · split_ifs at taken <;> cases taken
      · exact .quiet (quiet_setPhase nofun)
      · exact .quiet (quiet_settle s i _)
    · cases taken
  | answerStatus i =>
    simp only [step] at taken
    split at taken
    · obtain ⟨status, hlast, rfl⟩ := Option.map_eq_some_iff.mp taken
      refine .quiet (quiet_setPhase fun changes other hsame => ?_)
      cases hsame
      exact ⟨hlast, rfl⟩
    · cases taken
  | hearStatus i =>
    simp only [step] at taken
    split at taken
    · rename_i generation targetId origin changes status hrequest
      cases taken
      unfold State.hearStatus
      by_cases hcurrent : s.refs.isCurrentTask generation targetId = true
      · have htold : ∀ (u : State T) y, u.requests = s.requests →
            (u.setPhase i ⟨generation, targetId, origin, .answered changes status⟩ .logs).Told y →
              s.Told y := by
          intro u y hsame hy
          rcases told_setPhase hy with hold | ⟨-, hlogs⟩
          · rwa [State.Told, hsame] at hold
          · cases hlogs
        rw [if_pos hcurrent]
        dsimp only
        split_ifs
        · exact .heard (x := ⟨targetId, changes, status⟩) hrequest hcurrent rfl rfl rfl rfl
            (fun y => htold _ y rfl) rfl
        · exact .heard (x := ⟨targetId, changes, status⟩) hrequest hcurrent rfl rfl rfl rfl
            (fun y => htold _ y rfl) rfl
      · rw [if_neg hcurrent]
        exact .quiet (quiet_settle s i _)
    · cases taken
  | hearLogs i =>
    simp only [step] at taken
    split at taken <;> cases taken
    exact .quiet (quiet_settle s i _)
  | fail i missing =>
    obtain ⟨request, -, rfl⟩ := Option.map_eq_some_iff.mp taken
    split_ifs
    · exact .quiet ((quiet_settle s i request).trans (quiet_stopPolling _))
    · exact .quiet (quiet_settle s i request)
  | render =>
    simp only [step] at taken
    split at taken <;> cases taken
    exact .rendered rfl rfl rfl rfl (fun _ => id) rfl
  | runEffect =>
    obtain ⟨targetId, -, rfl⟩ := Option.map_eq_some_iff.mp taken
    have hcleared : Quiet s { s with effect := none } :=
      .of_requests rfl rfl rfl rfl rfl fun _ => .inl
    have hrun := hcleared.trans (quiet_runTaskSnapshot { s with effect := none } targetId)
    have hset : ∀ u : State T, Quiet u { u with pollRef := some targetId } :=
      fun u => .of_requests rfl rfl rfl rfl rfl fun _ => .inl
    exact .quiet (hrun.trans (hset _))

end UniversityHelper.StatusView
