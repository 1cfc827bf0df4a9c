import UniversityHelper.CourseTasks
import UniversityHelper.ZhihuishuActive

set_option linter.unusedSectionVars false

/-! A logout closes the records of the tasks that were created before it. They stay closed as
long as no handler brings back a status that it read before the logout, no errored task is
paused or resumed after it, and no start answers with the progress of a newer task. -/
namespace UniversityHelper.CourseTasks
open Zhihuishu
variable {H : Type*} [DecidableEq H]

/-- The status that a handler has read from the adapter and not yet written. -/
def Handler.written : Handler → Option (TaskId × String)
  | .answered _ _ id progress => some (id, progress.status)
  | .fetched id _ (some progress) => some (id, progress.status)
  | _ => none

/-- The task about which a handler is still to read the adapter. -/
def Handler.asks : Handler → Option TaskId
  | .fetching id _ | .threading _ _ id | .reading _ _ id => some id
  | _ => none

/-- No handler holds a status that would reopen the record of one of the first `n` tasks. -/
def NothingStale (n : ℕ) (s : State H) : Prop :=
  ∀ g id status, (s.handler g).written = some (id, status) → id < n → Terminal status

/-- Nor is one going to ask the adapter about one of them that is not over. -/
def NothingOpen (n : ℕ) (s : State H) : Prop :=
  ∀ g id, (s.handler g).asks = some id → id < n → ∀ task, s.adapter.tasks id = some task →
    isActive task.status = false

/-- The adapter's current task is of the course, and it is the task asked about or over. -/
def FindsOwn (s : State H) (courseId : String) (id : TaskId) : Prop :=
  ∃ current task, s.adapter.current = some current ∧ s.adapter.tasks current = some task ∧
    task.courseId = courseId ∧ (current = id ∨ isActive task.status = false)

/-- The condition on the steps from the adapter's logout on, where the adapter had created `n`
tasks and the logout is the one of handler `h`. -/
def Allowed (h : H) (n : ℕ) (s : State H) : Action H → Prop
  | .leave g _ => g = h → NothingStale n s
  | .run g => ∀ command, s.handler g = .commanding command → NotOnError s.adapter command.action
  | .readProgress g => ∀ endpoint r id, s.handler g = .reading endpoint r id → id < n →
      FindsOwn s r.courseId id
  | _ => True

theorem terminal_text {status : Status} (h : isActive status = false) : Terminal status.text := by
  rcases not_active_iff.mp h with rfl | rfl | rfl <;> decide

/-- The tasks that were replaced in the adapter are over. -/
def PastOver (s : Zhihuishu.State H) : Prop :=
  ∀ id task, s.tasks id = some task → s.current ≠ some id → isActive task.status = false

theorem PastOver.preserved {s t : Zhihuishu.State H} {a : Zhihuishu.Action H} (h : PastOver s)
    (taken : Zhihuishu.step s a = some t) : PastOver t := by
  intro x task htask hcurrent
  cases step_effect taken with
  | outside current tasks nextId worker caller sent =>
    exact h x task (tasks ▸ htask) (current ▸ hcurrent)
  | @reset _ id f current kind =>
    rcases tasks_modifyTask htask with ⟨rfl, -⟩ | ⟨-, hold⟩
    · exact absurd current hcurrent
    · exact h x task hold hcurrent
  | @cancelled _ id message loggedIn =>
    rcases tasks_modifyTask htask with ⟨-, old, -, rfl⟩ | ⟨-, hold⟩
    · rfl
    · exact h x task hold hcurrent
  | @installed c r videos ready free =>
    simp only [State.installTask, ne_eq, Option.some.injEq] at htask hcurrent
    rw [Function.update_of_ne (fun hx => hcurrent hx.symm)] at htask
    by_cases hx : s.current = some x
    · rw [State.conflict, currentTask_eq_some hx htask] at free
      simpa using free
    · exact h x task htask hx
  | started starting => exact h x task htask hcurrent
  | @startMarked _ c id failed message =>
    rcases tasks_modifyTask htask with ⟨-, old, -, rfl⟩ | ⟨-, hold⟩
    · rfl
    · exact h x task hold hcurrent
  | worked before after move => exact h x task htask hcurrent
  | @progressed _ id old f next before after current found running keeps status outside =>
    rcases tasks_modifyTask htask with ⟨rfl, -⟩ | ⟨-, hold⟩
    · exact absurd current hcurrent
    · exact h x task hold hcurrent
  | replaced before other => exact h x task htask hcurrent
  | @settled _ id f before keeps status =>
    rcases tasks_modifyTask htask with ⟨rfl, old, hold, rfl⟩ | ⟨-, hold⟩
    · exact (status old hold).1
    · exact h x task hold hcurrent

theorem PastOver.of_reachable {s : Zhihuishu.State H}
    (h : (Zhihuishu.machine H).Reachable Machine.free s) : PastOver s := by
  refine h.invariant (fun s hs id task htask => ?_) fun _ _ _ hs _ taken => hs.preserved taken
  rw [hs.2.1 id] at htask
  cases htask

theorem nextId_mono {s t : Zhihuishu.State H} {a : Zhihuishu.Action H}
    (taken : Zhihuishu.step s a = some t) : s.nextId ≤ t.nextId := by
  cases step_effect taken with
  | outside current tasks nextId worker caller sent => rw [nextId]
  | installed ready free => exact Nat.le_succ _
  | _ => exact le_refl _

/-- What the adapter's `logout` leaves behind: no task is active. -/
theorem logout_over {s t : Zhihuishu.State H} (past : PastOver s)
    (taken : Zhihuishu.step s .logout = some t) (id : TaskId) (task : Task)
    (htask : t.tasks id = some task) : isActive task.status = false := by
  obtain rfl : { s.modifyCurrent (cancelTask "Task cancelled by logout") with loggedIn := false } = t := by
    simpa [Zhihuishu.step] using taken
  cases hcurrent : s.current with
  | none =>
    simp only [State.modifyCurrent, hcurrent] at htask
    exact past id task htask (by simp [hcurrent])
  | some current =>
    simp only [State.modifyCurrent, hcurrent] at htask
    rcases tasks_modifyTask htask with ⟨-, old, -, rfl⟩ | ⟨hne, hold⟩
    · rfl
    · exact past id task hold (by simpa [hcurrent] using fun h => hne h.symm)

/-- A record that a step leaves was there before and is not reopened, or it shows the status that
handler `g` had read. -/
def Kept (s : State H) (g : H) (id : TaskId) (record : CourseTask) : Prop :=
  (∃ old, s.courseTasks.get id = some old ∧ (Terminal old.status → Terminal record.status)) ∨
    (s.handler g).written = some (id, record.status)

/-- What a step can do: call the adapter, move a handler, bring an answer home, or write records. -/
inductive Effect (s : State H) : Action H → State H → Prop
  | called {a : Action H} {g : H} {call : Zhihuishu.Action H} {adapter : Zhihuishu.State H}
      {next : Handler} (taken : Zhihuishu.step s.adapter call = some adapter)
      (written : next.written = none)
      (asks : ∀ id, next.asks = some id → (s.handler g).asks = some id ∨ s.adapter.nextId ≤ id)
      (reset : call = .pauseTask ∨ call = .resumeTask →
        ∃ command, a = .run g ∧ s.handler g = .commanding command ∧ call = command.action) :
      Effect s a ({ s with adapter := adapter }.goto g next)
  | moved {a : Action H} {g : H} {next : Handler} (written : next.written = none)
      (asks : ∀ id, next.asks = some id → s.registered = true) : Effect s a (s.goto g next)
  | fetched {g : H} {id : TaskId} {record : CourseTask} (before : s.handler g = .fetching id record) :
      Effect s (.fetch g) (s.goto g (.fetched id record ((s.adapter.tasks id).map (taskPayload id))))
  | read {g : H} {endpoint : Endpoint} {r : StartRequest} {id : TaskId}
      (before : s.handler g = .reading endpoint r id) :
      Effect s (.readProgress g)
        (s.goto g (.answered endpoint r id (progressOf s.adapter r.courseId)))
  | recorded {a : Action H} {g : H} {tasks : OrderedDict TaskId CourseTask} {registered : Bool}
      {reply : Reply} (kept : ∀ id record, tasks.get id = some record → Kept s g id record)
      (gone : registered = true → s.registered = true) :
      Effect s a ({ s with courseTasks := tasks, registered := registered }.goto g (.done reply))
  | cleaned {now : ℚ} :
      Effect s (.cleanup now) { s with courseTasks := cleanupTasks s.courseTasks now }
  | worked {a : Zhihuishu.Action H} {adapter : Zhihuishu.State H} (worker : ofWorker a = true)
      (taken : Zhihuishu.step s.adapter a = some adapter) :
      Effect s (.worker a) { s with adapter := adapter }

theorem call_effect {s t : State H} {a : Action H} {g : H} {call : Zhihuishu.Action H}
    {next : Zhihuishu.State H → Handler} (taken : s.call g call next = some t)
    (written : ∀ adapter, (next adapter).written = none)
    (asks : ∀ adapter, Zhihuishu.step s.adapter call = some adapter → ∀ id,
      (next adapter).asks = some id → (s.handler g).asks = some id ∨ s.adapter.nextId ≤ id)
    (reset : call = .pauseTask ∨ call = .resumeTask →
      ∃ command, a = .run g ∧ s.handler g = .commanding command ∧ call = command.action) :
    Effect s a t := by
  obtain ⟨adapter, hadapter, rfl⟩ := Option.map_eq_some_iff.mp taken
  exact .called hadapter (written adapter) (asks adapter hadapter) reset

theorem markTask_terminal {status message : String} {now : ℚ} {task : CourseTask}
    (h : Terminal task.status) : Terminal (markTask status message now task).status := by
  rw [markTask, if_pos h]
  exact h

theorem mapValues_kept {s : State H} {g : H} {status message : String} {now : ℚ} {id : TaskId}
    {record : CourseTask}
    (h : (s.courseTasks.mapValues (markTask status message now)).get id = some record) :
    Kept s g id record := by
  rw [OrderedDict.get_mapValues] at h
  obtain ⟨old, hold, rfl⟩ := Option.map_eq_some_iff.mp h
  exact Or.inl ⟨old, hold, markTask_terminal⟩

theorem markTasks_effect {s : State H} {a : Action H} {g : H} {command : Command} {message : String}
    {now : ℚ} {reply : Reply} :
    Effect s a ((s.markTasks command message now).goto g (.done reply)) := by
  cases command with
  | pause | resume | cancel => exact .recorded (fun _ _ h => mapValues_kept h) fun h => h
  | cancelById target =>
    refine .recorded (fun id record h => ?_) fun h => h
    rw [OrderedDict.get_modify] at h
    split at h
    · obtain ⟨old, hold, rfl⟩ := Option.map_eq_some_iff.mp h
      exact Or.inl ⟨old, hold, markTask_terminal⟩
    · exact Or.inl ⟨record, h, fun hterminal => hterminal⟩

theorem begin_effect {s : State H} {a : Action H} {g : H} {now : ℚ} {request : Request} :
    Effect s a (s.begin g now request) := by
  cases request with
  | start endpoint r =>
    refine .moved ?_ ?_ <;> split <;> (try split) <;> simp [Handler.written, Handler.asks]
  | status id => exact .moved rfl fun _ h => by cases h
  | command command => refine .moved ?_ ?_ <;> split <;> simp [Handler.written, Handler.asks]
  | logout =>
    simp only [State.begin]
    split
    · exact .moved rfl fun _ h => by cases h
    · exact .recorded (fun _ _ h => mapValues_kept h) fun h => by cases h

theorem lookUp_effect {s : State H} {a : Action H} {g : H} {id : TaskId} :
    Effect s a (s.lookUp g id) := by
  unfold State.lookUp
  split
  · exact .moved rfl fun _ h => by cases h
  · split
    · rename_i hregistered
      exact .moved rfl fun _ _ => hregistered
    · exact .moved rfl fun _ h => by cases h

theorem install_starting {s t : Zhihuishu.State H} {g : H} {id : TaskId}
    (taken : Zhihuishu.step s (.install g) = some t) (starting : t.caller g = .starting id) :
    id = s.nextId := by
  simp only [Zhihuishu.step] at taken
  split at taken
  · rename_i r videos hloaded
    obtain rfl := Option.some_inj.mp taken
    split at starting
    · simp [Zhihuishu.State.call] at starting
    · simp only [State.installTask, Function.update_self] at starting
      split at starting
      · cases starting
      · exact (Caller.starting.inj starting).symm
  · cases taken

theorem handle_effect {s t : State H} {g : H} {a : Action H} (owner : a.owner = some g)
    (taken : s.handle g (s.handler g) a = some t) : Effect s a t := by
  unfold State.handle at taken
  split at taken
  case h_1 endpoint r h hbefore =>
    obtain rfl := Option.some_inj.mp taken
    exact .moved rfl fun _ h => by cases h
  case h_2 endpoint r h hbefore =>
    refine call_effect taken (fun _ => ?_) (fun _ _ id hid => ?_) (by simp)
    · split
      · rfl
      · split <;> rfl
    · split at hid
      · cases hid
      · split at hid <;> cases hid
  case h_3 endpoint r h videos hbefore =>
    exact call_effect taken (fun _ => rfl) (fun _ _ _ h => by cases h) (by simp)
  case h_4 endpoint r h failure hbefore =>
    exact call_effect taken (fun _ => rfl) (fun _ _ _ h => by cases h) (by simp)
  case h_5 endpoint r h hbefore =>
    refine call_effect taken (fun _ => ?_) (fun adapter hadapter id hid => ?_) (by simp)
    · split
      · rfl
      · split <;> rfl
    · right
      split at hid
      · cases hid
      · split at hid
        · rename_i x hstarting
          rw [← Option.some_inj.mp hid, install_starting hadapter hstarting]
        · exact le_of_eq (Option.some_inj.mp hid)
  case h_6 endpoint r id h hbefore =>
    refine call_effect taken (fun _ => rfl) (fun _ _ x hx => Or.inl ?_) (by simp)
    rw [hbefore]
    exact hx
  case h_7 endpoint r id h causes hbefore =>
    exact call_effect taken (fun _ => rfl) (fun _ _ _ h => by cases h) (by simp)
  case h_8 endpoint id causes h hbefore =>
    exact call_effect taken (fun _ => rfl) (fun _ _ _ h => by cases h) (by simp)
  case h_9 endpoint r id h hbefore =>
    obtain rfl : h = g := by simpa [Action.owner] using owner
    obtain rfl := Option.some_inj.mp taken
    exact .read hbefore
  case h_10 endpoint r id progress h now hbefore =>
    obtain rfl := Option.some_inj.mp taken
    refine .recorded (fun x record hrecord => ?_) fun h => h
    rw [OrderedDict.get_set] at hrecord
    split at hrecord
    · rename_i hx
      obtain rfl := Option.some_inj.mp hrecord
      right
      rw [hbefore, hx]
      rfl
    · exact Or.inl ⟨record, hrecord, fun h => h⟩
  case h_11 id h found hbefore =>
    obtain rfl := Option.some_inj.mp taken
    split
    · exact .moved rfl fun _ h => by cases h
    · exact lookUp_effect
  case h_12 id record h hbefore =>
    obtain rfl : h = g := by simpa [Action.owner] using owner
    obtain rfl := Option.some_inj.mp taken
    exact .fetched hbefore
  case h_13 id record h now hbefore =>
    obtain rfl := Option.some_inj.mp taken
    exact .moved rfl fun _ h => by cases h
  case h_14 id record progress h now hbefore =>
    obtain rfl := Option.some_inj.mp taken
    refine .recorded (fun x record hrecord => ?_) fun h => h
    rw [OrderedDict.get_modify] at hrecord
    split at hrecord
    · rename_i hx
      obtain ⟨old, hold, rfl⟩ := Option.map_eq_some_iff.mp hrecord
      right
      rw [hbefore, hx]
      rfl
    · exact Or.inl ⟨record, hrecord, fun h => h⟩
  case h_15 command h hbefore =>
    obtain rfl : h = g := by simpa [Action.owner] using owner
    exact call_effect taken (fun _ => rfl) (fun _ _ _ h => by cases h)
      fun _ => ⟨command, rfl, hbefore, rfl⟩
  case h_16 command reply h now hbefore =>
    obtain rfl := Option.some_inj.mp taken
    split
    · split
      · exact .moved rfl fun _ h => by cases h
      · exact markTasks_effect
    · exact markTasks_effect
  case h_17 h hbefore =>
    exact call_effect taken (fun _ => rfl) (fun _ _ _ h => by cases h) (by simp)
  case h_18 h now hbefore =>
    obtain rfl := Option.some_inj.mp taken
    exact .recorded (fun _ _ h => mapValues_kept h) fun h => by cases h
  case h_19 => cases taken

theorem step_effect {s t : State H} {a : Action H} (taken : step s a = some t) : Effect s a t := by
  unfold step at taken
  split at taken
  case h_1 h request now =>
    split at taken
    · obtain rfl := Option.some_inj.mp taken
      exact begin_effect
    · cases taken
  case h_2 now =>
    obtain rfl := Option.some_inj.mp taken
    exact .cleaned
  case h_3 a =>
    split at taken
    · rename_i hworker
      obtain ⟨adapter, hadapter, rfl⟩ := Option.map_eq_some_iff.mp taken
      exact .worked hworker hadapter
    · cases taken
  case h_4 =>
    obtain ⟨g, hg, hhandle⟩ := Option.bind_eq_some_iff.mp taken
    exact handle_effect hg hhandle

theorem adapter_step {s t : State H} {a : Action H} (effect : Effect s a t) :
    t.adapter = s.adapter ∨ ∃ call, Zhihuishu.step s.adapter call = some t.adapter ∧
      (call = .pauseTask ∨ call = .resumeTask → ∃ g command, a = .run g ∧
        s.handler g = .commanding command ∧ call = command.action) := by
  cases effect with
  | @called _ g call adapter next taken written asks reset => exact .inr ⟨call, taken, fun h => ⟨g, reset h⟩⟩
  | @worked call adapter worker taken =>
    refine .inr ⟨call, taken, fun h => ?_⟩
    rcases h with rfl | rfl <;> cases worker
  | _ => exact .inl rfl

theorem adapter_reachable {s : State H} (h : (machine H).Reachable Machine.free s) :
    (Zhihuishu.machine H).Reachable Machine.free s.adapter := by
  refine h.invariant (I := fun u => (Zhihuishu.machine H).Reachable Machine.free u.adapter)
    (fun s hs => ?_) fun s a t hs _ taken => ?_
  · have hstart : (Zhihuishu.machine H).start s.adapter := hs.1
    exact .start hstart
  · rcases adapter_step (step_effect taken) with heq | ⟨call, hcall, -⟩
    · rw [heq]
      exact hs
    · have htaken : (Zhihuishu.machine H).step s.adapter call = some t.adapter := hcall
      exact hs.tail trivial htaken

theorem none_of_older {s t : Zhihuishu.State H} {a : Zhihuishu.Action H}
    (taken : Zhihuishu.step s a = some t) {id : TaskId} (older : id < s.nextId)
    (h : s.tasks id = none) : t.tasks id = none := by
  have hmodify : ∀ x f, (s.modifyTask x f).tasks id = none := fun x f => by
    rw [← Option.not_isSome_iff_eq_none, isSome_modifyTask, h]
    simp
  cases Zhihuishu.step_effect taken with
  | outside current tasks nextId worker caller sent => rw [tasks, h]
  | reset current kind => exact hmodify _ _
  | cancelled message loggedIn => exact hmodify _ _
  | installed ready free =>
    simp only [State.installTask, Function.update_of_ne (Nat.ne_of_lt older)]
    exact h
  | startMarked failed message => exact hmodify _ _
  | progressed before after current found running keeps status outside => exact hmodify _ _
  | settled before keeps status => exact hmodify _ _
  | _ => exact h

/-- A task of the adapter that is over stays over, if no errored task is paused or resumed. -/
theorem over_preserved {s t : Zhihuishu.State H} {a : Zhihuishu.Action H} (tracked : Tracked s)
    (ok : NotOnError s a) (taken : Zhihuishu.step s a = some t) {id : TaskId} (older : id < s.nextId)
    (h : ∀ task, s.tasks id = some task → isActive task.status = false) (task : Task)
    (htask : t.tasks id = some task) : isActive task.status = false := by
  cases hold : s.tasks id with
  | none =>
    rw [none_of_older taken older hold] at htask
    cases htask
  | some old =>
    obtain ⟨later, hlater, hover⟩ := finished_preserved tracked ok taken ⟨old, hold, h old hold⟩
    obtain rfl := Option.some_inj.mp (hlater.symm.trans htask)
    exact hover

/-- From the adapter's logout on the first `n` tasks are over in the adapter. -/
structure Over (n : ℕ) (s : State H) : Prop where
  born : n ≤ s.adapter.nextId
  ended : ∀ id, id < n → ∀ task, s.adapter.tasks id = some task → isActive task.status = false

theorem Over.preserved {s t : State H} {a : Action H} {h : H} {n : ℕ} (tracked : Tracked s.adapter)
    (hs : Over n s) (ok : Allowed h n s a) (taken : step s a = some t) : Over n t := by
  rcases adapter_step (step_effect taken) with heq | ⟨call, hcall, reset⟩
  · exact ⟨by rw [heq]; exact hs.born, by rw [heq]; exact hs.ended⟩
  · have hok : NotOnError s.adapter call := by
      intro hreset
      obtain ⟨g, command, rfl, hbefore, rfl⟩ := reset hreset
      exact ok command hbefore hreset
    exact ⟨hs.born.trans (nextId_mono hcall), fun id hid =>
      over_preserved tracked hok hcall (lt_of_lt_of_le hid hs.born) (hs.ended id hid)⟩

/-- What holds from the return of the logout on. -/
structure Shut (n : ℕ) (s : State H) : Prop where
  gone : s.registered = false
  born : n ≤ s.adapter.nextId
  records : ∀ id record, s.courseTasks.get id = some record → id < n → Terminal record.status
  stale : NothingStale n s
  settled : NothingOpen n s

theorem NothingStale.goto {s s' : State H} {g : H} {next : Handler} {n : ℕ} (hs : NothingStale n s)
    (handlers : s'.handler = s.handler)
    (fresh : ∀ id status, next.written = some (id, status) → id < n → Terminal status) :
    NothingStale n (s'.goto g next) := by
  intro x id status hwritten hid
  by_cases hx : x = g
  · subst hx
    simp only [State.goto, Function.update_self] at hwritten
    exact fresh id status hwritten hid
  · simp only [State.goto, Function.update_of_ne hx, handlers] at hwritten
    exact hs x id status hwritten hid

theorem NothingOpen.goto {s s' : State H} {g : H} {next : Handler} {n : ℕ} (hs : NothingOpen n s)
    (handlers : s'.handler = s.handler)
    (ended : ∀ id, id < n → (∀ task, s.adapter.tasks id = some task → isActive task.status = false) →
      ∀ task, s'.adapter.tasks id = some task → isActive task.status = false)
    (asks : ∀ id, next.asks = some id → id < n → (s.handler g).asks = some id) :
    NothingOpen n (s'.goto g next) := by
  intro x id hasks hid
  have hold : (s.handler x).asks = some id := by
    by_cases hx : x = g
    · subst hx
      simp only [State.goto, Function.update_self] at hasks
      exact asks id hasks hid
    · simpa only [State.goto, Function.update_of_ne hx, handlers] using hasks
  exact ended id hid (hs x id hold hid)

/-- What `get_progress` answers is terminal, if it finds the task itself or one that is over. -/
theorem progressOf_terminal {s : State H} {courseId : String} {id : TaskId}
    (own : FindsOwn s courseId id)
    (ended : ∀ task, s.adapter.tasks id = some task → isActive task.status = false) :
    Terminal (progressOf s.adapter courseId).status := by
  obtain ⟨current, task, hcurrent, htask, hcourse, hown⟩ := own
  have hover : isActive task.status = false := by
    rcases hown with rfl | hover
    · exact ended task htask
    · exact hover
  rw [progressOf, hcurrent, currentTask_eq_some hcurrent htask]
  simp only [hcourse, if_true]
  exact terminal_text hover

theorem Shut.preserved {s t : State H} {a : Action H} {h : H} {n : ℕ} (tracked : Tracked s.adapter)
    (hs : Shut n s) (ok : Allowed h n s a) (taken : step s a = some t) : Shut n t := by
  cases step_effect taken with
  | @called _ g call adapter next hcall written asks reset =>
    have hok : NotOnError s.adapter call := by
      intro hreset
      obtain ⟨command, rfl, hbefore, rfl⟩ := reset hreset
      exact ok command hbefore hreset
    refine ⟨hs.gone, hs.born.trans (nextId_mono hcall), hs.records, hs.stale.goto rfl ?_,
      hs.settled.goto rfl (fun id hid hover => ?_) fun id hasks hid => ?_⟩
    · intro id status hwritten
      rw [written] at hwritten
      cases hwritten
    · exact over_preserved tracked hok hcall (lt_of_lt_of_le hid hs.born) hover
    · rcases asks id hasks with hold | hnew
      · exact hold
      · exact absurd (lt_of_lt_of_le hid hs.born) (not_lt.mpr hnew)
  | @moved _ g next written asks =>
    refine ⟨hs.gone, hs.born, hs.records, hs.stale.goto rfl ?_,
      hs.settled.goto rfl (fun _ _ hover => hover) fun id hasks _ => ?_⟩
    · intro id status hwritten
      rw [written] at hwritten
      cases hwritten
    · have hgone := hs.gone
      rw [asks id hasks] at hgone
      cases hgone
  | @fetched g id record before =>
    refine ⟨hs.gone, hs.born, hs.records, hs.stale.goto rfl ?_,
      hs.settled.goto rfl (fun _ _ hover => hover) fun _ hasks _ => by cases hasks⟩
    intro x status hwritten hid
    cases htask : s.adapter.tasks id with
    | none =>
      rw [htask] at hwritten
      cases hwritten
    | some task =>
      rw [htask] at hwritten
      obtain ⟨rfl, rfl⟩ := Prod.mk.inj (Option.some_inj.mp hwritten)
      exact terminal_text (hs.settled g id (by rw [before]; rfl) hid task htask)
  | @read g endpoint r id before =>
    refine ⟨hs.gone, hs.born, hs.records, hs.stale.goto rfl ?_,
      hs.settled.goto rfl (fun _ _ hover => hover) fun _ hasks _ => by cases hasks⟩
    intro x status hwritten hid
    obtain ⟨rfl, rfl⟩ := Prod.mk.inj (Option.some_inj.mp hwritten)
    exact progressOf_terminal (ok endpoint r id before hid)
      (hs.settled g id (by rw [before]; rfl) hid)
  | @recorded _ g tasks registered reply kept gone =>
    refine ⟨?_, hs.born, fun id record hrecord hid => ?_, hs.stale.goto rfl (fun _ _ h => by cases h),
      hs.settled.goto rfl (fun _ _ hover => hover) fun _ hasks _ => by cases hasks⟩
    · cases hregistered : registered with
      | false => rfl
      | true =>
        have := gone hregistered
        rw [hs.gone] at this
        cases this
    · rcases kept id record hrecord with ⟨old, hold, hkeeps⟩ | hwritten
      · exact hkeeps (hs.records id old hold hid)
      · exact hs.stale g id record.status hwritten hid
  | @cleaned now =>
    refine ⟨hs.gone, hs.born, fun id record hrecord hid => ?_, hs.stale, hs.settled⟩
    rw [cleanupTasks, OrderedDict.get_filter, Option.filter_eq_some_iff] at hrecord
    exact hs.records id record hrecord.1 hid
  | @worked call adapter worker hcall =>
    have hok : NotOnError s.adapter call := by
      rintro (rfl | rfl) <;> cases worker
    exact ⟨hs.gone, hs.born.trans (nextId_mono hcall), hs.records, hs.stale, fun x id hasks hid =>
      over_preserved tracked hok hcall (lt_of_lt_of_le hid hs.born) (hs.settled x id hasks hid)⟩

theorem Shut.run {s t : State H} {h : H} {n : ℕ} (hs : Shut n s)
    (reachable : (machine H).Reachable Machine.free s) (run : (machine H).Run (Allowed h n) s t) :
    Shut n t := by
  have hboth := run.keeps (I := fun u => (machine H).Reachable Machine.free u ∧ Shut n u)
    (fun u a v hu ok taken => ⟨hu.1.tail trivial taken,
      hu.2.preserved (Tracked.of_reachable (adapter_reachable hu.1)) ok taken⟩) ⟨reachable, hs⟩
  exact hboth.2

theorem Over.run {s t : State H} {h : H} {n : ℕ} (hs : Over n s)
    (reachable : (machine H).Reachable Machine.free s) (run : (machine H).Run (Allowed h n) s t) :
    Over n t := by
  have hboth := run.keeps (I := fun u => (machine H).Reachable Machine.free u ∧ Over n u)
    (fun u a v hu ok taken => ⟨hu.1.tail trivial taken,
      hu.2.preserved (Tracked.of_reachable (adapter_reachable hu.1)) ok taken⟩) ⟨reachable, hs⟩
  exact hboth.2

/-- The last part of a logout closes every record that it finds. -/
theorem Shut.of_closeTasks {s : State H} {h : H} {n : ℕ} {now : ℚ} (born : n ≤ s.adapter.nextId)
    (stale : NothingStale n s) (settled : NothingOpen n s) : Shut n (s.closeTasks h now) := by
  refine ⟨rfl, born, fun id record hrecord _ => ?_, stale.goto rfl (fun _ _ h => by cases h),
    settled.goto rfl (fun _ _ hover => hover) fun _ hasks _ => by cases hasks⟩
  simp only [State.closeTasks, State.goto, OrderedDict.get_mapValues] at hrecord
  obtain ⟨old, hold, rfl⟩ := Option.map_eq_some_iff.mp hrecord
  by_cases hterminal : Terminal old.status
  · exact markTask_terminal hterminal
  · rw [markTask, if_neg hterminal]
    simp [Terminal, terminalTaskStatuses]

/-- The records of the first `n` tasks are terminal. -/
def Closed (n : ℕ) (s : State H) : Prop :=
  ∀ id record, s.courseTasks.get id = some record → id < n → Terminal record.status

/-- A handler that comes back with a status that is not terminal reopens the record, however late
it is. -/
theorem written_reopens {s : State H} {g : H} {id : TaskId} {status : String}
    (written : (s.handler g).written = some (id, status)) (known : (s.courseTasks.get id).isSome)
    (hopen : ¬ Terminal status) : ∃ a t record, step s a = some t ∧
      t.courseTasks.get id = some record ∧ ¬ Terminal record.status := by
  cases hg : s.handler g with
  | answered endpoint r x progress =>
    rw [hg] at written
    obtain ⟨rfl, rfl⟩ := Prod.mk.inj (Option.some_inj.mp written)
    have taken : step s (.register g 0) = s.handle g (s.handler g) (.register g 0) := rfl
    rw [hg] at taken
    exact ⟨.register g 0, _, newCourseTask endpoint r.courseId progress 0, taken,
      by simp [State.goto], hopen⟩
  | fetched x record progress =>
    rw [hg] at written
    cases progress with
    | none => cases written
    | some progress =>
      obtain ⟨rfl, rfl⟩ := Prod.mk.inj (Option.some_inj.mp written)
      obtain ⟨old, hold⟩ := Option.isSome_iff_exists.mp known
      have taken : step s (.sync g 0) = s.handle g (s.handler g) (.sync g 0) := rfl
      rw [hg] at taken
      exact ⟨.sync g 0, _, syncTask progress 0 old, taken, by simp [State.goto, hold], hopen⟩
  | _ =>
    rw [hg] at written
    cases written

/-- A logout closes the records of all tasks that the adapter had created when it logged out, and
they stay closed, if from then on every step meets the condition. A logout that finds no adapter
any more closes them too, if no other handler is on its way to write or to ask about an open one. -/
theorem logout_closes_records :
    (∀ (s t u v w : State H) (h : H) (now : ℚ), (machine H).Reachable Machine.free s →
      s.handler h = .leaving → step s (.logoutAdapter h) = some t →
      (machine H).Run (Allowed h s.adapter.nextId) t u →
      Allowed h s.adapter.nextId u (.leave h now) → step u (.leave h now) = some v →
      (machine H).Run (Allowed h s.adapter.nextId) v w → Closed s.adapter.nextId w) ∧
    (∀ (s v w : State H) (h : H) (now : ℚ), (machine H).Reachable Machine.free s →
      s.registered = false → step s (.request h .logout now) = some v →
      NothingStale s.adapter.nextId s → NothingOpen s.adapter.nextId s →
      (machine H).Run (Allowed h s.adapter.nextId) v w → Closed s.adapter.nextId w) := by
  refine ⟨fun s t u v w h now hs hleaving hlogout before ok hleave after => ?_,
    fun s v w h now hs gone hlogout stale settled after => ?_⟩
  · have htaken : (machine H).step s (.logoutAdapter h) = some t := hlogout
    have hleft : (machine H).step u (.leave h now) = some v := hleave
    have ht := hs.tail trivial htaken
    have hu := ht.run before.free
    have hv := hu.tail trivial hleft
    have hover : Over s.adapter.nextId t := by
      simp only [step, Action.owner, Option.bind_some, hleaving, State.handle] at hlogout
      obtain ⟨adapter, hadapter, rfl⟩ := Option.map_eq_some_iff.mp hlogout
      exact ⟨nextId_mono hadapter, fun id _ =>
        logout_over (PastOver.of_reachable (adapter_reachable hs)) hadapter id⟩
    have hlate := hover.run ht before
    have hshut : Shut s.adapter.nextId v := by
      simp only [step, Action.owner, Option.bind_some] at hleave
      cases hleft : u.handler h with
      | left =>
        simp only [hleft, State.handle, Option.some.injEq] at hleave
        subst hleave
        exact Shut.of_closeTasks hlate.born (ok rfl) fun _ id _ hid => hlate.ended id hid
      | _ => simp [hleft, State.handle] at hleave
    exact (hshut.run hv after).records
  · have htaken : (machine H).step s (.request h .logout now) = some v := hlogout
    have hv := hs.tail trivial htaken
    have hshut : Shut s.adapter.nextId v := by
      simp only [step] at hlogout
      split at hlogout
      · obtain rfl := Option.some_inj.mp hlogout
        simp only [State.begin, gone, Bool.false_eq_true, if_false]
        exact Shut.of_closeTasks (le_refl _) stale settled
      · cases hlogout
    exact (hshut.run hv after).records

def newDesk : State Bool :=
  ⟨⟨true, none, fun _ => none, 0, fun _ => .absent, fun _ => .idle, fun _ => 0⟩, true, .empty,
    fun _ => .idle⟩

/-- A task is started, its status is asked for, and the answer is under way when a logout comes. -/
def logoutDuringStatus : List (Action Bool) :=
  [.request true (.start .start oneStart) 0, .check true, .loadVideos true (.ok [oneVideo]),
    .install true, .startThread true none, .readProgress true, .register true 1,
    .request true (.status 0) 2, .learningAnswered true false, .fetch true, .request false .logout 3]

def askedDesk : State Bool := ((machine Bool).exec newDesk logoutDuringStatus).getD newDesk

theorem late_status_reopens :
    (machine Bool).Reachable Machine.free askedDesk ∧ askedDesk.handler false = .leaving ∧
      0 < askedDesk.adapter.nextId ∧ ∃ t v w record,
        step askedDesk (.logoutAdapter false) = some t ∧ step t (.leave false 4) = some v ∧
        step v (.sync true 5) = some w ∧ w.courseTasks.get 0 = some record ∧
        ¬ Terminal record.status := by
  refine ⟨Machine.reachable_of_exec (s := newDesk) logoutDuringStatus
    ⟨⟨rfl, fun _ => rfl, fun _ => rfl, fun _ => rfl, fun _ => rfl⟩, rfl, rfl, fun _ => rfl⟩ rfl, rfl,
    by decide, _, _, _, _, rfl, rfl, rfl, rfl, by decide⟩

end UniversityHelper.CourseTasks
