import UniversityHelper.ZhihuishuAdapter

set_option linter.unusedSectionVars false

/-! What one step of the adapter can do to the tasks, the workers and the pending starts, and
what holds in every run. -/
namespace UniversityHelper.Zhihuishu
variable {C : Type*} [DecidableEq C]

/-- The task a thread inside `start_course` has installed and not yet settled. -/
def Caller.pending : Caller → Option TaskId
  | .starting id | .startFailed id => some id
  | .idle | .loading _ | .loaded _ _ => none

/-- The worker thread of the task runs, or the call that created the task has neither started it
nor recorded that it could not. -/
def State.attended (s : State C) (id : TaskId) : Prop :=
  (s.worker id).alive = true ∨ ∃ c, (s.caller c).pending = some id

/-- How a worker moves without touching its task, and the requests counted after it. -/
inductive WatchMove (s : State C) (id : TaskId) : Worker → (TaskId → ℕ) → Prop
  | outside {next : Worker} (left : next.inPlayback = false) : WatchMove s id next s.sentAfterCancel
  | entered {index : ℕ} {video : Video} {speed : ℚ} {autoAnswer : Bool}
      (before : s.worker id = .entering index video speed autoAnswer) :
      WatchMove s id (.watching index (watchVideo video speed autoAnswer)) s.sentAfterCancel
  | gated {index : ℕ} {pass : Watch} (before : s.worker id = .watching index (.gate pass)) :
      WatchMove s id (.waiting index .first pass) s.sentAfterCancel
  | slept {index : ℕ} {next : Watch} (before : s.worker id = .watching index (.sleep next)) :
      WatchMove s id (.watching index next) s.sentAfterCancel
  | polled {index : ℕ} {gate gate' : Gate} {pass : Watch}
      (before : s.worker id = .waiting index gate pass) :
      WatchMove s id (.waiting index gate' pass) s.sentAfterCancel
  | passed {index : ℕ} {pass : Watch} (before : s.worker id = .waiting index .last pass)
      (uncancelled : s.isTaskCancelled id = false) :
      WatchMove s id (.watching index pass) s.sentAfterCancel
  | sent {index : ℕ} {r : Request} {next : r.Answer → Watch}
      (before : s.worker id = .watching index (.request r next)) :
      WatchMove s id (.inFlight index r next) (s.countSent id).sentAfterCancel
  | received {index : ℕ} {r : Request} {next : r.Answer → Watch} (answer : r.Answer)
      (before : s.worker id = .inFlight index r next) :
      WatchMove s id (.watching index (next answer)) s.sentAfterCancel

theorem WatchMove.inPlayback {s : State C} {id : TaskId} {next : Worker} {sent : TaskId → ℕ}
    (h : WatchMove s id next sent) (hnext : next.inPlayback = true) :
    (s.worker id).inPlayback = true := by
  cases h with
  | outside left =>
    rw [hnext] at left
    cases left
  | entered before | gated before | slept before | polled before | passed before
  | sent before | received answer before =>
    rw [before]
    rfl

inductive Effect (s : State C) : Action C → State C → Prop
  | outside {a : Action C} {t : State C} (current : t.current = s.current) (tasks : t.tasks = s.tasks)
      (nextId : t.nextId = s.nextId) (worker : t.worker = s.worker)
      (caller : ∀ c, (t.caller c).pending = (s.caller c).pending)
      (sent : t.sentAfterCancel = s.sentAfterCancel) : Effect s a t
  | reset {a : Action C} {id : TaskId} {f : Task → Task} (current : s.current = some id)
      (kind : a = .pauseTask ∧ f = pauseTask ∨ a = .resumeTask ∧ f = resumeTask) :
      Effect s a (s.modifyTask id f)
  | cancelled {a : Action C} {id : TaskId} (message : String) (loggedIn : Bool) :
      Effect s a { s.modifyTask id (cancelTask message) with loggedIn := loggedIn }
  | installed {c : C} {r : StartRequest} {videos : List Video} (ready : (s.caller c).pending = none)
      (free : s.conflict = false) : Effect s (.install c) (s.installTask c r videos)
  | started {a : Action C} {c : C} {id : TaskId} (starting : s.caller c = .starting id) :
      Effect s a ((s.call c .idle).goto id (.deciding 0))
  | startMarked {a : Action C} {c : C} {id : TaskId} (failed : s.caller c = .startFailed id)
      (message : String) : Effect s a ((s.call c .idle).modifyTask id (markTaskError message))
  | worked {a : Action C} {id : TaskId} {next : Worker} (before : (s.worker id).alive = true)
      (after : next.alive = true) {sent : TaskId → ℕ} (move : WatchMove s id next sent) :
      Effect s a { s.goto id next with sentAfterCancel := sent }
  | progressed {a : Action C} {id : TaskId} {task : Task} {f : Task → Task} {next : Worker}
      (before : (s.worker id).alive = true) (after : next.alive = true)
      (current : s.current = some id) (found : s.tasks id = some task)
      (running : task.cancelled = false) (keeps : (f task).cancelled = false)
      (status : isActive (f task).status = true ∨ (f task).status = task.status)
      (outside : next.inWatch = false) : Effect s a ((s.modifyTask id f).goto id next)
  | replaced {a : Action C} {id : TaskId} (before : (s.worker id).alive = true)
      (other : s.current ≠ some id ∨ s.tasks id = none) : Effect s a (s.goto id .returned)
  | settled {a : Action C} {id : TaskId} {f : Task → Task} (before : (s.worker id).alive = true)
      (keeps : ∀ task, (f task).cancelled = task.cancelled)
      (status : ∀ task, s.tasks id = some task → isActive (f task).status = false ∧
        ((f task).status = .cancelled → task.cancelled = true)) :
      Effect s a ((s.modifyTask id f).goto id .returned)

theorem pending_update {s : State C} {c : C} {next : Caller}
    (same : next.pending = (s.caller c).pending) (d : C) :
    ((s.call c next).caller d).pending = (s.caller d).pending := by
  by_cases hdc : d = c
  · subst hdc
    simp [State.call, same]
  · simp [State.call, hdc]

theorem call_effect {s : State C} {a : Action C} {c : C} {next : Caller}
    (same : next.pending = (s.caller c).pending) : Effect s a (s.call c next) :=
  .outside rfl rfl rfl rfl (pending_update same) rfl

theorem goto_effect {s : State C} {a : Action C} {id : TaskId} {next : Worker}
    (before : (s.worker id).alive = true) (after : next.alive = true)
    (move : WatchMove s id next s.sentAfterCancel) : Effect s a (s.goto id next) :=
  .worked before after move

@[simp] theorem isActive_iff {status : Status} :
    isActive status = true ↔ status = .running ∨ status = .paused := by
  cases status <;> decide

theorem not_active_iff {status : Status} :
    isActive status = false ↔ status = .completed ∨ status = .cancelled ∨ status = .error := by
  cases status <;> decide

theorem leaveCancelled_settles {s : State C} {id : TaskId} {task : Task}
    (found : s.tasks id = some task) (cancelled : task.cancelled = true) (t : Task)
    (ht : s.tasks id = some t) : isActive (leaveCancelled t).status = false ∧
      ((leaveCancelled t).status = .cancelled → t.cancelled = true) := by
  obtain rfl : task = t := Option.some_inj.mp (found.symm.trans ht)
  exact ⟨not_active_iff.mpr (Or.inr (Or.inl rfl)), fun _ => cancelled⟩

theorem finishTask_settles (t : Task) : isActive (finishTask t).status = false ∧
    ((finishTask t).status = .cancelled → t.cancelled = true) := by
  simp only [finishTask, recomputePercentage]
  split_ifs <;> exact ⟨by decide, fun h => by cases h⟩

/-- The two sections that first look whether the task is still the current one. -/
theorem unlessCancelled_effect {s next : State C} {a : Action C} {id : TaskId}
    (alive : (s.worker id).alive = true)
    (hnext : ∀ task, s.tasks id = some task → s.current = some id → task.cancelled = false →
      Effect s a next) : Effect s a (s.unlessCancelled id next) := by
  simp only [State.unlessCancelled]
  split
  · exact .replaced alive (Or.inr (by assumption))
  · rename_i task found
    split_ifs with hcur hcancelled
    · exact .replaced alive (Or.inl hcur)
    · exact .settled alive (fun _ => rfl) (leaveCancelled_settles found hcancelled)
    · exact hnext task found (not_not.mp hcur) (by simpa using hcancelled)

theorem decideVideo_effect {s : State C} {a : Action C} {id : TaskId} {index : ℕ}
    (alive : (s.worker id).alive = true) : Effect s a (s.decideVideo id index) := by
  simp only [State.decideVideo]
  split
  · exact .replaced alive (Or.inr (by assumption))
  · rename_i task found
    by_cases hcur : s.current = some id
    case neg =>
      rw [if_pos hcur]
      exact .replaced alive (Or.inl hcur)
    rw [if_neg (not_not.mpr hcur)]
    by_cases hcancelled : task.cancelled = true
    case pos =>
      rw [if_pos hcancelled]
      exact .settled alive (fun _ => rfl) (leaveCancelled_settles found hcancelled)
    rw [if_neg hcancelled]
    have hrunning : task.cancelled = false := by simpa using hcancelled
    split
    · exact .settled alive (fun _ => rfl) fun t _ => finishTask_settles t
    · by_cases hpaused : task.paused = true
      · rw [if_pos hpaused]
        exact .progressed alive rfl hcur found hrunning hrunning
          (Or.inl (isActive_iff.mpr (Or.inr rfl))) rfl
      · rw [if_neg hpaused]
        exact .progressed alive rfl hcur found hrunning hrunning
          (Or.inl (isActive_iff.mpr (Or.inl rfl))) rfl

theorem advanceWatch_effect {s : State C} {a : Action C} {id : TaskId} {index : ℕ} {program : Watch}
    {next : Worker} (before : s.worker id = .watching index program)
    (h : advanceWatch index program = some next) : Effect s a (s.goto id next) := by
  have halive : (s.worker id).alive = true := by rw [before]; rfl
  cases program with
  | finish ok =>
    cases h
    exact goto_effect halive rfl (.outside rfl)
  | raise message =>
    cases h
    exact goto_effect halive rfl (.outside rfl)
  | gate pass =>
    cases h
    exact goto_effect halive rfl (.gated before)
  | sleep next =>
    cases h
    exact goto_effect halive rfl (.slept before)
  | request r next => cases h

theorem afterPoll_effect {s : State C} {a : Action C} {id : TaskId} {index : ℕ} {pass : Watch}
    {gate : Gate} {next : Worker} (before : s.worker id = .waiting index gate pass)
    (h : afterPoll index pass (s.isTaskCancelled id) gate = some next) :
    Effect s a (s.goto id next) := by
  have halive : (s.worker id).alive = true := by rw [before]; rfl
  cases gate with
  | paused => cases h
  | first =>
    cases h
    split_ifs
    · exact goto_effect halive rfl (.outside rfl)
    · exact goto_effect halive rfl (.polled before)
  | again =>
    cases h
    split_ifs
    · exact goto_effect halive rfl (.outside rfl)
    · exact goto_effect halive rfl (.polled before)
  | last =>
    cases h
    split_ifs with hc
    · exact goto_effect halive rfl (.outside rfl)
    · exact goto_effect halive rfl (.passed before (by simpa using hc))

theorem step_effect {s t : State C} {a : Action C} (h : step s a = some t) : Effect s a t := by
  cases a with
  | login =>
    cases h
    exact .outside rfl rfl rfl rfl (fun _ => rfl) rfl
  | logout =>
    cases h
    simp only [State.modifyCurrent]
    split
    · exact .cancelled _ _
    · exact .outside rfl rfl rfl rfl (fun _ => rfl) rfl
  | startCheck c r =>
    simp only [step] at h
    split at h
    · rename_i hc
      cases h
      split_ifs
      · exact call_effect (by rw [hc]; rfl)
      · exact .outside rfl rfl rfl rfl (fun _ => rfl) rfl
    · cases h
  | loadVideos c videos =>
    simp only [step] at h
    split at h
    · rename_i hc
      cases h
      exact call_effect (by rw [hc]; rfl)
    · rename_i hc
      cases h
      exact call_effect (by rw [hc]; rfl)
    · cases h
  | install c =>
    simp only [step] at h
    split at h
    · rename_i hc
      cases h
      split_ifs with hconflict
      · exact call_effect (by rw [hc]; rfl)
      · exact .installed (by rw [hc]; rfl) (by simpa using hconflict)
    · cases h
  | startThread c ok =>
    simp only [step] at h
    split at h
    · rename_i hc
      cases h
      split_ifs
      · exact .started hc
      · exact call_effect (by rw [hc]; rfl)
    · cases h
  | markStartError c =>
    simp only [step] at h
    split at h
    · cases h
      exact .startMarked (by assumption) _
    · cases h
  | pauseTask =>
    cases h
    simp only [State.modifyCurrent]
    split
    · exact .reset (by assumption) (Or.inl ⟨rfl, rfl⟩)
    · exact .outside rfl rfl rfl rfl (fun _ => rfl) rfl
  | resumeTask =>
    cases h
    simp only [State.modifyCurrent]
    split
    · exact .reset (by assumption) (Or.inr ⟨rfl, rfl⟩)
    · exact .outside rfl rfl rfl rfl (fun _ => rfl) rfl
  | cancelTask =>
    cases h
    simp only [State.modifyCurrent]
    split
    · exact .cancelled _ s.loggedIn
    · exact .outside rfl rfl rfl rfl (fun _ => rfl) rfl
  | cancelTaskById id =>
    cases h
    exact .cancelled _ s.loggedIn
  | decide id =>
    simp only [step] at h
    split at h
    · rename_i hw
      cases h
      exact decideVideo_effect (by rw [hw]; rfl)
    · cases h
  | enter id =>
    simp only [step] at h
    split at h
    · rename_i hw
      cases h
      split_ifs
      · exact goto_effect (by rw [hw]; rfl) rfl (.entered hw)
      · exact goto_effect (by rw [hw]; rfl) rfl (.outside rfl)
    · cases h
  | advance id =>
    simp only [step] at h
    split at h
    · rename_i hw
      obtain ⟨next, hnext, rfl⟩ := Option.map_eq_some_iff.mp h
      exact advanceWatch_effect hw hnext
    · cases h
  | pollCancelled id =>
    simp only [step] at h
    split at h
    · rename_i hw
      obtain ⟨next, hnext, rfl⟩ := Option.map_eq_some_iff.mp h
      exact afterPoll_effect hw hnext
    · cases h
  | pollPaused id =>
    simp only [step] at h
    split at h
    · rename_i hw
      cases h
      exact goto_effect (by rw [hw]; rfl) rfl (.polled hw)
    · cases h
  | send id =>
    simp only [step] at h
    split at h
    · rename_i hw
      cases h
      exact .worked (by rw [hw]; rfl) rfl (.sent hw)
    · cases h
  | receive id answer =>
    simp only [step] at h
    split at h
    · rename_i hw
      cases h
      exact goto_effect (by rw [hw]; rfl) rfl (.outside rfl)
    · rename_i hw
      split_ifs at h with hr
      cases h
      exact goto_effect (by rw [hw]; rfl) rfl (.received _ hw)
    · cases h
  | check id =>
    simp only [step] at h
    split at h
    · rename_i hw
      cases h
      have halive : (s.worker id).alive = true := by rw [hw]; rfl
      exact unlessCancelled_effect halive fun _ _ _ _ => goto_effect halive rfl (.outside rfl)
    · cases h
  | record id =>
    simp only [step] at h
    split at h
    · rename_i hw
      cases h
      have halive : (s.worker id).alive = true := by rw [hw]; rfl
      exact unlessCancelled_effect halive fun task found current running =>
        .progressed halive rfl current found running running (Or.inr rfl) rfl
    · cases h
  | crash id message =>
    simp only [step] at h
    split_ifs at h with halive
    cases h
    exact goto_effect halive rfl (.outside rfl)
  | markCrash id =>
    simp only [step] at h
    split at h
    · rename_i hw
      cases h
      exact .settled (by rw [hw]; rfl) (fun _ => rfl) fun _ _ =>
        ⟨not_active_iff.mpr (Or.inr (Or.inr rfl)), fun h => by cases h⟩
    · cases h

/-- What every run keeps: a task is attended by one start or one worker, an ended task by none,
and an attended task that was not cancelled is the current one. -/
structure Tracked (s : State C) : Prop where
  fresh : ∀ id, s.nextId ≤ id → s.tasks id = none ∧ s.worker id = .absent ∧ ¬ s.attended id
  known : ∀ id, s.current = some id → (s.tasks id).isSome = true
  single : ∀ c d id, (s.caller c).pending = some id → (s.caller d).pending = some id → c = d
  unstarted : ∀ c id, (s.caller c).pending = some id → s.worker id = .absent
  flagged : ∀ id task, s.tasks id = some task → task.status = .cancelled → task.cancelled = true
  ended : ∀ id task, s.tasks id = some task → task.status = .completed ∨ task.status = .error →
    ¬ s.attended id
  shown : ∀ id task, s.tasks id = some task → s.attended id → task.cancelled = false →
    s.current = some id

theorem attended_congr {s t : State C} (worker : ∀ id, (t.worker id).alive = (s.worker id).alive)
    (caller : ∀ c, (t.caller c).pending = (s.caller c).pending) (id : TaskId) :
    t.attended id ↔ s.attended id := by
  simp only [State.attended, worker, caller]

theorem alive_goto {s : State C} {id : TaskId} {next : Worker}
    (before : (s.worker id).alive = true) (after : next.alive = true) (x : TaskId) :
    ((s.goto id next).worker x).alive = (s.worker x).alive := by
  by_cases hx : x = id
  · subst hx
    simp [State.goto, before, after]
  · simp [State.goto, hx]

theorem tasks_modifyTask {s : State C} {id : TaskId} {f : Task → Task} {x : TaskId} {task : Task}
    (h : (s.modifyTask id f).tasks x = some task) :
    (x = id ∧ ∃ old, s.tasks id = some old ∧ task = f old) ∨ (x ≠ id ∧ s.tasks x = some task) := by
  by_cases hx : x = id
  · subst hx
    simp only [State.modifyTask, Function.update_self, Option.map_eq_some_iff] at h
    obtain ⟨old, hold, rfl⟩ := h
    exact Or.inl ⟨rfl, old, hold, rfl⟩
  · simp only [State.modifyTask, Function.update_of_ne hx] at h
    exact Or.inr ⟨hx, h⟩

theorem isSome_modifyTask (s : State C) (id : TaskId) (f : Task → Task) (x : TaskId) :
    ((s.modifyTask id f).tasks x).isSome = (s.tasks x).isSome := by
  by_cases hx : x = id
  · subst hx
    simp [State.modifyTask]
  · simp [State.modifyTask, hx]

/-- Tasks change at `id` only, and nobody else's attendance changes. -/
theorem Tracked.modify {s t : State C} (h : Tracked s) {id : TaskId} {f : Task → Task}
    (tasks : t.tasks = (s.modifyTask id f).tasks) (current : t.current = s.current)
    (nextId : t.nextId = s.nextId)
    (absent : ∀ x, s.nextId ≤ x → s.worker x = .absent → t.worker x = .absent)
    (single : ∀ c d x, (t.caller c).pending = some x → (t.caller d).pending = some x → c = d)
    (unstarted : ∀ c x, (t.caller c).pending = some x → t.worker x = .absent)
    (attended : ∀ x, t.attended x → s.attended x)
    (keeps : ∀ task, s.tasks id = some task → (f task).cancelled = false → task.cancelled = false)
    (flagged : ∀ task, s.tasks id = some task → (f task).status = .cancelled → (f task).cancelled = true)
    (ended : ∀ task, s.tasks id = some task → (f task).status = .completed ∨ (f task).status = .error →
      ¬ t.attended id) : Tracked t := by
  refine ⟨fun x hx => ?_, fun x hx => ?_, single, unstarted, fun x task hx => ?_,
    fun x task hx => ?_, fun x task hx hatt hrun => ?_⟩
  · obtain ⟨hnone, habsent, hnot⟩ := h.fresh x (nextId ▸ hx)
    refine ⟨?_, absent x (nextId ▸ hx) habsent, fun hatt => hnot (attended x hatt)⟩
    rw [tasks, ← Option.not_isSome_iff_eq_none, isSome_modifyTask, hnone]
    simp
  · rw [tasks, isSome_modifyTask]
    exact h.known x (current ▸ hx)
  · rw [tasks] at hx
    rcases tasks_modifyTask hx with ⟨rfl, old, hold, rfl⟩ | ⟨-, hold⟩
    · exact flagged old hold
    · exact h.flagged x task hold
  · rw [tasks] at hx
    rcases tasks_modifyTask hx with ⟨rfl, old, hold, rfl⟩ | ⟨-, hold⟩
    · exact ended old hold
    · exact fun hend hatt => h.ended x task hold hend (attended x hatt)
  · rw [tasks] at hx
    rw [current]
    rcases tasks_modifyTask hx with ⟨rfl, old, hold, rfl⟩ | ⟨-, hold⟩
    · exact h.shown x old hold (attended x hatt) (keeps old hold hrun)
    · exact h.shown x task hold (attended x hatt) hrun

theorem tasks_modifyTask_id (s : State C) (id : TaskId) :
    (s.modifyTask id fun task => task).tasks = s.tasks := by
  funext x
  by_cases hx : x = id
  · subst hx
    simp [State.modifyTask]
  · simp only [State.modifyTask, Function.update_of_ne hx]

/-- Only workers and callers move. -/
theorem Tracked.move {s t : State C} (h : Tracked s) (tasks : t.tasks = s.tasks)
    (current : t.current = s.current) (nextId : t.nextId = s.nextId)
    (absent : ∀ x, s.nextId ≤ x → s.worker x = .absent → t.worker x = .absent)
    (single : ∀ c d x, (t.caller c).pending = some x → (t.caller d).pending = some x → c = d)
    (unstarted : ∀ c x, (t.caller c).pending = some x → t.worker x = .absent)
    (attended : ∀ x, t.attended x → s.attended x) : Tracked t := by
  refine h.modify (tasks.trans (tasks_modifyTask_id s 0).symm) current nextId absent single unstarted
    attended (fun _ _ hrun => hrun) (fun task htask => h.flagged 0 task htask) fun task htask hend hatt => ?_
  exact h.ended 0 task htask hend (attended 0 hatt)

theorem Tracked.not_pending {s : State C} (h : Tracked s) {id : TaskId}
    (alive : (s.worker id).alive = true) (c : C) : (s.caller c).pending ≠ some id := by
  intro hc
  rw [h.unstarted c id hc] at alive
  cases alive

theorem attended_goto_returned {s : State C} (h : Tracked s) {id : TaskId}
    (alive : (s.worker id).alive = true) {x : TaskId} (hatt : (s.goto id .returned).attended x) :
    x ≠ id ∧ s.attended x := by
  rcases hatt with hw | ⟨c, hc⟩
  · by_cases hx : x = id
    · subst hx
      simp [State.goto, Worker.alive] at hw
    · simp only [State.goto, Function.update_of_ne hx] at hw
      exact ⟨hx, Or.inl hw⟩
  · refine ⟨fun hx => h.not_pending alive c (hx ▸ hc), Or.inr ⟨c, hc⟩⟩

theorem unstarted_goto {s : State C} (h : Tracked s) {id : TaskId} {next : Worker}
    (alive : (s.worker id).alive = true) (c : C) (x : TaskId)
    (hc : (s.caller c).pending = some x) : (s.goto id next).worker x = .absent := by
  have hx : x ≠ id := fun hx => h.not_pending alive c (hx ▸ hc)
  simp only [State.goto, Function.update_of_ne hx]
  exact h.unstarted c x hc

theorem reset_task {a : Action C} {f : Task → Task}
    (kind : a = .pauseTask ∧ f = pauseTask ∨ a = .resumeTask ∧ f = resumeTask) (task : Task) :
    (f task).cancelled = task.cancelled ∧
      (f task = task ∧ (task.status = .completed ∨ task.status = .cancelled) ∨
        isActive (f task).status = true ∧ task.status ≠ .completed ∧ task.status ≠ .cancelled) := by
  rcases kind with ⟨-, rfl⟩ | ⟨-, rfl⟩
  · rw [pauseTask]
    split_ifs with hdone
    · exact ⟨rfl, Or.inl ⟨rfl, hdone⟩⟩
    · exact ⟨rfl, Or.inr ⟨isActive_iff.mpr (Or.inr rfl), not_or.mp hdone⟩⟩
  · rw [resumeTask]
    split_ifs with hdone
    · exact ⟨rfl, Or.inl ⟨rfl, hdone.symm⟩⟩
    · exact ⟨rfl, Or.inr ⟨isActive_iff.mpr (Or.inl rfl), (not_or.mp hdone).symm⟩⟩

theorem tracked_start {s : State C} (h : Start s) : Tracked s := by
  obtain ⟨hcurrent, htasks, hworker, hcaller, -⟩ := h
  have hpending : ∀ c id, (s.caller c).pending ≠ some id := by
    intro c id hc
    rw [hcaller c] at hc
    cases hc
  have hnot : ∀ id, ¬ s.attended id := by
    rintro id (hw | ⟨c, hc⟩)
    · rw [hworker id] at hw
      cases hw
    · exact hpending c id hc
  refine ⟨fun id _ => ⟨htasks id, hworker id, hnot id⟩, fun id hid => ?_, fun c d id hc => absurd hc (hpending c id),
    fun c id hc => absurd hc (hpending c id), fun id task htask => ?_, fun id _ _ _ => hnot id,
    fun id _ _ hatt => absurd hatt (hnot id)⟩
  · rw [hcurrent] at hid
    cases hid
  · rw [htasks id] at htask
    cases htask

theorem Tracked.installed {s : State C} (h : Tracked s) {c : C} (r : StartRequest)
    (videos : List Video) (ready : (s.caller c).pending = none) (free : s.conflict = false) :
    Tracked (s.installTask c r videos) := by
  obtain ⟨-, habsent, hnot⟩ := h.fresh s.nextId (le_refl _)
  have hpending : ∀ d x, ((s.installTask c r videos).caller d).pending = some x →
      (s.caller d).pending = some x ∧ d ≠ c ∨ d = c ∧ x = s.nextId ∧ videos ≠ [] := by
    intro d x hd
    by_cases hdc : d = c
    · subst hdc
      simp only [State.installTask, Function.update_self] at hd
      split_ifs at hd with hv
      · cases hd
      · exact Or.inr ⟨rfl, (Option.some_inj.mp hd).symm, hv⟩
    · simp only [State.installTask, Function.update_of_ne hdc] at hd
      exact Or.inl ⟨hd, hdc⟩
  have hatt : ∀ x, (s.installTask c r videos).attended x → s.attended x ∨ x = s.nextId ∧ videos ≠ [] := by
    rintro x (hw | ⟨d, hd⟩)
    · exact Or.inl (Or.inl hw)
    · rcases hpending d x hd with ⟨hold, -⟩ | ⟨-, hx, hv⟩
      · exact Or.inl (Or.inr ⟨d, hold⟩)
      · exact Or.inr ⟨hx, hv⟩
  have hold : ∀ x, s.attended x → x ≠ s.nextId := fun x hx hxn => hnot (hxn ▸ hx)
  have htasks : ∀ x task, (s.installTask c r videos).tasks x = some task →
      x = s.nextId ∧ task = newTask r videos ∨ x ≠ s.nextId ∧ s.tasks x = some task := by
    intro x task hx
    by_cases hxn : x = s.nextId
    · subst hxn
      simp only [State.installTask, Function.update_self, Option.some_inj] at hx
      exact Or.inl ⟨rfl, hx.symm⟩
    · simp only [State.installTask, Function.update_of_ne hxn] at hx
      exact Or.inr ⟨hxn, hx⟩
  refine ⟨fun x hx => ?_, fun x hx => ?_, fun d e x hd he => ?_, fun d x hd => ?_,
    fun x task hx hst => ?_, fun x task hx hend hattx => ?_, fun x task hx hattx hrun => ?_⟩
  · have hx' : s.nextId < x := hx
    obtain ⟨hxnone, hxabsent, hxnot⟩ := h.fresh x hx'.le
    refine ⟨?_, hxabsent, fun hattx => ?_⟩
    · simp only [State.installTask, Function.update_of_ne hx'.ne']
      exact hxnone
    · rcases hatt x hattx with hattx | ⟨hxn, -⟩
      · exact hxnot hattx
      · exact hx'.ne' hxn
  · obtain rfl : s.nextId = x := Option.some_inj.mp hx
    simp [State.installTask]
  · rcases hpending d x hd with ⟨hd', -⟩ | ⟨hdc, hx, -⟩ <;>
      rcases hpending e x he with ⟨he', -⟩ | ⟨hec, hx', -⟩
    · exact h.single d e x hd' he'
    · exact absurd hx' (hold x (Or.inr ⟨d, hd'⟩))
    · exact absurd hx (hold x (Or.inr ⟨e, he'⟩))
    · exact hdc.trans hec.symm
  · rcases hpending d x hd with ⟨hd', -⟩ | ⟨-, rfl, -⟩
    · exact h.unstarted d x hd'
    · exact habsent
  · rcases htasks x task hx with ⟨-, rfl⟩ | ⟨-, hx'⟩
    · simp only [newTask] at hst
      split_ifs at hst
    · exact h.flagged x task hx' hst
  · rcases htasks x task hx with ⟨rfl, rfl⟩ | ⟨hxn, hx'⟩
    · have hv : videos ≠ [] := by
        rcases hatt _ hattx with hattx | ⟨-, hv⟩
        · exact absurd hattx hnot
        · exact hv
      simp [newTask, hv] at hend
    · rcases hatt x hattx with hattx | ⟨hxn', -⟩
      · exact h.ended x task hx' hend hattx
      · exact hxn hxn'
  · rcases htasks x task hx with ⟨rfl, -⟩ | ⟨hxn, hx'⟩
    · rfl
    · have hattx' : s.attended x := by
        rcases hatt x hattx with hattx | ⟨hxn', -⟩
        · exact hattx
        · exact absurd hxn' hxn
      have hcur := h.shown x task hx' hattx' hrun
      have hinactive : isActive task.status = false := by
        simpa [State.conflict, State.currentTask, hcur, hx'] using free
      rcases not_active_iff.mp hinactive with hst | hst | hst
      · exact absurd hattx' (h.ended x task hx' (Or.inl hst))
      · rw [h.flagged x task hx' hst] at hrun
        cases hrun
      · exact absurd hattx' (h.ended x task hx' (Or.inr hst))

theorem absent_goto {s : State C} {id : TaskId} {next : Worker} (alive : (s.worker id).alive = true)
    (x : TaskId) (hx : s.worker x = .absent) : (s.goto id next).worker x = .absent := by
  have hne : x ≠ id := by
    rintro rfl
    rw [hx] at alive
    cases alive
  simp only [State.goto, Function.update_of_ne hne]
  exact hx

theorem pending_call_idle {s : State C} {c d : C} {x : TaskId}
    (h : ((s.call c .idle).caller d).pending = some x) : d ≠ c ∧ (s.caller d).pending = some x := by
  by_cases hdc : d = c
  · subst hdc
    simp [State.call, Caller.pending] at h
  · simp only [State.call, Function.update_of_ne hdc] at h
    exact ⟨hdc, h⟩

theorem Tracked.preserved {s t : State C} {a : Action C} (h : Tracked s) (taken : step s a = some t) :
    Tracked t := by
  cases step_effect taken with
  | outside current tasks nextId worker caller sent =>
    refine h.move tasks current nextId (fun x _ hx => by rw [worker]; exact hx) ?_ ?_ ?_
    · intro c d x hc hd
      exact h.single c d x (caller c ▸ hc) (caller d ▸ hd)
    · intro c x hc
      rw [worker]
      exact h.unstarted c x (caller c ▸ hc)
    · intro x
      exact (attended_congr (fun id => by rw [worker]) caller x).mp
  | @reset _ id f current kind =>
    refine h.modify rfl rfl rfl (fun _ _ hx => hx) h.single h.unstarted (fun _ hx => hx) ?_ ?_ ?_
    · intro task _ hrun
      rw [← (reset_task kind task).1]
      exact hrun
    · intro task htask hst
      obtain ⟨hkeep, ⟨hsame, -⟩ | ⟨hactive, -⟩⟩ := reset_task kind task
      · rw [hkeep]
        exact h.flagged id task htask (hsame ▸ hst)
      · rw [hst] at hactive
        cases hactive
    · intro task htask hend
      obtain ⟨-, ⟨hsame, -⟩ | ⟨hactive, -⟩⟩ := reset_task kind task
      · exact h.ended id task htask (hsame ▸ hend)
      · rcases isActive_iff.mp hactive with hst | hst <;> rw [hst] at hend <;> simp at hend
  | @cancelled _ id message loggedIn =>
    refine h.modify rfl rfl rfl (fun _ _ hx => hx) h.single h.unstarted (fun _ hx => hx) ?_ ?_ ?_
    · intro task _ hrun
      cases hrun
    · exact fun _ _ _ => rfl
    · intro task _ hend
      simp [cancelTask] at hend
  | installed ready free => exact h.installed _ _ ready free
  | @started _ c id starting =>
    have habsent := h.unstarted c id (by rw [starting]; rfl)
    have hcaller : (s.caller c).pending = some id := by rw [starting]; rfl
    refine h.move rfl rfl rfl (fun x hx _ => ?_) (fun d e x hd he => ?_) (fun d x hd => ?_)
      (fun x hatt => ?_)
    · have hne : x ≠ id := fun hxid => (h.fresh x hx).2.2 (Or.inr ⟨c, hxid ▸ hcaller⟩)
      simp only [State.goto, State.call, Function.update_of_ne hne]
      exact (h.fresh x hx).2.1
    · exact h.single d e x (pending_call_idle hd).2 (pending_call_idle he).2
    · obtain ⟨hdc, hd'⟩ := pending_call_idle hd
      have hne : x ≠ id := fun hxid => hdc (h.single d c id (hxid ▸ hd') hcaller)
      simp only [State.goto, State.call, Function.update_of_ne hne]
      exact h.unstarted d x hd'
    · rcases hatt with hw | ⟨d, hd⟩
      · by_cases hx : x = id
        · exact Or.inr ⟨c, hx ▸ hcaller⟩
        · simp only [State.goto, State.call, Function.update_of_ne hx] at hw
          exact Or.inl hw
      · exact Or.inr ⟨d, (pending_call_idle hd).2⟩
  | @startMarked _ c id failed message =>
    have hcaller : (s.caller c).pending = some id := by rw [failed]; rfl
    have habsent := h.unstarted c id hcaller
    refine h.modify rfl rfl rfl (fun _ _ hx => hx)
      (fun d e x hd he => h.single d e x (pending_call_idle hd).2 (pending_call_idle he).2)
      (fun d x hd => h.unstarted d x (pending_call_idle hd).2) (fun x hatt => ?_)
      (fun _ _ hrun => hrun) (fun _ _ hst => by cases hst) (fun _ _ _ hatt => ?_)
    · rcases hatt with hw | ⟨d, hd⟩
      · exact Or.inl hw
      · exact Or.inr ⟨d, (pending_call_idle hd).2⟩
    · rcases hatt with hw | ⟨d, hd⟩
      · change (s.worker id).alive = true at hw
        rw [habsent] at hw
        cases hw
      · obtain ⟨hdc, hd'⟩ := pending_call_idle hd
        exact hdc (h.single d c id hd' hcaller)
  | @worked _ id next before after sent move =>
    exact h.move rfl rfl rfl (fun x _ => absent_goto before x) h.single
      (fun c x => unstarted_goto h before c x)
      fun x => (attended_congr (alive_goto before after) (fun _ => rfl) x).mp
  | @progressed _ id task f next before after current found running keeps status outside =>
    refine h.modify rfl rfl rfl (fun x _ => absent_goto before x) h.single
      (fun c x => unstarted_goto h before c x)
      (fun x => (attended_congr (alive_goto before after) (fun _ => rfl) x).mp) ?_ ?_ ?_
    · intro old hold _
      obtain rfl : task = old := Option.some_inj.mp (found.symm.trans hold)
      exact running
    · intro old hold hst
      obtain rfl : task = old := Option.some_inj.mp (found.symm.trans hold)
      rcases status with hactive | hsame
      · rw [hst] at hactive
        cases hactive
      · rw [h.flagged id task found (hsame ▸ hst)] at running
        cases running
    · intro old hold hend
      obtain rfl : task = old := Option.some_inj.mp (found.symm.trans hold)
      rcases status with hactive | hsame
      · rcases isActive_iff.mp hactive with hst | hst <;> rw [hst] at hend <;> simp at hend
      · exact absurd (Or.inl before) (h.ended id task found (hsame ▸ hend))
  | @replaced _ id before other =>
    exact h.move rfl rfl rfl (fun x _ => absent_goto before x) h.single
      (fun c x => unstarted_goto h before c x) fun x hatt => (attended_goto_returned h before hatt).2
  | @settled _ id f before keeps status =>
    refine h.modify rfl rfl rfl (fun x _ => absent_goto before x) h.single
      (fun c x => unstarted_goto h before c x)
      (fun x hatt => (attended_goto_returned h before hatt).2) ?_ ?_ ?_
    · intro task _ hrun
      rw [← keeps task]
      exact hrun
    · intro task htask hst
      rw [keeps task]
      exact (status task htask).2 hst
    · intro task _ _ hatt
      exact (attended_goto_returned h before hatt).1 rfl

theorem Tracked.of_reachable {ok : State C → Action C → Prop} {s : State C}
    (h : (machine C).Reachable ok s) : Tracked s :=
  h.invariant (fun _ => tracked_start) fun _ _ _ hs _ taken => hs.preserved taken

end UniversityHelper.Zhihuishu
