import UniversityHelper.LearningManager

/-! When a learning task that has ended stays ended. -/
namespace UniversityHelper.LearningManager
open TaskAdmission TaskManager
set_option linter.unusedSectionVars false

/-- The statuses of a task that is under way. -/
def isLive : TaskStatus → Bool
  | .pending | .running | .paused | .cancelling => true
  | _ => false

theorem isLive_active {status : TaskStatus} (h : isLive status = true) :
    isActiveStatus status = true := by
  cases status with
  | pending | running | paused | cancelling => decide
  | _ => cases h

theorem isLive_not_finished {status : TaskStatus} (h : isLive status = true) :
    isFinished status = false := by
  cases status with
  | pending | running | paused | cancelling => rfl
  | _ => cases h

/-- The worker or the call of `start_task` may yet write a live status. -/
def Life.isOpen : Life → Bool
  | .unknown | .stored | .unpersisted | .failing _ | .cancelling | .finishing _ | .logging _ _
  | .notifying | .returned => false
  | _ => true

section mutations
variable (now monotonic : Instant) (task : LearningTask)

theorem preparePersist_status (force : Bool) :
    (preparePersist force monotonic task).1.status = task.status := by
  simp only [preparePersist]
  split_ifs <;> rfl

theorem updateTask_status (changes : Changes) :
    (updateTask changes now monotonic task).1.status = changes.status.getD task.status := by
  simp only [updateTask]
  split_ifs with h
  · cases hstatus : changes.status with
    | none => rfl
    | some status =>
      simp only [Changes.holdIn, hstatus, Bool.and_eq_true, Option.all_some,
        decide_eq_true_eq] at h
      exact h.1.1.symm
  · exact preparePersist_status _ _ _

theorem report_status (report : Report) :
    (report.mutation.apply now monotonic task).1.status = task.status := by
  cases report with
  | log message level => exact preparePersist_status _ _ _
  | progress updates => exact preparePersist_status _ _ _
  | increase key delta =>
    simp only [Report.mutation, Mutation.apply, increaseProgress]
    split
    · exact preparePersist_status _ _ _
    · rfl
  | failure course chapter reason hint => exact preparePersist_status _ _ _
  | currentTask text => exact updateTask_status _ _ _ _

/-- A control call leaves a finished status as it is, and writes a live one over any other. -/
theorem control_status (m : Mutation) (h : m = .pauseTask ∨ m = .resumeTask ∨ m = .stopTask) :
    (isFinished task.status = true ∧ (m.apply now monotonic task).1.status = task.status) ∨
      (isFinished task.status = false ∧
        isLive (m.apply now monotonic task).1.status = true) := by
  rcases h with rfl | rfl | rfl <;> cases hfinished : isFinished task.status
  · exact Or.inr ⟨rfl, by simp [Mutation.apply, pauseTask, hfinished, touch, isLive]⟩
  · exact Or.inl ⟨rfl, by simp [Mutation.apply, pauseTask, hfinished]⟩
  · exact Or.inr ⟨rfl, by simp [Mutation.apply, resumeTask, hfinished, touch, isLive]⟩
  · exact Or.inl ⟨rfl, by simp [Mutation.apply, resumeTask, hfinished]⟩
  · exact Or.inr ⟨rfl, by simp [Mutation.apply, stopTask, hfinished, touch, isLive]⟩
  · exact Or.inl ⟨rfl, by simp [Mutation.apply, stopTask, hfinished, touch]⟩

end mutations

theorem merged_finished {item : StoredTask} (h : storable item.status = true) (now : Instant)
    (pauseEvent stopEvent : EventId) :
    isFinished (mergedLearningTask item now pauseEvent stopEvent).status = true := by
  have hcases : isFinished item.status = true ∨ isInterrupted item.status = true := by
    cases hstatus : item.status with
    | other text => rw [hstatus] at h; cases h
    | completed | failed | cancelled | error => exact Or.inl rfl
    | _ => exact Or.inr (by decide)
  simp only [mergedLearningTask, mergedTask]
  split_ifs with hinterrupted
  · rfl
  · exact hcases.resolve_right hinterrupted

variable {C J : Type*} [DecidableEq C] [DecidableEq J] [Fintype J] {s t : State C J}

@[simp] theorem get_mutate (s : State C J) (taskId id : String) (m : Mutation) (clock : Clock) :
    (s.mutate taskId m clock).tasks.get id =
      if id = taskId then (s.tasks.get id).map fun task =>
        (m.apply clock.now clock.monotonic task).1
      else s.tasks.get id :=
  OrderedDict.get_modify _ _ _ _

/-- What a step may do to the life of a task. -/
structure LifeMove (s t : State C J) (taskId : String) : Prop where
  opens : (t.life taskId).isOpen = true → (s.life taskId).isOpen = true ∨
    s.life taskId = .unknown ∧ ∃ y, t.tasks.get taskId = some y ∧ isLive y.status = true
  known : t.life taskId = .unknown → s.life taskId = .unknown
  leaves : ∀ run, s.life taskId = .studying run →
    t.life taskId = .studying run ∨ ∀ j, joins taskId (s.job j) = false

/-- What a step may do to the record of a task. -/
inductive RecordMove (s t : State C J) (a : Action C J) (taskId : String) : Prop
  | same (h : t.tasks.get taskId = s.tasks.get taskId)
  | evicted {x : LearningTask} (before : s.tasks.get taskId = some x)
      (idle : isActiveStatus x.status = false) (after : t.tasks.get taskId = none)
  | loaded {y : LearningTask} (before : s.tasks.get taskId = none)
      (after : t.tasks.get taskId = some y) (finished : isFinished y.status = true)
      (known : t.life taskId ≠ .unknown)
  | admitted {y : LearningTask} (new : s.life taskId = .unknown)
      (after : t.tasks.get taskId = some y) (live : isLive y.status = true)
      (known : t.life taskId ≠ .unknown)
  | kept {x y : LearningTask} (before : s.tasks.get taskId = some x)
      (after : t.tasks.get taskId = some y) (status : y.status = x.status)
  | controlled {x y : LearningTask} (before : s.tasks.get taskId = some x)
      (after : t.tasks.get taskId = some y) (unfinished : isFinished x.status = false)
      (live : isLive y.status = true)
  | worked {x y : LearningTask} (before : s.tasks.get taskId = some x)
      (after : t.tasks.get taskId = some y) (isOpen : (s.life taskId).isOpen = true)
      (live : isLive y.status = true)
  | ended {x y : LearningTask} (before : s.tasks.get taskId = some x)
      (after : t.tasks.get taskId = some y) (finished : isFinished y.status = true)
      (closed : (t.life taskId).isOpen = false)
  | paused {x y : LearningTask} {j : J} {clock : Clock} {thread : JobThread}
      (action : a = .job j .go clock) (job : s.job j = some thread)
      (owner : thread.taskId = taskId) (phase : thread.phase = .waiting .update)
      (before : s.tasks.get taskId = some x) (after : t.tasks.get taskId = some y)
      (live : isLive y.status = true)

/-- What a worker, or the call that starts it, writes on its way to `next`. -/
inductive WorkerWrite (s : State C J) (taskId : String) (next : Life) : Mutation → Prop
  | report (report : Report) : WorkerWrite s taskId next report.mutation
  | live {changes : Changes} {status : TaskStatus} (h : changes.status = some status)
      (live : isLive status = true) (isOpen : (s.life taskId).isOpen = true) :
      WorkerWrite s taskId next (.updateTask changes)
  | final {changes : Changes} {status : TaskStatus} (h : changes.status = some status)
      (finished : isFinished status = true) (closed : next.isOpen = false) :
      WorkerWrite s taskId next (.updateTask changes)
  | unpersisted (closed : next.isOpen = false) : WorkerWrite s taskId next .recordAdmissionPersistFailure

theorem RecordMove.of_write {a : Action C J} {taskId : String} {next : Life} {m : Mutation}
    {clock : Clock} (write : WorkerWrite s taskId next m)
    (tasks : t.tasks = (s.mutate taskId m clock).tasks) (life : t.life taskId = next)
    (id : String) : RecordMove s t a id := by
  have hget : t.tasks.get id = _ := (congrArg (fun d => d.get id) tasks).trans
    (get_mutate s taskId id m clock)
  by_cases hid : id = taskId
  · subst hid
    rw [if_pos rfl] at hget
    cases before : s.tasks.get id with
    | none => exact .same (by rw [hget, before]; rfl)
    | some x =>
      rw [before] at hget
      cases write with
      | report report => exact .kept before hget (report_status _ _ _ report)
      | live h live isOpen =>
        refine .worked before hget isOpen ?_
        show isLive (updateTask _ clock.now clock.monotonic x).1.status = true
        rw [updateTask_status, h]
        exact live
      | final h finished closed =>
        refine .ended before hget ?_ (by rw [life]; exact closed)
        show isFinished (updateTask _ clock.now clock.monotonic x).1.status = true
        rw [updateTask_status, h]
        exact finished
      | unpersisted closed =>
        refine .ended before hget ?_ (by rw [life]; exact closed)
        show isFinished (recordAdmissionPersistFailure clock.now clock.monotonic x).1.status = true
        rw [recordAdmissionPersistFailure, preparePersist_status]
        rfl
  · rw [if_neg hid] at hget
    exact .same hget

/-- What a step of a worker may do to its life. -/
structure WorkerMove (s : State C J) (taskId : String) (next : Life) : Prop where
  opens : next.isOpen = true → (s.life taskId).isOpen = true
  known : next ≠ .unknown
  leaves : ∀ run, s.life taskId = .studying run → ∀ j, joins taskId (s.job j) = false

theorem WorkerMove.of_life {taskId : String} {life next : Life} (h : s.life taskId = life)
    (opens : next.isOpen = true → life.isOpen = true) (known : next ≠ .unknown)
    (idle : ∀ run, life ≠ .studying run) : WorkerMove s taskId next :=
  ⟨by rw [h]; exact opens, known, fun run hrun => absurd (h.symm.trans hrun) (idle run)⟩

inductive WorkerEffect (s : State C J) (taskId : String) (clock : Clock) : State C J → Prop
  | moved (next : Life) (move : WorkerMove s taskId next) :
      WorkerEffect s taskId clock (s.lives taskId next)
  | wrote (m : Mutation) (next : Life) (move : WorkerMove s taskId next)
      (write : WorkerWrite s taskId next m) :
      WorkerEffect s taskId clock ((s.mutate taskId m clock).lives taskId next)
  | reported (report : Report) :
      WorkerEffect s taskId clock (s.mutate taskId report.mutation clock)

theorem waiting_effect {taskId : String} {clock : Clock} {run : CourseRun} {phase : WaitPhase}
    (life : s.life taskId = .waiting run phase)
    (taken : workerStep s taskId .go clock = some t) : WorkerEffect s taskId clock t := by
  have hmove : ∀ next : Life, next ≠ .unknown → WorkerMove s taskId next := fun next known =>
    .of_life life (fun _ => rfl) known fun _ => Life.noConfusion
  simp only [workerStep, life] at taken
  split at taken
  · cases taken
    exact .moved _ (hmove _ (by split_ifs <;> simp))
  · split at taken
    · cases taken
      exact .wrote _ _ (hmove _ Life.noConfusion) (.live rfl rfl (by rw [life]; rfl))
    · cases taken
      exact .moved _ (hmove _ Life.noConfusion)

theorem raises_effect {taskId message : String} {clock : Clock}
    (taken : workerStep s taskId (.raises message) clock = some t) :
    WorkerEffect s taskId clock t := by
  cases life : s.life taskId with
  | studying run =>
    simp only [workerStep, life] at taken
    split at taken
    · rename_i hjoined
      cases taken
      refine .wrote _ _ ⟨fun _ => by rw [life]; rfl, Life.noConfusion, fun _ _ => hjoined⟩ ?_
      exact .report (.log message "error")
    · cases taken
  | unknown | stored | admitted | unpersisted | persisted | returned =>
    simp [workerStep, life, Life.guarded] at taken
  | ready | controlling | connecting run | preparing run | course run | waiting run phase
  | announcing run | fetching run | studied run | concluding run | failing text | cancelling
  | finishing failed | logging text level | notifying =>
    simp only [workerStep, life, Life.guarded, if_true] at taken
    cases taken
    exact .moved _ (.of_life life (fun h => by cases h) Life.noConfusion fun _ => Life.noConfusion)

theorem fails_effect {taskId message : String} {clock : Clock}
    (taken : workerStep s taskId (.fails message) clock = some t) :
    WorkerEffect s taskId clock t := by
  cases life : s.life taskId with
  | ready | preparing run =>
    simp only [workerStep, life] at taken
    cases taken
    exact .moved _ (.of_life life (fun h => by cases h) Life.noConfusion fun _ => Life.noConfusion)
  | fetching run =>
    simp only [workerStep, life] at taken
    cases taken
    refine .wrote _ _ (.of_life life (fun _ => rfl) Life.noConfusion fun _ => Life.noConfusion) ?_
    exact .report (.log message "error")
  | studied run =>
    simp only [workerStep, life] at taken
    cases taken
    exact .moved _ (.of_life life (fun _ => rfl) (by split_ifs <;> simp) fun _ => Life.noConfusion)
  | _ => simp [workerStep, life] at taken

theorem go_effect {taskId : String} {clock : Clock}
    (taken : workerStep s taskId .go clock = some t) : WorkerEffect s taskId clock t := by
  cases life : s.life taskId with
  | waiting run phase => exact waiting_effect life taken
  | ready =>
    simp only [workerStep, life] at taken
    cases taken
    exact .moved _ (.of_life life (fun _ => rfl) Life.noConfusion fun _ => Life.noConfusion)
  | controlling =>
    simp only [workerStep, life] at taken
    split at taken
    · cases taken
      exact .moved _ (.of_life life (fun _ => rfl) Life.noConfusion fun _ => Life.noConfusion)
    · cases taken
      exact .moved _ (.of_life life (fun _ => rfl) Life.noConfusion fun _ => Life.noConfusion)
  | connecting run | announcing run =>
    simp only [workerStep, life] at taken
    cases taken
    exact .wrote _ _ (.of_life life (fun _ => rfl) Life.noConfusion fun _ => Life.noConfusion)
      (.live rfl rfl (by rw [life]; rfl))
  | course run =>
    simp only [workerStep, life] at taken
    split at taken
    · cases taken
      exact .moved _ (.of_life life (fun _ => rfl) (by split_ifs <;> simp) fun _ =>
        Life.noConfusion)
    · cases taken
      exact .moved _ (.of_life life (fun _ => rfl) Life.noConfusion fun _ => Life.noConfusion)
  | fetching run =>
    simp only [workerStep, life] at taken
    cases taken
    exact .moved _ (.of_life life (fun _ => rfl) Life.noConfusion fun _ => Life.noConfusion)
  | studying run =>
    simp only [workerStep, life] at taken
    split at taken
    · rename_i hjoined
      cases taken
      exact .moved _ ⟨fun _ => by rw [life]; rfl, Life.noConfusion, fun _ _ => hjoined⟩
    · cases taken
  | studied run | concluding run =>
    simp only [workerStep, life] at taken
    cases taken
    exact .moved _ (.of_life life (fun _ => rfl) (by split_ifs <;> simp) fun _ => Life.noConfusion)
  | failing message | cancelling =>
    simp only [workerStep, life] at taken
    cases taken
    exact .wrote _ _ (.of_life life (fun h => by cases h) Life.noConfusion fun _ =>
      Life.noConfusion) (.final rfl rfl rfl)
  | finishing failed =>
    simp only [workerStep, life] at taken
    split at taken
    · cases taken
      exact .wrote _ _ (.of_life life (fun h => by cases h) Life.noConfusion fun _ =>
        Life.noConfusion) (.final rfl rfl rfl)
    · cases taken
      exact .wrote _ _ (.of_life life (fun h => by cases h) Life.noConfusion fun _ =>
        Life.noConfusion) (.final rfl rfl rfl)
  | logging message level =>
    simp only [workerStep, life] at taken
    cases taken
    refine .wrote _ _ (.of_life life (fun h => by cases h) Life.noConfusion fun _ =>
      Life.noConfusion) ?_
    exact .report (.log message level)
  | notifying =>
    simp only [workerStep, life] at taken
    cases taken
    exact .moved _ (.of_life life (fun h => by cases h) Life.noConfusion fun _ => Life.noConfusion)
  | unknown | stored | admitted | unpersisted | persisted | preparing run | returned =>
    simp [workerStep, life] at taken

theorem workerStep_effect {taskId : String} {input : Input} {clock : Clock}
    (taken : workerStep s taskId input clock = some t) : WorkerEffect s taskId clock t := by
  cases input with
  | reports report =>
    simp only [workerStep] at taken
    split at taken
    · cases taken
      exact .reported report
    · cases taken
  | raises message => exact raises_effect taken
  | fails message => exact fails_effect taken
  | go => exact go_effect taken
  | selected courses =>
    cases life : s.life taskId with
    | preparing run =>
      simp only [workerStep, life] at taken
      split at taken
      · cases taken
      · cases taken
        exact .moved _ (.of_life life (fun _ => rfl) Life.noConfusion fun _ => Life.noConfusion)
    | _ => simp [workerStep, life] at taken

/-- What a step may do to the thread of a job. -/
def JobMove (s t : State C J) (j : J) : Prop :=
  ∀ thread, t.job j = some thread →
    (∃ old, s.job j = some old ∧ old.taskId = thread.taskId ∧
      (thread.joined = true → old.joined = true)) ∨
    ∃ run, t.life thread.taskId = .studying run

structure Moves (s t : State C J) (a : Action C J) : Prop where
  life : ∀ taskId, LifeMove s t taskId
  record : ∀ taskId, RecordMove s t a taskId
  job : ∀ j, JobMove s t j

theorem LifeMove.of_same {taskId : String} (h : t.life taskId = s.life taskId) :
    LifeMove s t taskId :=
  ⟨fun hopen => Or.inl (by rw [← h]; exact hopen), fun hnew => by rw [← h]; exact hnew,
    fun run hrun => Or.inl (by rw [h]; exact hrun)⟩

theorem JobMove.of_same {j : J} (h : t.job j = s.job j) : JobMove s t j :=
  fun thread hthread => Or.inl ⟨thread, h ▸ hthread, rfl, id⟩

theorem LifeMove.of_move {taskId : String} {next : Life} (move : WorkerMove s taskId next)
    (life : t.life = Function.update s.life taskId next) (id : String) : LifeMove s t id := by
  by_cases hid : id = taskId
  · subst hid
    have hnext : t.life id = next := by rw [life, Function.update_self]
    exact ⟨fun hopen => Or.inl (move.opens (hnext ▸ hopen)),
      fun hnew => absurd (hnext.symm.trans hnew) move.known, fun run hrun =>
        Or.inr (move.leaves run hrun)⟩
  · exact .of_same (by rw [life, Function.update_of_ne hid])

theorem WorkerEffect.moves {a : Action C J} {taskId : String} {clock : Clock}
    (h : WorkerEffect s taskId clock t) : Moves s t a := by
  cases h with
  | moved next move => exact ⟨.of_move move rfl, fun _ => .same rfl, fun _ => .of_same rfl⟩
  | wrote m next move write =>
    exact ⟨.of_move move rfl, .of_write write rfl (Function.update_self ..), fun _ => .of_same rfl⟩
  | reported report =>
    exact ⟨fun _ => .of_same rfl, .of_write (.report report) rfl rfl, fun _ => .of_same rfl⟩

theorem get_cleanup (tasks : OrderedDict String LearningTask) (now : Instant) (taskId : String) :
    (cleanup tasks now).get taskId = tasks.get taskId ∨
      ∃ x, tasks.get taskId = some x ∧ isActiveStatus x.status = false ∧
        (cleanup tasks now).get taskId = none := by
  cases after : (cleanup tasks now).get taskId with
  | some y => exact Or.inl (get_cleanupTaskRecords.mp after).1.symm
  | none =>
    cases before : tasks.get taskId with
    | none => exact Or.inl rfl
    | some x =>
      refine Or.inr ⟨x, rfl, ?_, rfl⟩
      by_contra hactive
      have hkept : (cleanup tasks now).get taskId = some x :=
        active_retained before (Bool.eq_true_of_not_eq_false hactive)
      rw [hkept] at after
      cases after

theorem RecordMove.of_cleanup {a : Action C J} {taskId : String} {now : Instant}
    (tasks : t.tasks = cleanup s.tasks now) : RecordMove s t a taskId := by
  rcases get_cleanup s.tasks now taskId with h | ⟨x, before, idle, after⟩
  · exact .same (by rw [tasks, h])
  · exact .evicted before idle (by rw [tasks, after])

theorem startTask_moves {a : Action C J} {taskId userId : String} {now : Instant}
    (taken : startTask s taskId userId now = some t) : Moves s t a := by
  simp only [startTask] at taken
  split at taken
  case h_2 => cases taken
  rename_i hnew
  split at taken
  · cases taken
    exact ⟨fun _ => .of_same rfl, fun _ => .of_cleanup rfl, fun _ => .of_same rfl⟩
  split at taken
  · cases taken
    exact ⟨fun _ => .of_same rfl, fun _ => .of_cleanup rfl, fun _ => .of_same rfl⟩
  cases taken
  have hkept : (cleanup ((cleanup s.tasks now).set taskId
      (newTask taskId userId now s.nextEvent (s.nextEvent + 1))) now).get taskId =
        some (newTask taskId userId now s.nextEvent (s.nextEvent + 1)) :=
    active_retained (by simp) (show isActiveStatus .pending = true by decide)
  refine ⟨fun id => ?_, fun id => ?_, fun _ => .of_same rfl⟩
  · by_cases hid : id = taskId
    · subst hid
      exact ⟨fun _ => Or.inr ⟨hnew, _, hkept, rfl⟩, fun h => by simp [State.lives] at h,
        fun run hrun => absurd (hnew.symm.trans hrun) Life.noConfusion⟩
    · exact .of_same (Function.update_of_ne hid _ _)
  · by_cases hid : id = taskId
    · subst hid
      exact .admitted hnew hkept rfl (by simp [State.lives])
    · have hset : ((cleanup s.tasks now).set taskId
          (newTask taskId userId now s.nextEvent (s.nextEvent + 1))).get id =
            (cleanup s.tasks now).get id := by
        rw [OrderedDict.get_set, if_neg hid]
      rcases get_cleanup ((cleanup s.tasks now).set taskId
          (newTask taskId userId now s.nextEvent (s.nextEvent + 1))) now id with
        h | ⟨x, before, idle, after⟩
      · rw [hset] at h
        rcases get_cleanup s.tasks now id with h' | ⟨x, before, idle, after⟩
        · exact .same (h.trans h')
        · exact .evicted before idle (h.trans after)
      · rw [hset] at before
        rcases get_cleanup s.tasks now id with h' | ⟨_, -, -, gone⟩
        · exact .evicted (h'.symm.trans before) idle after
        · rw [gone] at before
          cases before

theorem launch_moves {a : Action C J} {taskId : String} {ok : Bool} {clock : Clock}
    (taken : launch s taskId ok clock = some t) : Moves s t a := by
  cases life : s.life taskId with
  | admitted | persisted =>
    simp only [launch, life] at taken
    cases taken
    exact ⟨.of_move (.of_life life (fun _ => rfl) (by split_ifs <;> simp) fun _ =>
      Life.noConfusion) rfl, fun _ => .same rfl, fun _ => .of_same rfl⟩
  | unpersisted =>
    simp only [launch, life] at taken
    cases taken
    exact ⟨.of_move (.of_life life (fun h => by cases h) Life.noConfusion fun _ =>
      Life.noConfusion) rfl, .of_write (.unpersisted rfl) rfl (Function.update_self ..),
      fun _ => .of_same rfl⟩
  | _ => simp [launch, life] at taken

theorem mergeTask_moves {a : Action C J} {item : StoredTask} {now : Instant}
    (stored : storable item.status = true) : Moves s (mergeTask s item now) a := by
  simp only [mergeTask]
  split
  · exact ⟨fun _ => .of_same rfl, fun _ => .same rfl, fun _ => .of_same rfl⟩
  rename_i hguard
  obtain ⟨-, -, habsent⟩ : strip item.taskId ≠ "" ∧ strip item.userId ≠ "" ∧
      s.tasks.get (strip item.taskId) = none := by simpa [not_or] using hguard
  refine ⟨fun id => ?_, fun id => ?_, fun _ => .of_same rfl⟩
  · by_cases hid : id = strip item.taskId
    · subst hid
      by_cases life : s.life (strip item.taskId) = .unknown
      · refine ⟨fun h => ?_, fun _ => life, fun run hrun => ?_⟩
        · simp [State.lives, life, Life.isOpen] at h
        · exact absurd (life.symm.trans hrun) Life.noConfusion
      · refine .of_same ?_
        simp only [State.lives, Function.update_self]
    · refine .of_same ?_
      simp only [State.lives, State.withEvents, Function.update_of_ne hid]
  · by_cases hid : id = strip item.taskId
    · subst hid
      refine .loaded (y := mergedLearningTask item now s.nextEvent (s.nextEvent + 1)) habsent ?_
        (merged_finished stored now _ _) ?_
      · simp only [State.lives, State.withEvents, OrderedDict.get_set, if_true]
      · simp only [State.lives, Function.update_self]
        split
        · exact Life.noConfusion
        · rename_i hlife
          exact fun h => hlife h
    · exact .same (by simp [State.lives, State.withEvents, hid])

theorem RecordMove.of_control {a : Action C J} {taskId : String} {m : Mutation} {clock : Clock}
    (kind : m = .pauseTask ∨ m = .resumeTask ∨ m = .stopTask)
    (tasks : t.tasks = (s.mutate taskId m clock).tasks) (id : String) : RecordMove s t a id := by
  have hget : t.tasks.get id = _ := (congrArg (fun d => d.get id) tasks).trans
    (get_mutate s taskId id m clock)
  by_cases hid : id = taskId
  · rw [if_pos hid] at hget
    cases before : s.tasks.get id with
    | none => exact .same (by rw [hget, before]; rfl)
    | some x =>
      rw [before] at hget
      rcases control_status clock.now clock.monotonic x m kind with ⟨-, h⟩ | ⟨hfinished, h⟩
      · exact .kept before hget h
      · exact .controlled before hget hfinished h
  · rw [if_neg hid] at hget
    exact .same hget

theorem applyControl_moves {a : Action C J} {c : C} {kind : ControlKind} {taskId : String}
    {task : LearningTask} {clock : Clock} : Moves s (applyControl s c kind taskId task clock) a := by
  have hkept : Moves s (s.goto c .idle) a :=
    ⟨fun _ => .of_same rfl, fun _ => .same rfl, fun _ => .of_same rfl⟩
  cases kind with
  | pause =>
    simp only [applyControl]
    split
    · exact hkept
    · exact ⟨fun _ => .of_same rfl, .of_control (Or.inl rfl) rfl, fun _ => .of_same rfl⟩
  | resume =>
    simp only [applyControl]
    split
    · exact hkept
    · exact ⟨fun _ => .of_same rfl, .of_control (Or.inr (Or.inl rfl)) rfl, fun _ => .of_same rfl⟩
  | stop =>
    exact ⟨fun _ => .of_same rfl, .of_control (Or.inr (Or.inr rfl)) rfl, fun _ => .of_same rfl⟩

/-- Where a caller stands makes no difference to the tasks. -/
theorem Moves.goto {a : Action C J} {c : C} {next : ControlCall} (h : Moves s t a) :
    Moves s (t.goto c next) a :=
  ⟨fun taskId => ⟨(h.life taskId).opens, (h.life taskId).known, (h.life taskId).leaves⟩,
    fun taskId => by
      cases h.record taskId with
      | same h => exact .same h
      | evicted before idle after => exact .evicted before idle after
      | loaded before after finished known => exact .loaded before after finished known
      | admitted new after live known => exact .admitted new after live known
      | kept before after status => exact .kept before after status
      | controlled before after unfinished live => exact .controlled before after unfinished live
      | worked before after isOpen live => exact .worked before after isOpen live
      | ended before after finished closed => exact .ended before after finished closed
      | paused action job owner phase before after live =>
        exact .paused action job owner phase before after live,
    h.job⟩

theorem controlStep_moves {a : Action C J} {c : C} {stored : Option StoredTask} {clock : Clock}
    (taken : controlStep s c stored clock = some t) : Moves s t a := by
  cases call : s.call c with
  | idle => simp [controlStep, call] at taken
  | finding kind userId taskId =>
    simp only [controlStep, call] at taken
    obtain rfl := Option.some.inj taken
    exact ⟨fun _ => .of_same rfl, fun _ => .same rfl, fun _ => .of_same rfl⟩
  | loading kind userId taskId =>
    simp only [controlStep, call] at taken
    split at taken
    · split at taken
      · rename_i hstored
        obtain rfl := Option.some.inj taken
        exact (mergeTask_moves hstored).goto
      · cases taken
    · obtain rfl := Option.some.inj taken
      exact ⟨fun _ => .of_same rfl, fun _ => .same rfl, fun _ => .of_same rfl⟩
  | applying kind userId taskId =>
    simp only [controlStep, call] at taken
    split at taken
    · obtain rfl := Option.some.inj taken
      exact applyControl_moves
    · obtain rfl := Option.some.inj taken
      exact ⟨fun _ => .of_same rfl, fun _ => .same rfl, fun _ => .of_same rfl⟩
  | logging taskId message level =>
    simp only [controlStep, call] at taken
    obtain rfl := Option.some.inj taken
    exact ⟨fun _ => .of_same rfl, .of_write (.report (.log message level)) rfl rfl,
      fun _ => .of_same rfl⟩

theorem JobMove.of_runs {j : J} {thread next : JobThread} (job : s.job j = some thread)
    (runs : t.job = Function.update s.job j (some next)) (owner : next.taskId = thread.taskId)
    (joined : next.joined = true → thread.joined = true) (i : J) : JobMove s t i := by
  by_cases hi : i = j
  · subst hi
    intro new hnew
    rw [runs, Function.update_self, Option.some_inj] at hnew
    subst hnew
    exact Or.inl ⟨thread, job, owner.symm, joined⟩
  · exact .of_same (by rw [runs, Function.update_of_ne hi])

/-- A thread that only goes on inside its callback. -/
theorem goto_moves {a : Action C J} {j : J} {thread : JobThread} (job : s.job j = some thread)
    (phase : CallbackPhase) : Moves s (s.runs j (some { thread with phase := phase })) a :=
  ⟨fun _ => .of_same rfl, fun _ => .same rfl, .of_runs job rfl rfl id⟩

theorem pausing_moves {j : J} {thread : JobThread} {clock : Clock} {next : WaitPhase}
    (job : s.job j = some thread) (phase : thread.phase = .waiting .update) :
    Moves s ((s.mutate thread.taskId (.updateTask pausedChanges) clock).runs j
      (some { thread with phase := .waiting next })) (.job j .go clock) := by
  refine ⟨fun _ => .of_same rfl, fun id => ?_, .of_runs job rfl rfl fun h => h⟩
  have hget := get_mutate s thread.taskId id (.updateTask pausedChanges) clock
  by_cases hid : id = thread.taskId
  · rw [if_pos hid] at hget
    cases before : s.tasks.get id with
    | none => exact .same (hget.trans (by rw [before]; rfl))
    | some x =>
      rw [before] at hget
      refine .paused rfl job hid.symm phase before hget ?_
      show isLive (updateTask pausedChanges clock.now clock.monotonic x).1.status = true
      rw [updateTask_status]
      rfl
  · rw [if_neg hid] at hget
    exact .same hget

theorem jobStep_moves {j : J} {input : Input} {clock : Clock}
    (taken : jobStep s j input clock = some t) : Moves s t (.job j input clock) := by
  cases job : s.job j with
  | none => simp [jobStep, job] at taken
  | some thread =>
    cases input with
    | reports report =>
      simp only [jobStep, job] at taken
      cases taken
      exact ⟨fun _ => .of_same rfl, .of_write (.report report) rfl rfl, fun _ => .of_same rfl⟩
    | go =>
      cases phase : thread.phase with
      | working | entered | checkingPause =>
        simp only [jobStep, job, phase] at taken
        cases taken
        exact goto_moves job _
      | waiting wait =>
        simp only [jobStep, job, phase] at taken
        split at taken
        · cases taken
          exact goto_moves job _
        · split at taken
          · rename_i hupdate
            cases taken
            exact pausing_moves job (by rw [phase, hupdate])
          · cases taken
            exact goto_moves job _
      | reporting =>
        simp only [jobStep, job, phase] at taken
        split at taken
        · cases taken
          exact ⟨fun _ => .of_same rfl, .of_write (.report (.currentTask _)) rfl rfl,
            .of_runs job rfl rfl id⟩
        · cases taken
          exact goto_moves job _
    | _ => simp [jobStep, job] at taken

theorem step_moves {a : Action C J} (taken : step s a = some t) : Moves s t a := by
  cases a with
  | startTask taskId userId clock => exact startTask_moves taken
  | launch taskId ok clock => exact launch_moves taken
  | work taskId input clock => exact (workerStep_effect taken).moves
  | startJob j taskId role =>
    simp only [step] at taken
    split at taken
    · rename_i run _ hstudying
      cases taken
      refine ⟨fun _ => .of_same rfl, fun _ => .same rfl, fun i => ?_⟩
      by_cases hi : i = j
      · subst hi
        intro thread hthread
        simp only [State.runs, Function.update_self, Option.some_inj] at hthread
        subst hthread
        exact Or.inr ⟨run, hstudying⟩
      · exact .of_same (Function.update_of_ne hi _ _)
    · cases taken
  | job j input clock => exact jobStep_moves taken
  | abandon j =>
    simp only [step] at taken
    split at taken
    · rename_i thread job
      split at taken
      · cases taken
        exact ⟨fun _ => .of_same rfl, fun _ => .same rfl, .of_runs job rfl rfl fun h => by cases h⟩
      · cases taken
    · cases taken
  | endJob j =>
    simp only [step] at taken
    split at taken
    · split at taken
      · cases taken
        refine ⟨fun _ => .of_same rfl, fun _ => .same rfl, fun i => ?_⟩
        by_cases hi : i = j
        · subst hi
          intro thread hthread
          simp [State.runs] at hthread
        · exact .of_same (Function.update_of_ne hi _ _)
      · cases taken
    · cases taken
  | control c kind userId taskId =>
    simp only [step] at taken
    split at taken
    · cases taken
      exact ⟨fun _ => .of_same rfl, fun _ => .same rfl, fun _ => .of_same rfl⟩
    · cases taken
  | proceed c stored clock => exact controlStep_moves taken
  | cleanup now =>
    cases taken
    exact ⟨fun _ => .of_same rfl, fun _ => .of_cleanup rfl, fun _ => .of_same rfl⟩
  | merge item now =>
    simp only [step] at taken
    split at taken
    · rename_i hstored
      cases taken
      exact mergeTask_moves hstored
    · cases taken

/-- A task whose worker may yet write a live status is under way, and so is one with a thread
that is yet to be joined. -/
structure Coherent (s : State C J) : Prop where
  live : ∀ taskId, (s.life taskId).isOpen = true →
    ∃ x, s.tasks.get taskId = some x ∧ isLive x.status = true
  known : ∀ taskId x, s.tasks.get taskId = some x → s.life taskId ≠ .unknown
  joined : ∀ j thread, s.job j = some thread → thread.joined = true →
    ∃ run, s.life thread.taskId = .studying run

theorem coherent_start (h : (machine C J).start s) : Coherent s := by
  obtain ⟨htasks, hlife, hjob, -⟩ := h
  refine ⟨fun taskId hopen => ?_, fun taskId x hx => ?_, fun j thread hthread => ?_⟩
  · rw [hlife] at hopen
    cases hopen
  · rw [htasks] at hx
    cases hx
  · rw [hjob] at hthread
    cases hthread

theorem Coherent.preserved {a : Action C J} (h : Coherent s) (taken : step s a = some t) :
    Coherent t := by
  have hmoves := step_moves taken
  refine ⟨fun id hopen => ?_, fun id y hy => ?_, fun j thread hthread hjoined => ?_⟩
  · rcases (hmoves.life id).opens hopen with hs | ⟨-, hlive⟩
    swap
    · exact hlive
    obtain ⟨x, hx, hlive⟩ := h.live id hs
    cases hmoves.record id with
    | same heq => exact ⟨x, heq.trans hx, hlive⟩
    | evicted before idle after =>
      obtain rfl := Option.some_inj.mp (before.symm.trans hx)
      rw [isLive_active hlive] at idle
      cases idle
    | loaded before after finished known =>
      rw [before] at hx
      cases hx
    | admitted new after live known => exact ⟨_, after, live⟩
    | kept before after status =>
      obtain rfl := Option.some_inj.mp (before.symm.trans hx)
      exact ⟨_, after, by rw [status]; exact hlive⟩
    | controlled before after unfinished live => exact ⟨_, after, live⟩
    | worked before after isOpen live => exact ⟨_, after, live⟩
    | ended before after finished closed =>
      rw [closed] at hopen
      cases hopen
    | paused action job owner phase before after live => exact ⟨_, after, live⟩
  · refine fun hnew => ?_
    have hold := (hmoves.life id).known hnew
    cases hmoves.record id with
    | same heq => exact h.known id y (by rw [← heq]; exact hy) hold
    | evicted before idle after => exact h.known id _ before hold
    | loaded before after finished known => exact known hnew
    | admitted new after live known => exact known hnew
    | kept before after status => exact h.known id _ before hold
    | controlled before after unfinished live => exact h.known id _ before hold
    | worked before after isOpen live => exact h.known id _ before hold
    | ended before after finished closed => exact h.known id _ before hold
    | paused action job owner phase before after live => exact h.known id _ before hold
  · rcases hmoves.job j thread hthread with ⟨old, hold, howner, himp⟩ | hstudying
    · obtain ⟨run, hrun⟩ := h.joined j old hold (himp hjoined)
      rw [howner] at hrun
      rcases (hmoves.life thread.taskId).leaves run hrun with hstill | hnone
      · exact ⟨run, hstill⟩
      · have := hnone j
        simp [joins, hold, himp hjoined, howner] at this
    · exact hstudying

theorem Coherent.of_reachable {ok : State C J → Action C J → Prop}
    (h : (machine C J).Reachable ok s) : Coherent s :=
  h.invariant (fun _ => coherent_start) fun _ _ _ hs _ taken => hs.preserved taken

/-- No thread that outlived its run writes the paused status over a finished one. -/
def NoLatePause (s : State C J) : Action C J → Prop
  | .job j .go _ => ∀ thread x, s.job j = some thread → thread.joined = false →
      thread.phase = .waiting .update → s.tasks.get thread.taskId = some x →
        isFinished x.status = false
  | _ => True

/-- Nobody is left to write a live status, and the record, if there is one, is finished. -/
structure Ended (s : State C J) (taskId : String) : Prop where
  closed : (s.life taskId).isOpen = false
  known : s.life taskId ≠ .unknown
  finished : ∀ x, s.tasks.get taskId = some x → isFinished x.status = true

theorem Ended.of_finished {taskId : String} {x : LearningTask} (h : Coherent s)
    (found : s.tasks.get taskId = some x) (finished : isFinished x.status = true) :
    Ended s taskId := by
  have hsame : ∀ y, s.tasks.get taskId = some y → y = x := fun y hy =>
    Option.some_inj.mp (hy.symm.trans found)
  refine ⟨?_, h.known taskId x found, fun y hy => by rw [hsame y hy]; exact finished⟩
  by_contra hopen
  obtain ⟨y, hy, hlive⟩ := h.live taskId (Bool.eq_true_of_not_eq_false hopen)
  rw [hsame y hy] at hlive
  rw [isLive_not_finished hlive] at finished
  cases finished

theorem Ended.preserved {a : Action C J} {taskId : String} (coherent : Coherent s)
    (h : Ended s taskId) (allowed : NoLatePause s a) (taken : step s a = some t) :
    Ended t taskId := by
  have hmoves := step_moves taken
  refine ⟨?_, fun hnew => h.known ((hmoves.life taskId).known hnew), fun y hy => ?_⟩
  · by_contra hopen
    rcases (hmoves.life taskId).opens (Bool.eq_true_of_not_eq_false hopen) with hs | ⟨hnew, -⟩
    · rw [h.closed] at hs
      cases hs
    · exact h.known hnew
  · cases hmoves.record taskId with
    | same heq => exact h.finished y (by rw [← heq]; exact hy)
    | evicted before idle after =>
      rw [after] at hy
      cases hy
    | loaded before after finished known =>
      obtain rfl := Option.some_inj.mp (after.symm.trans hy)
      exact finished
    | admitted new after live known => exact absurd new h.known
    | kept before after status =>
      obtain rfl := Option.some_inj.mp (after.symm.trans hy)
      rw [status]
      exact h.finished _ before
    | controlled before after unfinished live =>
      rw [h.finished _ before] at unfinished
      cases unfinished
    | worked before after isOpen live =>
      rw [h.closed] at isOpen
      cases isOpen
    | ended before after finished closed =>
      obtain rfl := Option.some_inj.mp (after.symm.trans hy)
      exact finished
    | @paused x z j clock thread action job owner phase before after live =>
      subst action owner
      cases hjoined : thread.joined with
      | true =>
        obtain ⟨run, hrun⟩ := coherent.joined j thread job hjoined
        have hclosed := h.closed
        rw [hrun] at hclosed
        cases hclosed
      | false =>
        have hunfinished := allowed thread x job hjoined phase before
        rw [h.finished x before] at hunfinished
        cases hunfinished

theorem Ended.of_run {taskId : String} (h : (machine C J).Reachable NoLatePause s)
    (ended : Ended s taskId) (run : (machine C J).Run NoLatePause s t) : Ended t taskId := by
  induction run with
  | refl => exact ended
  | tail before allowed taken ih =>
    exact ih.preserved (Coherent.of_reachable (h.run before)) allowed taken

theorem latePause_revives {a : Action C J} (taken : step s a = some t) (bad : ¬ NoLatePause s a) :
    ∃ taskId x y, s.tasks.get taskId = some x ∧ isFinished x.status = true ∧
      t.tasks.get taskId = some y ∧ isLive y.status = true := by
  unfold NoLatePause at bad
  split at bad
  · rename_i j clock
    simp only [not_forall, Bool.not_eq_false] at bad
    obtain ⟨thread, x, job, -, phase, before, hfinished⟩ := bad
    simp only [step, jobStep, job, phase, waitForResume, if_true] at taken
    cases taken
    refine ⟨thread.taskId, x, (updateTask pausedChanges clock.now clock.monotonic x).1, before,
      hfinished, ?_, ?_⟩
    · exact (get_mutate _ _ _ _ _).trans (by rw [if_pos rfl, before]; rfl)
    · rw [updateTask_status]
      rfl
  · exact absurd trivial bad

/-- In every run in which no job thread that outlived its run writes the paused status over a
finished one, a task that has ended stays ended; and every step that does revives a task. -/
theorem ended_stays_ended :
    (∀ s t : State C J, (machine C J).Reachable NoLatePause s →
      (machine C J).Run NoLatePause s t → ∀ taskId x y, s.tasks.get taskId = some x →
        isFinished x.status = true → t.tasks.get taskId = some y → isFinished y.status = true) ∧
    (∀ (s t : State C J) a, (machine C J).Reachable Machine.free s → step s a = some t →
      ¬ NoLatePause s a → ∃ taskId x y, s.tasks.get taskId = some x ∧
        isFinished x.status = true ∧ t.tasks.get taskId = some y ∧ isLive y.status = true) := by
  refine ⟨fun s t h run taskId x y before finished after => ?_,
    fun s t a _ taken bad => latePause_revives taken bad⟩
  have hended := Ended.of_finished (Coherent.of_reachable h) before finished
  exact (hended.of_run h run).finished y after

def newManager : State Unit Unit :=
  ⟨OrderedDict.empty, fun _ => false, 0, fun _ => .unknown, fun _ => none, fun _ => .idle⟩

def noon : Clock := ⟨0, 0⟩

/-- The only course of the task runs; the task is paused while a job thread is in its callback;
`process_chapter` gives the job thread up, its last chapter fails, and the worker ends. -/
def pausedThenFailed : List (Action Unit Unit) :=
  [.startTask "t" "u" noon, .launch "t" true noon, .launch "t" true noon,
    .work "t" .go noon, .work "t" .go noon, .work "t" .go noon,
    .work "t" (.selected ["c"]) noon, .work "t" .go noon, .work "t" .go noon,
    .work "t" .go noon, .work "t" .go noon, .work "t" .go noon, .work "t" .go noon,
    .startJob () "t" .video, .job () .go noon, .job () .go noon,
    .control () .pause "u" "t", .proceed () none noon, .proceed () none noon,
    .proceed () none noon, .job () .go noon, .job () .go noon, .job () .go noon, .abandon (),
    .work "t" .go noon, .work "t" (.fails "") noon, .work "t" .go noon, .work "t" .go noon,
    .work "t" .go noon]

def failedTask : State Unit Unit :=
  ((machine Unit Unit).exec newManager pausedThenFailed).getD newManager

theorem failed_task_paused :
    (machine Unit Unit).Reachable Machine.free failedTask ∧
    (failedTask.tasks.get "t").map (fun task => task.status) = some .failed ∧
    ∃ t, step failedTask (.job () .go noon) = some t ∧
      (t.tasks.get "t").map (fun task => task.status) = some .paused := by
  refine ⟨Machine.reachable_of_exec (s := newManager) pausedThenFailed
    ⟨rfl, fun _ => rfl, fun _ => rfl, fun _ => rfl⟩ rfl, rfl, _, rfl, rfl⟩

end UniversityHelper.LearningManager
