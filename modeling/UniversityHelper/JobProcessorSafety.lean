import UniversityHelper.Threads
import UniversityHelper.JobProcessor

/-! Where the chapters of a batch are while its threads run, what the two counters of the
controller count, and when the controller leaves with every chapter settled. -/
namespace UniversityHelper.JobProcessor
set_option linter.unusedSectionVars false

/-- The chapter in a worker's hands. -/
def WorkerPhase.held : WorkerPhase → Multiset ℕ
  | .processing i => {i}
  | .deciding i => {i}
  | .retrying i => {i}
  | .enlisting i => {i}
  | .putting i => {i}
  | _ => 0

/-- The `task_done` calls a worker still owes. -/
def WorkerPhase.owed : WorkerPhase → ℕ
  | .unstarted => 0
  | .getting => 0
  | _ => 1

/-- The chapters a worker has counted in `_pending_retries` and not yet put into the queue. -/
def WorkerPhase.announced : WorkerPhase → ℕ
  | .putting _ => 1
  | _ => 0

def RetryPhase.held : RetryPhase → Multiset ℕ
  | .holding i => {i}
  | .locked i => {i}
  | _ => 0

def RetryPhase.announced : RetryPhase → ℕ
  | .holding _ => 1
  | .locked _ => 1
  | .releasing => 1
  | _ => 0

def ControllerPhase.held : ControllerPhase → Multiset ℕ
  | .promoted i => {i}
  | _ => 0

def ControllerPhase.announced : ControllerPhase → ℕ
  | .promoted _ => 1
  | .marking => 1
  | .releasing => 1
  | _ => 0

variable {W : Type*} [DecidableEq W] [Fintype W] {batch : Batch} {s t : State W}

/-- The chapters in a queue or in the hands of a thread. -/
def State.inPlay (s : State W) : Multiset ℕ :=
  s.taskQueue.items + s.retryQueue.items + load WorkerPhase.held s.worker + s.retry.held +
    s.controller.held

def Settled (batch : Batch) (s : State W) (i : ℕ) : Prop :=
  (s.task i).result = .success ∨
    (s.task i).result = .notOpen ∧ batch.notopenAction = "continue" ∨ i ∈ s.failedTasks

/-- A step moves chapters about, or settles the one a worker holds. -/
inductive Effect (batch : Batch) (s t : State W) : Prop
  | moved (same : t.inPlay = s.inPlay) (task : ∀ i, i ∉ s.inPlay → t.task i = s.task i)
      (failed : t.failedTasks = s.failedTasks)
  | settled (i : ℕ) (rest : s.inPlay = i ::ₘ t.inPlay) (task : ∀ j, j ≠ i → t.task j = s.task j)
      (failed : ∀ j ∈ s.failedTasks, j ∈ t.failedTasks) (done : Settled batch t i)

theorem held_goto (s : State W) (w : W) (next : WorkerPhase) :
    load WorkerPhase.held (Function.update s.worker w next) + (s.worker w).held =
      load WorkerPhase.held s.worker + next.held :=
  load_update _ _ _ _

theorem mem_inPlay_of_held {w : W} {i : ℕ} (h : i ∈ (s.worker w).held) : i ∈ s.inPlay := by
  have hle : (s.worker w).held ≤ load WorkerPhase.held s.worker :=
    Finset.single_le_sum_of_canonicallyOrdered (f := fun v => (s.worker v).held)
      (Finset.mem_univ w)
  have hmem := Multiset.mem_of_le hle h
  simp [State.inPlay, hmem]

theorem PriorityQueue.get_eq_some {q q' : PriorityQueue} {i : ℕ} (h : q.get = some (i, q')) :
    q.items = i :: q'.items ∧ q'.unfinishedTasks = q.unfinishedTasks := by
  unfold PriorityQueue.get at h
  cases hitems : q.items with
  | nil => simp [hitems] at h
  | cons j rest =>
    simp only [hitems, Option.some_inj, Prod.mk.injEq] at h
    obtain ⟨rfl, rfl⟩ := h
    exact ⟨rfl, rfl⟩

@[simp] theorem PriorityQueue.coe_put (q : PriorityQueue) (i : ℕ) :
    ((q.put i).items : Multiset ℕ) = {i} + q.items := by
  rw [Multiset.singleton_add, Multiset.cons_coe, Multiset.coe_eq_coe]
  exact List.perm_orderedInsert _ _ _

@[simp] theorem PriorityQueue.length_put (q : PriorityQueue) (i : ℕ) :
    (q.put i).items.length = q.items.length + 1 := List.orderedInsert_length _ _ _

@[simp] theorem PriorityQueue.unfinishedTasks_put (q : PriorityQueue) (i : ℕ) :
    (q.put i).unfinishedTasks = q.unfinishedTasks + 1 := rfl

theorem afterAttempt_settle {task : ChapterTask} (h : (afterAttempt batch task).2 = .settle) :
    (afterAttempt batch task).1 = task ∧
      (task.result = .success ∨ task.result = .notOpen ∧ batch.notopenAction = "continue") := by
  have hcount : (countFailure task).2 ≠ .settle := by
    unfold countFailure
    dsimp only
    split
    · simp
    · simp
  unfold afterAttempt at h ⊢
  cases hresult : task.result with
  | success => exact ⟨rfl, Or.inl rfl⟩
  | notOpen =>
    simp only [hresult] at h ⊢
    split at h
    · rename_i hcontinue
      rw [if_pos hcontinue]
      exact ⟨rfl, Or.inr ⟨trivial, hcontinue⟩⟩
    · exact absurd h hcount
  | error =>
    simp only [hresult] at h
    exact absurd h hcount
  | pending => simp [hresult] at h

/-- A worker that keeps what it holds, or holds nothing, while nothing else moves. -/
theorem Effect.kept {w : W} {next : WorkerPhase} (same : next.held = (s.worker w).held)
    (worker : t.worker = Function.update s.worker w next)
    (queues : t.taskQueue.items = s.taskQueue.items ∧ t.retryQueue.items = s.retryQueue.items)
    (others : t.retry = s.retry ∧ t.controller = s.controller)
    (task : ∀ i, i ∉ s.inPlay → t.task i = s.task i) (failed : t.failedTasks = s.failedTasks) :
    Effect batch s t := by
  refine .moved ?_ task failed
  rw [State.inPlay, State.inPlay, queues.1, queues.2, others.1, others.2, worker,
    load_update_of_eq same]

theorem not_mem_of_held {w : W} {i j : ℕ} (held : (s.worker w).held = {i}) (hj : j ∉ s.inPlay) :
    j ≠ i := by
  rintro rfl
  exact hj (mem_inPlay_of_held (w := w) (by rw [held]; exact Multiset.mem_singleton_self _))

theorem inPlay_finishing {w : W} {i : ℕ} (held : (s.worker w).held = {i}) :
    s.inPlay = i ::ₘ (s.goto w .finishing).inPlay := by
  have hload := held_goto s w .finishing
  have hfree : WorkerPhase.finishing.held = 0 := rfl
  rw [held, hfree, add_zero] at hload
  simp only [State.inPlay, State.goto, ← hload, ← Multiset.singleton_add]
  abel

theorem deciding_effect {w : W} {i : ℕ} (phase : s.worker w = .deciding i)
    (taken : workerStep batch s w = some t) : Effect batch s t := by
  have hheld : (s.worker w).held = {i} := by rw [phase]; rfl
  have hrest := inPlay_finishing hheld
  simp only [workerStep, phase] at taken
  split at taken
  · rename_i hdecision
    obtain ⟨hsame, hresult⟩ := afterAttempt_settle hdecision
    cases taken
    refine .settled i hrest (fun j hj => Function.update_of_ne hj _ _) (fun _ hj => hj) ?_
    simp only [Settled, Function.update_self, hsame]
    exact hresult.elim Or.inl fun h => Or.inr (Or.inl h)
  · cases taken
    exact .settled i hrest (fun j hj => Function.update_of_ne hj _ _)
      (fun j hj => List.mem_append_left _ hj) (Or.inr (Or.inr (by simp)))
  · cases taken
    exact .kept (by rw [hheld]; rfl) rfl ⟨rfl, rfl⟩ ⟨rfl, rfl⟩
      (fun j hj => Function.update_of_ne (not_mem_of_held hheld hj) _ _) rfl

theorem workerStep_effect {w : W} (taken : workerStep batch s w = some t) : Effect batch s t := by
  cases phase : s.worker w with
  | unstarted => simp [workerStep, phase] at taken
  | getting =>
    simp only [workerStep, phase] at taken
    split at taken
    · cases taken
    · rename_i i taskQueue hget
      obtain ⟨hitems, -⟩ := PriorityQueue.get_eq_some hget
      cases taken
      refine .moved ?_ (fun _ _ => rfl) rfl
      have hload := held_goto s w (.processing i)
      rw [phase] at hload
      simp only [WorkerPhase.held, add_zero] at hload
      simp only [State.inPlay, State.goto, hitems, hload, ← Multiset.cons_coe,
        ← Multiset.singleton_add]
      abel
  | processing i =>
    have hheld : (s.worker w).held = {i} := by rw [phase]; rfl
    simp only [workerStep, phase] at taken
    cases taken
    exact .kept (by rw [hheld]; rfl) rfl ⟨rfl, rfl⟩ ⟨rfl, rfl⟩
      (fun j hj => Function.update_of_ne (not_mem_of_held hheld hj) _ _) rfl
  | deciding i => exact deciding_effect phase taken
  | retrying i =>
    simp only [workerStep, phase] at taken
    split at taken
    · cases taken
    · cases taken
      exact .kept (by rw [phase]; rfl) rfl ⟨rfl, rfl⟩ ⟨rfl, rfl⟩ (fun _ _ => rfl) rfl
  | enlisting i =>
    simp only [workerStep, phase] at taken
    cases taken
    exact .kept (by rw [phase]; rfl) rfl ⟨rfl, rfl⟩ ⟨rfl, rfl⟩ (fun _ _ => rfl) rfl
  | putting i =>
    simp only [workerStep, phase] at taken
    cases taken
    refine .moved ?_ (fun _ _ => rfl) rfl
    have hload := held_goto s w .unlocking
    rw [phase] at hload
    simp only [WorkerPhase.held, add_zero] at hload
    simp only [State.inPlay, State.goto, ← hload, PriorityQueue.coe_put]
    abel
  | unlocking =>
    simp only [workerStep, phase] at taken
    cases taken
    exact .kept (by rw [phase]; rfl) rfl ⟨rfl, rfl⟩ ⟨rfl, rfl⟩ (fun _ _ => rfl) rfl
  | finishing =>
    simp only [workerStep, phase] at taken
    cases taken
    exact .kept (by rw [phase]; rfl) rfl ⟨rfl, rfl⟩ ⟨rfl, rfl⟩ (fun _ _ => rfl) rfl

theorem retryStep_effect (taken : retryStep s = some t) : Effect batch s t := by
  cases phase : s.retry with
  | unstarted => simp [retryStep, phase] at taken
  | getting =>
    simp only [retryStep, phase] at taken
    split at taken
    · cases taken
    · rename_i i retryQueue hget
      obtain ⟨hitems, -⟩ := PriorityQueue.get_eq_some hget
      cases taken
      refine .moved ?_ (fun _ _ => rfl) rfl
      simp only [State.inPlay, phase, RetryPhase.held, hitems, ← Multiset.cons_coe,
        ← Multiset.singleton_add]
      abel
  | holding i =>
    simp only [retryStep, phase] at taken
    split at taken
    · cases taken
    · cases taken
      exact .moved (by simp only [State.inPlay, phase, RetryPhase.held]) (fun _ _ => rfl) rfl
  | locked i =>
    simp only [retryStep, phase] at taken
    cases taken
    refine .moved ?_ (fun _ _ => rfl) rfl
    simp only [State.inPlay, phase, RetryPhase.held, PriorityQueue.coe_put]
    abel
  | releasing =>
    simp only [retryStep, phase] at taken
    cases taken
    exact .moved (by simp only [State.inPlay, phase, RetryPhase.held]) (fun _ _ => rfl) rfl
  | unlocking =>
    simp only [retryStep, phase] at taken
    cases taken
    exact .moved (by simp only [State.inPlay, phase, RetryPhase.held]) (fun _ _ => rfl) rfl
  | marking =>
    simp only [retryStep, phase] at taken
    cases taken
    exact .moved (by simp only [State.inPlay, phase, RetryPhase.held, PriorityQueue.taskDone])
      (fun _ _ => rfl) rfl
  | sleeping =>
    simp only [retryStep, phase] at taken
    cases taken
    exact .moved (by simp only [State.inPlay, phase, RetryPhase.held]) (fun _ _ => rfl) rfl

/-- A step of the controller that moves no chapter. -/
theorem Effect.controlled (queues : t.taskQueue.items = s.taskQueue.items ∧
    t.retryQueue.items = s.retryQueue.items) (worker : t.worker = s.worker)
    (retry : t.retry = s.retry) (free : s.controller.held = 0 ∧ t.controller.held = 0)
    (task : t.task = s.task) (failed : t.failedTasks = s.failedTasks) : Effect batch s t := by
  refine .moved ?_ (fun _ _ => by rw [task]) failed
  rw [State.inPlay, State.inPlay, queues.1, queues.2, worker, retry, free.1, free.2]

theorem controllerStep_effect (taken : controllerStep s = some t) : Effect batch s t := by
  cases phase : s.controller with
  | starting =>
    simp only [controllerStep, phase] at taken
    split at taken
    · cases taken
      exact .controlled ⟨rfl, rfl⟩ rfl rfl ⟨by rw [phase]; rfl, rfl⟩ rfl rfl
    · cases taken
  | looping =>
    simp only [controllerStep, phase] at taken
    split at taken
    · cases taken
    · cases taken
      exact .controlled ⟨rfl, rfl⟩ rfl rfl ⟨by rw [phase]; rfl, rfl⟩ rfl rfl
  | promoting =>
    simp only [controllerStep, phase] at taken
    split at taken
    · cases taken
      exact .controlled ⟨rfl, rfl⟩ rfl rfl ⟨by rw [phase]; rfl, rfl⟩ rfl rfl
    · rename_i i retryQueue hget
      obtain ⟨hitems, -⟩ := PriorityQueue.get_eq_some hget
      cases taken
      refine .moved ?_ (fun _ _ => rfl) rfl
      simp only [State.inPlay, phase, ControllerPhase.held, hitems, ← Multiset.cons_coe,
        ← Multiset.singleton_add]
      abel
  | promoted i =>
    simp only [controllerStep, phase] at taken
    cases taken
    refine .moved ?_ (fun _ _ => rfl) rfl
    simp only [State.inPlay, phase, ControllerPhase.held, PriorityQueue.coe_put]
    abel
  | marking =>
    simp only [controllerStep, phase] at taken
    cases taken
    exact .controlled ⟨rfl, rfl⟩ rfl rfl ⟨by rw [phase]; rfl, rfl⟩ rfl rfl
  | releasing =>
    simp only [controllerStep, phase] at taken
    cases taken
    exact .controlled ⟨rfl, rfl⟩ rfl rfl ⟨by rw [phase]; rfl, rfl⟩ rfl rfl
  | unlocking =>
    simp only [controllerStep, phase] at taken
    cases taken
    exact .controlled ⟨rfl, rfl⟩ rfl rfl ⟨by rw [phase]; rfl, rfl⟩ rfl rfl
  | checking =>
    simp only [controllerStep, phase] at taken
    cases taken
    exact .controlled ⟨rfl, rfl⟩ rfl rfl ⟨by rw [phase]; rfl, rfl⟩ rfl rfl
  | counted pending =>
    simp only [controllerStep, phase] at taken
    split at taken
    · cases taken
      exact .controlled ⟨rfl, rfl⟩ rfl rfl ⟨by rw [phase]; rfl, rfl⟩ rfl rfl
    · cases taken
      exact .controlled ⟨rfl, rfl⟩ rfl rfl ⟨by rw [phase]; rfl, rfl⟩ rfl rfl
  | resting =>
    simp only [controllerStep, phase] at taken
    cases taken
    exact .controlled ⟨rfl, rfl⟩ rfl rfl ⟨by rw [phase]; rfl, rfl⟩ rfl rfl
  | left => simp [controllerStep, phase] at taken

theorem step_effect {a : Action W} (taken : step batch s a = some t) : Effect batch s t := by
  cases a with
  | startWorker w =>
    simp only [step] at taken
    split at taken
    · rename_i h
      cases taken
      exact .kept (by rw [h.2]; rfl) rfl ⟨rfl, rfl⟩ ⟨rfl, rfl⟩ (fun _ _ => rfl) rfl
    · cases taken
  | startRetry =>
    simp only [step] at taken
    split at taken
    · rename_i h
      cases taken
      exact .moved (by simp only [State.inPlay, h.2, RetryPhase.held]) (fun _ _ => rfl) rfl
    · cases taken
  | work w => exact workerStep_effect taken
  | retry => exact retryStep_effect taken
  | control => exact controllerStep_effect taken

/-- Every chapter of the batch is in play once, or settled. -/
def Accounted (batch : Batch) (s : State W) : Prop :=
  ∃ settled : Multiset ℕ, s.inPlay + settled = batch.chapters ∧ ∀ i ∈ settled, Settled batch s i

theorem Settled.congr {i : ℕ} (task : t.task i = s.task i)
    (failed : ∀ j ∈ s.failedTasks, j ∈ t.failedTasks) (h : Settled batch s i) :
    Settled batch t i := by
  rw [Settled, task]
  rcases h with h | h | h
  · exact Or.inl h
  · exact Or.inr (Or.inl h)
  · exact Or.inr (Or.inr (failed i h))

theorem Accounted.preserved {a : Action W} (h : Accounted batch s)
    (taken : step batch s a = some t) : Accounted batch t := by
  obtain ⟨settled, hsplit, hsettled⟩ := h
  have hnodup : (s.inPlay + settled).Nodup := by
    rw [hsplit]
    exact Multiset.coe_nodup.mpr batch.distinct
  have hdisjoint := Multiset.disjoint_of_nodup_add hnodup
  cases step_effect taken with
  | moved same task failed =>
    refine ⟨settled, by rw [same, hsplit], fun i hi => ?_⟩
    refine (hsettled i hi).congr (task i fun hplay => ?_) (fun j hj => by rw [failed]; exact hj)
    exact Multiset.disjoint_left.mp hdisjoint hplay hi
  | settled i rest task failed done =>
    refine ⟨i ::ₘ settled, ?_, fun j hj => ?_⟩
    · rw [← hsplit, rest, Multiset.add_cons, Multiset.cons_add]
    · rcases Multiset.mem_cons.mp hj with rfl | hold
      · exact done
      · refine (hsettled j hold).congr (task j ?_) failed
        rintro rfl
        have hplay : j ∈ s.inPlay := by simp [rest]
        exact Multiset.disjoint_left.mp hdisjoint hplay hold

theorem coe_foldl_put (chapters : List ℕ) (q : PriorityQueue) :
    ((chapters.foldl PriorityQueue.put q).items : Multiset ℕ) = q.items + chapters ∧
      (chapters.foldl PriorityQueue.put q).unfinishedTasks = q.unfinishedTasks + chapters.length := by
  induction chapters generalizing q with
  | nil => simp
  | cons i chapters ih =>
    obtain ⟨hitems, hunfinished⟩ := ih (q.put i)
    refine ⟨?_, ?_⟩
    · rw [List.foldl_cons, hitems, PriorityQueue.coe_put, ← Multiset.cons_coe,
        ← Multiset.singleton_add]
      abel
    · rw [List.foldl_cons, hunfinished, PriorityQueue.unfinishedTasks_put, List.length_cons]
      omega

theorem accounted_start (h : (machine W batch).start s) : Accounted batch s := by
  obtain ⟨htasks, hretries, -, -, -, -, -, -, hworkers, hretry, hcontroller⟩ := h
  refine ⟨0, ?_, by simp⟩
  have hzero : load WorkerPhase.held s.worker = 0 :=
    load_eq_zero.mpr fun w => by rw [hworkers]; rfl
  have hitems := (coe_foldl_put batch.chapters ⟨[], 0⟩).1
  simp only [State.inPlay, htasks, hitems, hretries, hzero, hretry, hcontroller, RetryPhase.held,
    ControllerPhase.held]
  simp

theorem Accounted.of_reachable {ok : State W → Action W → Prop}
    (h : (machine W batch).Reachable ok s) : Accounted batch s :=
  h.invariant (fun _ => accounted_start) fun _ _ _ hs _ taken => hs.preserved taken

/-- What `unfinished_tasks` and `_pending_retries` count. -/
structure Counted (s : State W) : Prop where
  unfinished : s.taskQueue.unfinishedTasks =
    s.taskQueue.items.length + load WorkerPhase.owed s.worker
  pending : s.pendingRetries = load WorkerPhase.announced s.worker +
    s.retryQueue.items.length + s.retry.announced + s.controller.announced

theorem owed_goto {w : W} {phase : WorkerPhase} (h : s.worker w = phase) (next : WorkerPhase) :
    load WorkerPhase.owed (Function.update s.worker w next) + phase.owed =
      load WorkerPhase.owed s.worker + next.owed := by
  rw [← h]
  exact load_update _ _ _ _

theorem announced_goto {w : W} {phase : WorkerPhase} (h : s.worker w = phase)
    (next : WorkerPhase) :
    load WorkerPhase.announced (Function.update s.worker w next) + phase.announced =
      load WorkerPhase.announced s.worker + next.announced := by
  rw [← h]
  exact load_update _ _ _ _

/-- A worker step that neither owes nor announces anything new. -/
theorem Counted.kept {w : W} {next : WorkerPhase} (h : Counted s)
    (same : next.owed = (s.worker w).owed ∧ next.announced = (s.worker w).announced)
    (worker : t.worker = Function.update s.worker w next) (queues : t.taskQueue = s.taskQueue ∧
      t.retryQueue = s.retryQueue) (pending : t.pendingRetries = s.pendingRetries)
    (others : t.retry = s.retry ∧ t.controller = s.controller) : Counted t := by
  refine ⟨?_, ?_⟩
  · rw [queues.1, worker, load_update_of_eq same.1]
    exact h.unfinished
  · rw [pending, worker, load_update_of_eq same.2, queues.2, others.1, others.2]
    exact h.pending

theorem Counted.work {w : W} (h : Counted s) (taken : workerStep batch s w = some t) :
    Counted t := by
  cases phase : s.worker w with
  | unstarted => simp [workerStep, phase] at taken
  | getting =>
    simp only [workerStep, phase] at taken
    split at taken
    · cases taken
    · rename_i i taskQueue hget
      obtain ⟨hitems, hunfinished⟩ := PriorityQueue.get_eq_some hget
      have howed := owed_goto phase (.processing i)
      have hannounced := announced_goto phase (.processing i)
      have hlength := congrArg List.length hitems
      rw [List.length_cons] at hlength
      simp only [WorkerPhase.owed, WorkerPhase.announced] at howed hannounced
      cases taken
      refine ⟨?_, ?_⟩
      · have := h.unfinished
        simp only [State.goto]
        omega
      · have := h.pending
        simp only [State.goto]
        omega
  | processing i =>
    simp only [workerStep, phase] at taken
    cases taken
    exact h.kept (by rw [phase]; exact ⟨rfl, rfl⟩) rfl ⟨rfl, rfl⟩ rfl ⟨rfl, rfl⟩
  | deciding i =>
    simp only [workerStep, phase] at taken
    split at taken
    all_goals
      cases taken
      exact h.kept (by rw [phase]; exact ⟨rfl, rfl⟩) rfl ⟨rfl, rfl⟩ rfl ⟨rfl, rfl⟩
  | retrying i =>
    simp only [workerStep, phase] at taken
    split at taken
    · cases taken
    · cases taken
      exact h.kept (by rw [phase]; exact ⟨rfl, rfl⟩) rfl ⟨rfl, rfl⟩ rfl ⟨rfl, rfl⟩
  | enlisting i =>
    simp only [workerStep, phase] at taken
    have howed := owed_goto phase (.putting i)
    have hannounced := announced_goto phase (.putting i)
    simp only [WorkerPhase.owed, WorkerPhase.announced] at howed hannounced
    cases taken
    refine ⟨?_, ?_⟩
    · have := h.unfinished
      simp only [State.goto]
      omega
    · have := h.pending
      simp only [State.goto]
      omega
  | putting i =>
    simp only [workerStep, phase] at taken
    have howed := owed_goto phase .unlocking
    have hannounced := announced_goto phase .unlocking
    simp only [WorkerPhase.owed, WorkerPhase.announced] at howed hannounced
    cases taken
    refine ⟨?_, ?_⟩
    · have := h.unfinished
      simp only [State.goto]
      omega
    · have := h.pending
      simp only [State.goto, PriorityQueue.length_put]
      omega
  | unlocking =>
    simp only [workerStep, phase] at taken
    cases taken
    exact h.kept (by rw [phase]; exact ⟨rfl, rfl⟩) rfl ⟨rfl, rfl⟩ rfl ⟨rfl, rfl⟩
  | finishing =>
    simp only [workerStep, phase] at taken
    have howed := owed_goto phase .getting
    have hannounced := announced_goto phase .getting
    simp only [WorkerPhase.owed, WorkerPhase.announced] at howed hannounced
    cases taken
    refine ⟨?_, ?_⟩
    · have := h.unfinished
      simp only [State.goto, PriorityQueue.taskDone]
      omega
    · have := h.pending
      simp only [State.goto]
      omega

theorem Counted.retry (h : Counted s) (taken : retryStep s = some t) : Counted t := by
  obtain ⟨hunfinished, hpending⟩ := h
  cases phase : s.retry with
  | unstarted => simp [retryStep, phase] at taken
  | getting =>
    simp only [retryStep, phase] at taken
    split at taken
    · cases taken
    · rename_i i retryQueue hget
      obtain ⟨hitems, -⟩ := PriorityQueue.get_eq_some hget
      rw [phase, hitems] at hpending
      simp only [RetryPhase.announced, List.length_cons] at hpending
      cases taken
      refine ⟨hunfinished, ?_⟩
      simp only [RetryPhase.announced]
      omega
  | holding i =>
    simp only [retryStep, phase] at taken
    split at taken
    · cases taken
    · cases taken
      exact ⟨hunfinished, by rw [phase] at hpending; exact hpending⟩
  | locked i =>
    simp only [retryStep, phase] at taken
    cases taken
    refine ⟨?_, by rw [phase] at hpending; exact hpending⟩
    simp only [PriorityQueue.unfinishedTasks_put, PriorityQueue.length_put]
    omega
  | releasing =>
    simp only [retryStep, phase] at taken
    rw [phase] at hpending
    simp only [RetryPhase.announced] at hpending
    cases taken
    refine ⟨hunfinished, ?_⟩
    simp only [RetryPhase.announced]
    omega
  | unlocking =>
    simp only [retryStep, phase] at taken
    cases taken
    exact ⟨hunfinished, by rw [phase] at hpending; exact hpending⟩
  | marking =>
    simp only [retryStep, phase] at taken
    cases taken
    exact ⟨hunfinished, by rw [phase] at hpending; exact hpending⟩
  | sleeping =>
    simp only [retryStep, phase] at taken
    cases taken
    exact ⟨hunfinished, by rw [phase] at hpending; exact hpending⟩

theorem Counted.control (h : Counted s) (taken : controllerStep s = some t) : Counted t := by
  obtain ⟨hunfinished, hpending⟩ := h
  cases phase : s.controller with
  | promoting =>
    rw [phase] at hpending
    simp only [controllerStep, phase] at taken
    split at taken
    · cases taken
      exact ⟨hunfinished, hpending⟩
    · rename_i i retryQueue hget
      obtain ⟨hitems, -⟩ := PriorityQueue.get_eq_some hget
      rw [hitems] at hpending
      simp only [ControllerPhase.announced, List.length_cons] at hpending
      cases taken
      refine ⟨hunfinished, ?_⟩
      simp only [ControllerPhase.announced]
      omega
  | promoted i =>
    rw [phase] at hpending
    simp only [controllerStep, phase] at taken
    cases taken
    refine ⟨?_, hpending⟩
    simp only [PriorityQueue.unfinishedTasks_put, PriorityQueue.length_put]
    omega
  | releasing =>
    rw [phase] at hpending
    simp only [controllerStep, phase] at taken
    simp only [ControllerPhase.announced] at hpending
    cases taken
    refine ⟨hunfinished, ?_⟩
    simp only [ControllerPhase.announced]
    omega
  | left => simp [controllerStep, phase] at taken
  | starting =>
    rw [phase] at hpending
    simp only [controllerStep, phase] at taken
    split at taken
    · cases taken
      exact ⟨hunfinished, hpending⟩
    · cases taken
  | looping =>
    rw [phase] at hpending
    simp only [controllerStep, phase] at taken
    split at taken
    · cases taken
    · cases taken
      exact ⟨hunfinished, hpending⟩
  | counted pending =>
    rw [phase] at hpending
    simp only [controllerStep, phase] at taken
    split at taken
    · cases taken
      exact ⟨hunfinished, hpending⟩
    · cases taken
      exact ⟨hunfinished, hpending⟩
  | marking | unlocking | checking | resting =>
    rw [phase] at hpending
    simp only [controllerStep, phase] at taken
    cases taken
    exact ⟨hunfinished, hpending⟩

theorem Counted.preserved {a : Action W} (h : Counted s) (taken : step batch s a = some t) :
    Counted t := by
  cases a with
  | startWorker w =>
    simp only [step] at taken
    split at taken
    · rename_i hstart
      cases taken
      exact h.kept (by rw [hstart.2]; exact ⟨rfl, rfl⟩) rfl ⟨rfl, rfl⟩ rfl ⟨rfl, rfl⟩
    · cases taken
  | startRetry =>
    simp only [step] at taken
    split at taken
    · rename_i hstart
      cases taken
      exact ⟨h.unfinished, by have := h.pending; rw [hstart.2] at this; exact this⟩
    · cases taken
  | work w => exact h.work taken
  | retry => exact h.retry taken
  | control => exact h.control taken

theorem counted_start (h : (machine W batch).start s) : Counted s := by
  obtain ⟨htasks, hretries, hpending, -, -, -, -, -, hworkers, hretry, hcontroller⟩ := h
  have howed : load WorkerPhase.owed s.worker = 0 :=
    load_eq_zero.mpr fun w => by rw [hworkers]; rfl
  have hannounced : load WorkerPhase.announced s.worker = 0 :=
    load_eq_zero.mpr fun w => by rw [hworkers]; rfl
  obtain ⟨hitems, hunfinished⟩ := coe_foldl_put batch.chapters ⟨[], 0⟩
  have hlength := congrArg Multiset.card hitems
  simp only [Multiset.coe_card, Multiset.card_add, List.length_nil] at hlength
  refine ⟨?_, ?_⟩
  · rw [htasks, howed, hunfinished, hlength, add_zero]
  · rw [hpending, hannounced, hretries, hretry, hcontroller]
    rfl

theorem Counted.of_reachable {ok : State W → Action W → Prop}
    (h : (machine W batch).Reachable ok s) : Counted s :=
  h.invariant (fun _ => counted_start) fun _ _ _ hs _ taken => hs.preserved taken

/-- No chapter is on its way from a worker back to the task queue. -/
def HandOffClosed (s : State W) : Prop := s.retryQueue.items = [] ∧ s.retry.held = 0

theorem held_eq_zero_of_owed {phase : WorkerPhase} (h : phase.owed = 0) : phase.held = 0 := by
  cases phase with
  | unstarted => rfl
  | getting => rfl
  | unlocking => rfl
  | finishing => rfl
  | _ => simp [WorkerPhase.owed] at h

theorem workerStep_controller {w : W} (taken : workerStep batch s w = some t) :
    t.controller = s.controller ∧ t.retry = s.retry := by
  unfold workerStep at taken
  split at taken
  case h_4 =>
    dsimp only at taken
    split at taken
    all_goals
      cases taken
      exact ⟨rfl, rfl⟩
  case h_2 | h_5 =>
    split at taken
    · cases taken
    · cases taken
      exact ⟨rfl, rfl⟩
  all_goals
    cases taken
    try exact ⟨rfl, rfl⟩

theorem retryStep_controller (taken : retryStep s = some t) : t.controller = s.controller := by
  unfold retryStep at taken
  split at taken
  case h_2 | h_3 =>
    split at taken
    · cases taken
    · cases taken
      rfl
  all_goals
    cases taken
    try rfl

/-- What the last read says about a controller that leaves its loop. -/
theorem leave_cases {a : Action W} (taken : step batch s a = some t)
    (before : s.controller ≠ .left) (after : t.controller = .left) :
    s.controller = .counted 0 ∧ s.taskQueue.unfinishedTasks = 0 ∧
      t = { s with controller := .left } := by
  cases a with
  | startWorker w =>
    simp only [step] at taken
    split at taken
    · cases taken
      exact absurd after before
    · cases taken
  | startRetry =>
    simp only [step] at taken
    split at taken
    · cases taken
      exact absurd after before
    · cases taken
  | work w => exact absurd ((workerStep_controller taken).1.symm.trans after) before
  | retry => exact absurd ((retryStep_controller taken).symm.trans after) before
  | control =>
    simp only [step] at taken
    cases phase : s.controller with
    | counted pending =>
      simp only [controllerStep, phase] at taken
      split at taken
      · cases taken
        cases after
      · rename_i hzero
        cases taken
        obtain ⟨hunfinished, hpending⟩ := not_or.mp hzero
        rw [not_lt, Nat.le_zero] at hunfinished hpending
        exact ⟨by rw [hpending], hunfinished, rfl⟩
    | left => exact absurd phase before
    | starting =>
      simp only [controllerStep, phase] at taken
      split at taken
      · cases taken
        cases after
      · cases taken
    | looping =>
      simp only [controllerStep, phase] at taken
      split at taken
      · cases taken
      · cases taken
        cases after
    | promoting =>
      simp only [controllerStep, phase] at taken
      split at taken
      · cases taken
        cases after
      · cases taken
        cases after
    | _ =>
      simp only [controllerStep, phase] at taken
      cases taken
      cases after

/-- When the controller leaves, what is still in play is what is being handed off. -/
theorem inPlay_of_leave {a : Action W} (h : Counted s) (taken : step batch s a = some t)
    (before : s.controller ≠ .left) (after : t.controller = .left) :
    t.inPlay = s.retryQueue.items + s.retry.held := by
  obtain ⟨-, hunfinished, rfl⟩ := leave_cases taken before after
  have hcount := h.unfinished
  rw [hunfinished] at hcount
  have hempty : s.taskQueue.items = [] := List.length_eq_zero_iff.mp (by omega)
  have howed : load WorkerPhase.owed s.worker = 0 := by omega
  have hheld : load WorkerPhase.held s.worker = 0 :=
    load_eq_zero.mpr fun w => held_eq_zero_of_owed (load_eq_zero.mp howed w)
  simp only [State.inPlay, hempty, hheld, ControllerPhase.held, Multiset.coe_nil, zero_add,
    add_zero]

/-- Every chapter is settled, and none is in a queue or in the hands of a thread. -/
def AllSettled (batch : Batch) (s : State W) : Prop :=
  (∀ i ∈ batch.chapters, Settled batch s i) ∧ s.inPlay = 0

theorem Accounted.allSettled (h : Accounted batch s) (empty : s.inPlay = 0) :
    AllSettled batch s := by
  obtain ⟨settled, hsplit, hsettled⟩ := h
  rw [empty, zero_add] at hsplit
  exact ⟨fun i hi => hsettled i (by rw [hsplit]; exact hi), empty⟩

/-- No worker begins to hand a chapter off while the controller, having read no pending retry,
has yet to read the unfinished tasks. -/
def NoHandOffBetweenReads (s : State W) : Action W → Prop
  | .work w => ∀ i, s.worker w = .enlisting i → s.controller ≠ .counted 0
  | _ => True

/-- Between its two reads the controller that has read no pending retry is right. -/
def ReadsAgree (s : State W) : Prop :=
  s.controller = .counted 0 → HandOffClosed s ∧ load WorkerPhase.announced s.worker = 0

theorem workerStep_silent {w : W} (taken : workerStep batch s w = some t)
    (enlisting : ∀ i, s.worker w ≠ .enlisting i) (putting : ∀ i, s.worker w ≠ .putting i) :
    t.retryQueue = s.retryQueue ∧
      load WorkerPhase.announced t.worker = load WorkerPhase.announced s.worker := by
  cases phase : s.worker w with
  | unstarted => simp [workerStep, phase] at taken
  | enlisting i => exact absurd phase (enlisting i)
  | putting i => exact absurd phase (putting i)
  | getting | retrying i =>
    simp only [workerStep, phase] at taken
    split at taken
    · cases taken
    · cases taken
      exact ⟨rfl, load_update_of_eq (by rw [phase]; rfl)⟩
  | deciding i =>
    simp only [workerStep, phase] at taken
    split at taken
    all_goals
      cases taken
      exact ⟨rfl, load_update_of_eq (by rw [phase]; rfl)⟩
  | processing i | unlocking | finishing =>
    simp only [workerStep, phase] at taken
    cases taken
    exact ⟨rfl, load_update_of_eq (by rw [phase]; rfl)⟩

theorem ReadsAgree.work {w : W} (h : ReadsAgree s) (allowed : NoHandOffBetweenReads s (.work w))
    (taken : workerStep batch s w = some t) : ReadsAgree t := by
  intro hcontroller
  obtain ⟨hsame, hretry⟩ := workerStep_controller taken
  rw [hsame] at hcontroller
  obtain ⟨⟨hempty, hheld⟩, hannounced⟩ := h hcontroller
  have hputting : ∀ i, s.worker w ≠ .putting i := by
    intro i hphase
    have hzero := load_eq_zero.mp hannounced w
    rw [hphase] at hzero
    cases hzero
  obtain ⟨hqueue, hload⟩ := workerStep_silent taken
    (fun i hphase => allowed i hphase hcontroller) hputting
  exact ⟨⟨by rw [hqueue]; exact hempty, by rw [hretry]; exact hheld⟩, hload.trans hannounced⟩

theorem ReadsAgree.retry (h : ReadsAgree s) (taken : retryStep s = some t) : ReadsAgree t := by
  intro hcontroller
  rw [retryStep_controller taken] at hcontroller
  obtain ⟨⟨hempty, hheld⟩, hannounced⟩ := h hcontroller
  cases phase : s.retry with
  | unstarted => simp [retryStep, phase] at taken
  | getting => simp [retryStep, phase, PriorityQueue.get, hempty] at taken
  | holding i | locked i =>
    rw [phase] at hheld
    exact absurd hheld (Multiset.singleton_ne_zero i)
  | releasing | unlocking | marking | sleeping =>
    simp only [retryStep, phase] at taken
    cases taken
    exact ⟨⟨hempty, rfl⟩, hannounced⟩

theorem ReadsAgree.control (counted : Counted s) (taken : controllerStep s = some t) :
    ReadsAgree t := by
  intro hcontroller
  cases phase : s.controller with
  | checking =>
    simp only [controllerStep, phase] at taken
    cases taken
    have hpending := counted.pending
    rw [ControllerPhase.counted.inj hcontroller] at hpending
    have hqueue : s.retryQueue.items = [] := List.length_eq_zero_iff.mp (by omega)
    have hretry : s.retry.announced = 0 := by omega
    refine ⟨⟨hqueue, ?_⟩, ?_⟩
    · cases hphase : s.retry with
      | holding i | locked i => simp [hphase, RetryPhase.announced] at hretry
      | _ => rfl
    · show load WorkerPhase.announced s.worker = 0
      omega
  | left => simp [controllerStep, phase] at taken
  | starting | looping | promoting | counted pending =>
    simp only [controllerStep, phase] at taken
    split at taken
    all_goals
      cases taken
      try cases hcontroller
  | _ =>
    simp only [controllerStep, phase] at taken
    cases taken
    cases hcontroller

theorem ReadsAgree.preserved {a : Action W} (counted : Counted s) (h : ReadsAgree s)
    (allowed : NoHandOffBetweenReads s a) (taken : step batch s a = some t) : ReadsAgree t := by
  cases a with
  | startWorker w =>
    simp only [step] at taken
    split at taken
    · rename_i hstart
      cases taken
      intro hcontroller
      exact absurd (hstart.1.symm.trans hcontroller) (by simp)
    · cases taken
  | startRetry =>
    simp only [step] at taken
    split at taken
    · rename_i hstart
      cases taken
      intro hcontroller
      exact absurd (hstart.1.symm.trans hcontroller) (by simp)
    · cases taken
  | work w => exact h.work allowed taken
  | retry => exact h.retry taken
  | control => exact .control counted taken

theorem ReadsAgree.of_reachable (h : (machine W batch).Reachable NoHandOffBetweenReads s) :
    ReadsAgree s :=
  h.invariant_under (fun _ hs => Counted.of_reachable hs)
    (fun s hs hcontroller => by
      obtain ⟨-, -, -, -, -, -, -, -, -, -, hstarting⟩ := hs
      exact absurd (hstarting.symm.trans hcontroller) (by simp))
    fun _ _ _ hcounted hs allowed taken => hs.preserved hcounted allowed taken

theorem inPlay_stays_empty {a : Action W} (taken : step batch s a = some t)
    (empty : s.inPlay = 0) : t.inPlay = 0 := by
  cases step_effect taken with
  | moved same _ _ => rw [same, empty]
  | settled i rest _ _ _ =>
    rw [empty] at rest
    exact absurd rest (Multiset.zero_ne_cons)

theorem left_empty (h : (machine W batch).Reachable NoHandOffBetweenReads s) :
    s.controller = .left → s.inPlay = 0 := by
  refine h.invariant_under (I := fun s => s.controller = .left → s.inPlay = 0)
    (fun _ hs => And.intro (Counted.of_reachable hs) (ReadsAgree.of_reachable hs)) ?_ ?_
  · intro s hs hleft
    obtain ⟨-, -, -, -, -, -, -, -, -, -, hstarting⟩ := hs
    exact absurd (hstarting.symm.trans hleft) (by simp)
  · intro s a t hs ih allowed taken hleft
    by_cases hbefore : s.controller = .left
    · exact inPlay_stays_empty taken (ih hbefore)
    · obtain ⟨hcounted, -, -⟩ := leave_cases taken hbefore hleft
      obtain ⟨⟨hqueue, hheld⟩, -⟩ := hs.2 hcounted
      rw [inPlay_of_leave hs.1 taken hbefore hleft, hqueue, hheld]
      rfl

/-- In any run, the controller leaves its loop with every chapter settled exactly when none is on
its way from a worker back to the task queue; in a run where no worker begins to hand a chapter
off between the two reads it always does. -/
theorem leaves_all_settled_iff (batch : Batch) :
    (∀ (s t : State W) a, (machine W batch).Reachable Machine.free s →
      step batch s a = some t → s.controller ≠ .left → t.controller = .left →
        (AllSettled batch t ↔ HandOffClosed s)) ∧
    (∀ s : State W, (machine W batch).Reachable NoHandOffBetweenReads s →
      s.controller = .left → AllSettled batch s) := by
  refine ⟨fun s t a h taken before after => ?_, fun s h hleft => ?_⟩
  · have hplay := inPlay_of_leave (Counted.of_reachable h) taken before after
    constructor
    · rintro ⟨-, hempty⟩
      rw [hempty] at hplay
      obtain ⟨hqueue, hheld⟩ := add_eq_zero.mp hplay.symm
      exact ⟨Multiset.coe_eq_zero _ |>.mp hqueue, hheld⟩
    · rintro ⟨hqueue, hheld⟩
      rw [hqueue, hheld] at hplay
      exact (Accounted.of_reachable (h.tail trivial taken)).allSettled hplay
  · exact (Accounted.of_reachable h).allSettled (left_empty h hleft)

/-- One chapter whose first attempt fails. -/
def oneChapter : Batch := ⟨[1], by decide, "retry", fun _ n => if n = 1 then .error else .success⟩

def newRun : State Unit where
  taskQueue := oneChapter.chapters.foldl PriorityQueue.put ⟨[], 0⟩
  retryQueue := ⟨[], 0⟩
  pendingRetries := 0
  drainLock := false
  task _ := {}
  attempts _ := 0
  failedTasks := []
  failureReports := []
  worker _ := .unstarted
  retry := .unstarted
  controller := .starting

/-- The whole hand-off, with its `task_done`, falls between the two reads. -/
def handOffBetweenReads : List (Action Unit) :=
  [.startWorker (), .startRetry, .control, .work (), .work (), .work (), .control, .control,
    .control, .control, .work (), .work (), .work (), .work (), .work (), .control]

theorem chapter_lost :
    (machine Unit oneChapter).start newRun ∧
    ∃ t, (machine Unit oneChapter).exec newRun handOffBetweenReads = some t ∧
      t.controller = .left ∧ t.retryQueue.items = [1] ∧ ¬ Settled oneChapter t 1 := by
  refine ⟨⟨rfl, rfl, rfl, rfl, fun _ => rfl, fun _ => rfl, rfl, rfl, fun _ => rfl, rfl, rfl⟩,
    _, rfl, rfl, rfl, ?_⟩
  rintro (h | ⟨h, -⟩ | h)
  · cases h
  · cases h
  · cases h

end UniversityHelper.JobProcessor
