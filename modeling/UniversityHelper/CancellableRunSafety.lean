import UniversityHelper.CancellableRun
import UniversityHelper.JobProcessorSafety

/-! What the threads of a run that may be stopped keep: the lock has one holder, the counters count, and
every chapter is in play, settled, or put aside because the run stops. -/
namespace UniversityHelper.CancellableRun
open JobProcessor (Attempt Batch ChapterTask PriorityQueue afterAttempt afterAttempt_settle processTask)
set_option linter.unusedSectionVars false

/-- The chapter in a thread's hands. -/
def WorkerPhase.held : WorkerPhase → Multiset ℕ
  | .gotten i => {i}
  | .processing i => {i}
  | .processed i _ => {i}
  | .deciding i => {i}
  | .retrying i => {i}
  | .enlisting i => {i}
  | .announcing i => {i}
  | .putting i => {i}
  | _ => 0

def RetryPhase.held : RetryPhase → Multiset ℕ
  | .looking i => {i}
  | .asking i => {i}
  | .holding i _ => {i}
  | .locked i _ => {i}
  | .putting i => {i}
  | _ => 0

def ControllerPhase.held : ControllerPhase → Multiset ℕ
  | .promoted i => {i}
  | .putting i => {i}
  | _ => 0

def Local.held : Local → Multiset ℕ
  | .worker phase => phase.held
  | .retry phase => phase.held
  | .controller phase => phase.held
  | .wanting next => next.held
  | .draining _ next => next.held
  | .drained next => next.held
  | _ => 0

/-- Whether a thread holds the drain lock. -/
def WorkerPhase.locks : WorkerPhase → ℕ
  | .enlisting _ => 1
  | .announcing _ => 1
  | .putting _ => 1
  | .unlocking => 1
  | _ => 0

def RetryPhase.locks : RetryPhase → ℕ
  | .locked _ _ => 1
  | .putting _ => 1
  | .releasing => 1
  | .unlocking => 1
  | .abandoning => 1
  | _ => 0

def ControllerPhase.locks : ControllerPhase → ℕ
  | .promoting => 1
  | .promoted _ => 1
  | .putting _ => 1
  | .marking => 1
  | .releasing => 1
  | .unlocking => 1
  | _ => 0

def Local.locks : Local → ℕ
  | .worker phase => phase.locks
  | .retry phase => phase.locks
  | .controller phase => phase.locks
  | .wanting next => next.locks
  | .draining _ next => next.locks + 1
  | .drained next => next.locks + 1
  | _ => 0

/-- The `task_done` calls of the task queue that a thread still owes. -/
def WorkerPhase.owed : WorkerPhase → ℕ
  | .getting => 0
  | _ => 1

def DrainPhase.owed : DrainPhase → ℕ
  | .tasksDone => 1
  | _ => 0

def Local.owed : Local → ℕ
  | .worker phase => phase.owed
  | .wanting next => next.owed
  | .draining phase next => next.owed + phase.owed
  | .drained next => next.owed
  | _ => 0

/-- The chapters that are counted in `_pending_retries` and not in the retry queue. -/
def WorkerPhase.announced : WorkerPhase → ℕ
  | .putting _ => 1
  | _ => 0

def RetryPhase.announced : RetryPhase → ℕ
  | .looking _ => 1
  | .asking _ => 1
  | .holding _ _ => 1
  | .locked _ _ => 1
  | .putting _ => 1
  | .releasing => 1
  | .abandoning => 1
  | _ => 0

def ControllerPhase.announced : ControllerPhase → ℕ
  | .promoted _ => 1
  | .putting _ => 1
  | .marking => 1
  | .releasing => 1
  | _ => 0

def DrainPhase.announced : DrainPhase → ℕ
  | .retriesDone => 1
  | .retriesRelease => 1
  | _ => 0

def Local.announced : Local → ℕ
  | .worker phase => phase.announced
  | .retry phase => phase.announced
  | .controller phase => phase.announced
  | .wanting next => next.announced
  | .draining phase next => next.announced + phase.announced
  | .drained next => next.announced
  | _ => 0

variable {batch : Batch} {started joined : Bool} {s t : Shared} {outcome : Option Attempt} {l m : Local}

/-! ### One step of a thread -/

/-- What a step of a thread that goes from `l` to `m` leaves balanced. -/
structure Balanced (s t : Shared) (l m : Local) : Prop where
  lock : t.drainLock.toNat + l.locks = s.drainLock.toNat + m.locks
  unfinished : t.taskQueue.unfinishedTasks + s.taskQueue.items.length + l.owed =
    s.taskQueue.unfinishedTasks + t.taskQueue.items.length + m.owed
  pending : t.pendingRetries + s.retryQueue.items.length + l.announced =
    s.pendingRetries + t.retryQueue.items.length + m.announced

/-- What the other threads leave it. -/
structure Covered (s : Shared) (l : Local) : Prop where
  lock : l.locks ≤ s.drainLock.toNat
  unfinished : l.owed ≤ s.taskQueue.unfinishedTasks
  pending : l.announced ≤ s.pendingRetries

theorem length_of_get {q q' : PriorityQueue} {i : ℕ} (h : q.get = some (i, q')) :
    q.items.length = q'.items.length + 1 ∧ q'.unfinishedTasks = q.unfinishedTasks := by
  obtain ⟨hitems, hunfinished⟩ := JobProcessor.PriorityQueue.get_eq_some h
  exact ⟨by rw [hitems, List.length_cons], hunfinished⟩

theorem drainLock_of_locks (covered : Covered s l) (locks : l.locks = 1) : s.drainLock = true := by
  have hlock := covered.lock
  rw [locks] at hlock
  cases hd : s.drainLock with
  | false => simp [hd] at hlock
  | true => rfl

theorem drain_balanced {phase : DrainPhase} {next : Local} (covered : Covered s (.draining phase next)) :
    Balanced s (drainStep s next phase).1 (.draining phase next) (drainStep s next phase).2 := by
  obtain ⟨-, hunfinished, hpending⟩ := covered
  cases phase with
  | tasks =>
    simp only [drainStep]
    split
    · exact ⟨rfl, by simp [Local.owed, DrainPhase.owed], by simp [Local.announced, DrainPhase.announced]⟩
    · rename_i i taskQueue hget
      obtain ⟨hlength, hsame⟩ := length_of_get hget
      refine ⟨rfl, ?_, rfl⟩
      simp only [Local.owed, DrainPhase.owed, hlength, hsame]
      omega
  | tasksDone =>
    refine ⟨rfl, ?_, rfl⟩
    simp only [Local.owed, DrainPhase.owed, drainStep, PriorityQueue.taskDone] at hunfinished ⊢
    omega
  | retries =>
    simp only [drainStep]
    split
    · exact ⟨rfl, by simp [Local.owed, DrainPhase.owed], by simp [Local.announced, DrainPhase.announced]⟩
    · rename_i i retryQueue hget
      obtain ⟨hlength, -⟩ := length_of_get hget
      refine ⟨rfl, rfl, ?_⟩
      simp only [Local.announced, DrainPhase.announced, hlength]
      omega
  | retriesDone => exact ⟨rfl, rfl, rfl⟩
  | retriesRelease =>
    refine ⟨rfl, rfl, ?_⟩
    simp only [Local.announced, DrainPhase.announced, drainStep] at hpending ⊢
    omega

theorem worker_balanced {phase : WorkerPhase} (covered : Covered s (.worker phase))
    (taken : workerStep batch s outcome phase = some (t, m)) : Balanced s t (.worker phase) m := by
  have hunfinished := covered.unfinished
  cases phase with
  | getting =>
    simp only [workerStep] at taken
    split at taken
    · cases taken
      split_ifs
      · exact ⟨rfl, rfl, rfl⟩
      · exact ⟨rfl, rfl, rfl⟩
    · rename_i i taskQueue hget
      cases taken
      obtain ⟨hlength, hsame⟩ := length_of_get hget
      refine ⟨rfl, ?_, rfl⟩
      simp only [Local.owed, WorkerPhase.owed, hlength, hsame]
      omega
  | gotten i | processed i cancelled =>
    simp only [workerStep, Option.some_inj, Prod.mk.injEq] at taken
    obtain ⟨rfl, rfl⟩ := taken
    split_ifs <;> exact ⟨rfl, rfl, rfl⟩
  | processing i =>
    simp only [workerStep] at taken
    split at taken
    · cases taken
      exact ⟨rfl, rfl, rfl⟩
    · split_ifs at taken
      cases taken
      exact ⟨rfl, rfl, rfl⟩
  | deciding i =>
    simp only [workerStep] at taken
    split at taken <;> (cases taken; exact ⟨rfl, rfl, rfl⟩)
  | retrying i =>
    simp only [workerStep] at taken
    split_ifs at taken with hfree
    cases taken
    have hfree : s.drainLock = false := by simpa using hfree
    exact ⟨by simp [Local.locks, WorkerPhase.locks, hfree], rfl, rfl⟩
  | enlisting i =>
    simp only [workerStep, Option.some_inj, Prod.mk.injEq] at taken
    obtain ⟨rfl, rfl⟩ := taken
    split_ifs <;> exact ⟨rfl, rfl, rfl⟩
  | announcing i =>
    cases taken
    refine ⟨rfl, rfl, ?_⟩
    simp only [Local.announced, WorkerPhase.announced]
    omega
  | putting i =>
    cases taken
    refine ⟨rfl, rfl, ?_⟩
    simp only [Local.announced, WorkerPhase.announced, JobProcessor.PriorityQueue.length_put]
    omega
  | unlocking =>
    cases taken
    exact ⟨by simp [Local.locks, WorkerPhase.locks, drainLock_of_locks covered rfl], rfl, rfl⟩
  | finishing last =>
    simp only [workerStep, Option.some_inj, Prod.mk.injEq] at taken
    obtain ⟨rfl, rfl⟩ := taken
    simp only [Local.owed, WorkerPhase.owed] at hunfinished
    cases last with
    | false =>
      refine ⟨rfl, ?_, rfl⟩
      simp only [Bool.false_eq_true, if_false, Local.owed, WorkerPhase.owed, PriorityQueue.taskDone]
      omega
    | true =>
      refine ⟨rfl, ?_, rfl⟩
      simp only [if_true, Local.owed, WorkerPhase.owed, PriorityQueue.taskDone]
      omega

theorem retry_balanced {phase : RetryPhase} (covered : Covered s (.retry phase))
    (taken : retryStep s phase = some (t, m)) : Balanced s t (.retry phase) m := by
  have hpending := covered.pending
  cases phase with
  | checking | doubting | looking i | sleeping =>
    simp only [retryStep, Option.some_inj, Prod.mk.injEq] at taken
    obtain ⟨rfl, rfl⟩ := taken
    split_ifs <;> exact ⟨rfl, rfl, rfl⟩
  | asking i =>
    cases taken
    exact ⟨rfl, rfl, rfl⟩
  | getting =>
    simp only [retryStep] at taken
    split at taken
    · cases taken
      exact ⟨rfl, rfl, rfl⟩
    · rename_i i retryQueue hget
      cases taken
      obtain ⟨hlength, -⟩ := length_of_get hget
      refine ⟨rfl, rfl, ?_⟩
      simp only [Local.announced, RetryPhase.announced, hlength]
      omega
  | holding i stopping =>
    simp only [retryStep] at taken
    split_ifs at taken with hfree
    cases taken
    have hfree : s.drainLock = false := by simpa using hfree
    exact ⟨by simp [Local.locks, RetryPhase.locks, hfree], rfl, rfl⟩
  | locked i stopping =>
    simp only [retryStep, Option.some_inj, Prod.mk.injEq] at taken
    obtain ⟨rfl, rfl⟩ := taken
    split_ifs <;> exact ⟨rfl, rfl, rfl⟩
  | putting i =>
    cases taken
    refine ⟨rfl, ?_, rfl⟩
    simp only [Local.owed, JobProcessor.PriorityQueue.length_put,
      JobProcessor.PriorityQueue.unfinishedTasks_put]
    omega
  | releasing =>
    cases taken
    refine ⟨rfl, rfl, ?_⟩
    simp only [Local.announced, RetryPhase.announced] at hpending ⊢
    omega
  | unlocking =>
    cases taken
    exact ⟨by simp [Local.locks, RetryPhase.locks, drainLock_of_locks covered rfl], rfl, rfl⟩
  | abandoning =>
    cases taken
    refine ⟨rfl, rfl, ?_⟩
    simp only [Local.announced, RetryPhase.announced, DrainPhase.announced] at hpending ⊢
    omega
  | marking last =>
    simp only [retryStep, Option.some_inj, Prod.mk.injEq] at taken
    obtain ⟨rfl, rfl⟩ := taken
    cases last <;> exact ⟨rfl, rfl, rfl⟩

theorem controller_balanced {phase : ControllerPhase} (covered : Covered s (.controller phase))
    (taken : controllerStep started joined s phase = some (t, m)) :
    Balanced s t (.controller phase) m := by
  have hpending := covered.pending
  cases phase with
  | starting | joining =>
    simp only [controllerStep] at taken
    split_ifs at taken
    cases taken
    exact ⟨rfl, rfl, rfl⟩
  | looping =>
    simp only [controllerStep] at taken
    split_ifs at taken with hfree
    cases taken
    have hfree : s.drainLock = false := by simpa using hfree
    exact ⟨by simp [Local.locks, ControllerPhase.locks, hfree], rfl, rfl⟩
  | promoting =>
    simp only [controllerStep] at taken
    split at taken
    · cases taken
      exact ⟨rfl, rfl, rfl⟩
    · rename_i i retryQueue hget
      cases taken
      obtain ⟨hlength, -⟩ := length_of_get hget
      refine ⟨rfl, rfl, ?_⟩
      simp only [Local.announced, ControllerPhase.announced, hlength]
      omega
  | promoted | asking | counted =>
    simp only [controllerStep, Option.some_inj, Prod.mk.injEq] at taken
    obtain ⟨rfl, rfl⟩ := taken
    split_ifs <;> exact ⟨rfl, rfl, rfl⟩
  | putting i =>
    cases taken
    refine ⟨rfl, ?_, rfl⟩
    simp only [Local.owed, JobProcessor.PriorityQueue.length_put,
      JobProcessor.PriorityQueue.unfinishedTasks_put]
    omega
  | marking | checking | resting | stopping =>
    cases taken
    exact ⟨rfl, rfl, rfl⟩
  | releasing =>
    cases taken
    refine ⟨rfl, rfl, ?_⟩
    simp only [Local.announced, ControllerPhase.announced] at hpending ⊢
    omega
  | unlocking =>
    cases taken
    exact ⟨by simp [Local.locks, ControllerPhase.locks, drainLock_of_locks covered rfl], rfl, rfl⟩
  | returned => cases taken

theorem thread_balanced (covered : Covered s l)
    (taken : threadStep batch started joined s outcome l = some (t, m)) : Balanced s t l m := by
  cases l with
  | unstarted | ended => cases taken
  | worker phase => exact worker_balanced covered taken
  | retry phase => exact retry_balanced covered taken
  | controller phase => exact controller_balanced covered taken
  | wanting next =>
    simp only [threadStep] at taken
    split_ifs at taken with hfree
    cases taken
    have hfree : s.drainLock = false := by simpa using hfree
    refine ⟨?_, rfl, rfl⟩
    simp only [Local.locks, hfree]
    simp [Nat.add_comm]
  | draining phase next =>
    have hbalanced := drain_balanced covered
    simp only [threadStep, Option.some_inj] at taken
    rw [taken] at hbalanced
    exact hbalanced
  | drained next =>
    cases taken
    have hlock := covered.lock
    have hle : s.drainLock.toNat ≤ 1 := Bool.toNat_le _
    simp only [Local.locks] at hlock
    refine ⟨?_, rfl, rfl⟩
    simp only [Local.locks, Bool.toNat_false]
    omega

/-! ### The lock and the counters -/

section Run
variable {W : Type*} [DecidableEq W] [Fintype W] {σ τ : State W} {a : Action W}
  {ok : State W → Action W → Prop}

/-- The lock has one holder, and the counters count what is under way. -/
structure Counted (σ : State W) : Prop where
  lock : σ.shared.drainLock.toNat = load Local.locks σ.locals
  unfinished : σ.shared.taskQueue.unfinishedTasks =
    σ.shared.taskQueue.items.length + load Local.owed σ.locals
  pending : σ.shared.pendingRetries =
    σ.shared.retryQueue.items.length + load Local.announced σ.locals

theorem Counted.covered (h : Counted σ) (x : Thread W) : Covered σ.shared (σ.locals x) where
  lock := h.lock ▸ weight_le_load Local.locks σ.locals x
  unfinished := by
    have hle := weight_le_load Local.owed σ.locals x
    have hcount := h.unfinished
    omega
  pending := by
    have hle := weight_le_load Local.announced σ.locals x
    have hcount := h.pending
    omega

theorem Counted.run {x : Thread W} (h : Counted σ)
    (taken : threadStep batch started joined σ.shared outcome (σ.locals x) = some (t, m)) :
    Counted ⟨t, Function.update σ.locals x m⟩ := by
  obtain ⟨hlock, hunfinished, hpending⟩ := thread_balanced (h.covered x) taken
  have hlocks := load_update Local.locks σ.locals x m
  have howed := load_update Local.owed σ.locals x m
  have hannounced := load_update Local.announced σ.locals x m
  obtain ⟨hslock, hsunfinished, hspending⟩ := h
  refine ⟨?_, ?_, ?_⟩ <;> dsimp only <;> omega

theorem step_run (taken : step batch σ a = some τ) :
    (∃ x, a = .start x ∧ σ.locals .controller = .controller .starting ∧ σ.locals x = .unstarted ∧
      τ = { σ with locals := Function.update σ.locals x x.first }) ∨
    (∃ x outcome t m, a = .run x outcome ∧
      threadStep batch σ.started σ.joined σ.shared outcome (σ.locals x) = some (t, m) ∧
      τ = ⟨t, Function.update σ.locals x m⟩) ∨
    a = .requestStop ∧ τ = { σ with shared := { σ.shared with stopRequested := true } } := by
  cases a with
  | start x =>
    simp only [step] at taken
    split at taken
    · rename_i hcontroller hlocal
      exact .inl ⟨x, rfl, hcontroller, hlocal, (Option.some_inj.mp taken).symm⟩
    · cases taken
  | run x outcome =>
    obtain ⟨⟨t, m⟩, hthread, rfl⟩ := Option.map_eq_some_iff.mp taken
    exact .inr (.inl ⟨x, outcome, t, m, rfl, hthread, rfl⟩)
  | requestStop => exact .inr (.inr ⟨rfl, (Option.some_inj.mp taken).symm⟩)

/-- A thread that starts holds nothing and owes nothing. -/
theorem first_free (x : Thread W) : x.first.held = 0 ∧ x.first.locks = 0 ∧ x.first.owed = 0 ∧
    x.first.announced = 0 := by
  cases x <;> exact ⟨rfl, rfl, rfl, rfl⟩

theorem Counted.preserved (h : Counted σ) (taken : step batch σ a = some τ) : Counted τ := by
  obtain ⟨x, -, -, hlocal, rfl⟩ | ⟨x, outcome, t, m, -, hthread, rfl⟩ | ⟨-, rfl⟩ := step_run taken
  · obtain ⟨-, hlocks, howed, hannounced⟩ := first_free x
    refine ⟨?_, ?_, ?_⟩
    · rw [load_update_of_eq (by rw [hlocal, hlocks]; rfl)]
      exact h.lock
    · rw [load_update_of_eq (by rw [hlocal, howed]; rfl)]
      exact h.unfinished
    · rw [load_update_of_eq (by rw [hlocal, hannounced]; rfl)]
      exact h.pending
  · exact h.run hthread
  · exact ⟨h.lock, h.unfinished, h.pending⟩

theorem start_zero {M : Type*} [AddCommMonoid M] {weight : Local → M} (h : (machine W batch).start σ)
    (starting : weight (.controller .starting) = 0) (unstarted : weight .unstarted = 0) :
    load weight σ.locals = 0 := by
  obtain ⟨-, hcontroller, hothers⟩ := h
  refine Finset.sum_eq_zero fun x _ => ?_
  by_cases hx : x = .controller
  · rw [hx, hcontroller, starting]
  · rw [hothers x hx, unstarted]

theorem counted_start (h : (machine W batch).start σ) : Counted σ := by
  obtain ⟨stopRequested, hshared⟩ := h.1
  obtain ⟨hitems, hunfinished⟩ := JobProcessor.coe_foldl_put batch.chapters ⟨[], 0⟩
  have hlength := congrArg Multiset.card hitems
  refine ⟨?_, ?_, ?_⟩
  · rw [start_zero h rfl rfl, hshared]
    rfl
  · rw [start_zero h rfl rfl, hshared]
    simpa [newShared, hunfinished] using hlength.symm
  · rw [start_zero h rfl rfl, hshared]
    rfl

theorem Counted.of_reachable (h : (machine W batch).Reachable ok σ) : Counted σ :=
  h.invariant (fun _ => counted_start) fun _ _ _ hs _ taken => hs.preserved taken

/-! ### The chapters -/

def Shared.queued (s : Shared) : Multiset ℕ := s.taskQueue.items + s.retryQueue.items

def Settled (batch : Batch) (s : Shared) (i : ℕ) : Prop :=
  (s.task i).result = .success ∨
    (s.task i).result = .notOpen ∧ batch.notopenAction = "continue" ∨ i ∈ s.failedTasks

/-- The run stops, or a stop has been requested. -/
def Shared.Stops (s : Shared) : Prop := s.runStop = true ∨ s.stopRequested = true

/-- A step of a thread moves chapters about, settles the one in its hands, or puts one aside. -/
inductive Effect (batch : Batch) (s t : Shared) (l m : Local) : Prop
  | moved (same : t.queued + m.held = s.queued + l.held)
      (task : ∀ i, i ∉ s.queued + l.held → t.task i = s.task i) (failed : t.failedTasks = s.failedTasks)
  | settled (i : ℕ) (rest : s.queued + l.held = i ::ₘ (t.queued + m.held))
      (task : ∀ j, j ≠ i → t.task j = s.task j) (failed : ∀ j ∈ s.failedTasks, j ∈ t.failedTasks)
      (done : Settled batch t i)
  | dropped (i : ℕ) (rest : s.queued + l.held = i ::ₘ (t.queued + m.held)) (task : t.task = s.task)
      (failed : t.failedTasks = s.failedTasks) (stops : s.Stops)

/-- What a thread has found out before it puts chapters aside. -/
def Justified (s : Shared) : Local → Prop
  | .worker (.processed _ cancelled) => cancelled = true → s.Stops
  | .retry (.holding _ stopping) => stopping = true → s.Stops
  | .retry (.locked _ stopping) => stopping = true → s.Stops
  | .retry .abandoning => s.Stops
  | .controller .joining => s.Stops
  | .wanting next => s.Stops ∧ Justified s next
  | .draining _ next => s.Stops ∧ Justified s next
  | .drained next => Justified s next
  | _ => True

theorem queued_of_task {taskQueue : PriorityQueue} {i : ℕ} (h : s.taskQueue.get = some (i, taskQueue)) :
    s.queued = i ::ₘ ({ s with taskQueue := taskQueue } : Shared).queued := by
  obtain ⟨hitems, -⟩ := JobProcessor.PriorityQueue.get_eq_some h
  rw [Shared.queued, Shared.queued, hitems, ← Multiset.cons_coe, Multiset.cons_add]

theorem queued_of_retry {retryQueue : PriorityQueue} {i : ℕ} (h : s.retryQueue.get = some (i, retryQueue)) :
    s.queued = i ::ₘ ({ s with retryQueue := retryQueue } : Shared).queued := by
  obtain ⟨hitems, -⟩ := JobProcessor.PriorityQueue.get_eq_some h
  rw [Shared.queued, Shared.queued, hitems, ← Multiset.cons_coe, Multiset.add_cons]

theorem queued_putTask (s : Shared) (i : ℕ) :
    ({ s with taskQueue := s.taskQueue.put i } : Shared).queued = i ::ₘ s.queued := by
  rw [Shared.queued, Shared.queued, JobProcessor.PriorityQueue.coe_put, add_assoc, Multiset.singleton_add]

theorem queued_putRetry (s : Shared) (i : ℕ) :
    ({ s with retryQueue := s.retryQueue.put i } : Shared).queued = i ::ₘ s.queued := by
  rw [Shared.queued, Shared.queued, JobProcessor.PriorityQueue.coe_put, Multiset.singleton_add,
    Multiset.add_cons]

/-- A thread that keeps what it holds while the queues stay as they are. -/
theorem Effect.kept (queued : t.queued = s.queued) (held : m.held = l.held) (task : t.task = s.task)
    (failed : t.failedTasks = s.failedTasks) : Effect batch s t l m :=
  .moved (by rw [queued, held]) (fun _ _ => by rw [task]) failed

theorem drain_effect (batch : Batch) (phase : DrainPhase) (next : Local) (justified : s.Stops) :
    Effect batch s (drainStep s next phase).1 (.draining phase next) (drainStep s next phase).2 := by
  cases phase with
  | tasks =>
    simp only [drainStep]
    split
    · exact .kept rfl rfl rfl rfl
    · rename_i i taskQueue hget
      refine .dropped i ?_ rfl rfl justified
      rw [queued_of_task hget, Multiset.cons_add]
      rfl
  | retries =>
    simp only [drainStep]
    split
    · exact .kept rfl rfl rfl rfl
    · rename_i i retryQueue hget
      refine .dropped i ?_ rfl rfl justified
      rw [queued_of_retry hget, Multiset.cons_add]
      rfl
  | tasksDone | retriesDone | retriesRelease => exact .kept rfl rfl rfl rfl

/-- A thread that puts aside the chapter in its hands. -/
theorem Effect.let_go {i : ℕ} (held : l.held = {i}) (free : m.held = 0) (stops : s.Stops) :
    Effect batch s s l m := by
  refine .dropped i ?_ rfl rfl stops
  rw [held, free, add_zero, ← Multiset.singleton_add, add_comm]

/-- A thread that gets a chapter, and one that puts it into a queue. -/
theorem Effect.got {i : ℕ} (queued : s.queued = i ::ₘ t.queued) (free : l.held = 0) (held : m.held = {i})
    (task : t.task = s.task) (failed : t.failedTasks = s.failedTasks) : Effect batch s t l m := by
  refine .moved ?_ (fun _ _ => by rw [task]) failed
  rw [queued, held, free, add_zero, ← Multiset.singleton_add, add_comm]

theorem Effect.put {i : ℕ} (queued : t.queued = i ::ₘ s.queued) (held : l.held = {i}) (free : m.held = 0)
    (task : t.task = s.task) (failed : t.failedTasks = s.failedTasks) : Effect batch s t l m := by
  refine .moved ?_ (fun _ _ => by rw [task]) failed
  rw [queued, held, free, add_zero, ← Multiset.singleton_add, add_comm]

theorem deciding_effect {i : ℕ} (taken : workerStep batch s outcome (.deciding i) = some (t, m)) :
    Effect batch s t (.worker (.deciding i)) m := by
  have hrest : s.queued + ({i} : Multiset ℕ) = i ::ₘ (s.queued + 0) := by
    rw [add_zero, ← Multiset.singleton_add, add_comm]
  simp only [workerStep] at taken
  split at taken
  · rename_i hdecision
    obtain ⟨hsame, hresult⟩ := afterAttempt_settle hdecision
    cases taken
    refine .settled i hrest (fun j hj => Function.update_of_ne hj _ _) (fun _ hj => hj) ?_
    simp only [Settled, Function.update_self, hsame]
    exact hresult.elim Or.inl fun h => Or.inr (Or.inl h)
  · cases taken
    exact .settled i hrest (fun j hj => Function.update_of_ne hj _ _)
      (fun j hj => List.mem_append_left _ hj) (Or.inr (Or.inr (by simp)))
  · cases taken
    refine .moved rfl (fun j hj => Function.update_of_ne ?_ _ _) rfl
    rintro rfl
    exact hj (Multiset.mem_add.mpr (.inr (Multiset.mem_singleton_self _)))

theorem worker_effect {phase : WorkerPhase} (justified : Justified s (.worker phase))
    (taken : workerStep batch s outcome phase = some (t, m)) : Effect batch s t (.worker phase) m := by
  cases phase with
  | getting =>
    simp only [workerStep] at taken
    split at taken
    · cases taken
      split_ifs <;> exact .kept rfl rfl rfl rfl
    · rename_i i taskQueue hget
      cases taken
      exact .got (queued_of_task hget) rfl rfl rfl rfl
  | gotten i =>
    cases taken
    split_ifs with hstop
    · exact .let_go rfl rfl (.inl hstop)
    · exact .kept rfl rfl rfl rfl
  | processing i =>
    have hupdate : ∀ record j, j ∉ s.queued + (Local.worker (.processing i)).held →
        Function.update s.task i record j = s.task j := by
      intro record j hj
      refine Function.update_of_ne ?_ _ _
      rintro rfl
      exact hj (Multiset.mem_add.mpr (.inr (Multiset.mem_singleton_self _)))
    simp only [workerStep] at taken
    split at taken
    · cases taken
      exact .moved rfl (hupdate _) rfl
    · split_ifs at taken
      cases taken
      exact .moved rfl (hupdate _) rfl
  | processed i cancelled =>
    cases taken
    split_ifs with hstop hcancelled
    · exact .let_go rfl rfl (.inl hstop)
    · exact .let_go rfl rfl (justified hcancelled)
    · exact .kept rfl rfl rfl rfl
  | deciding i => exact deciding_effect taken
  | retrying i =>
    simp only [workerStep] at taken
    split_ifs at taken
    cases taken
    exact .kept rfl rfl rfl rfl
  | enlisting i =>
    cases taken
    split_ifs with hstop
    · exact .let_go rfl rfl (.inl hstop)
    · exact .kept rfl rfl rfl rfl
  | putting i =>
    cases taken
    exact .put (queued_putRetry s i) rfl rfl rfl rfl
  | announcing i | unlocking =>
    cases taken
    exact .kept rfl rfl rfl rfl
  | finishing last =>
    cases taken
    cases last <;> exact .kept rfl rfl rfl rfl

theorem retry_effect {phase : RetryPhase} (justified : Justified s (.retry phase))
    (taken : retryStep s phase = some (t, m)) : Effect batch s t (.retry phase) m := by
  cases phase with
  | checking | doubting | looking i | sleeping =>
    cases taken
    split_ifs <;> exact .kept rfl rfl rfl rfl
  | getting =>
    simp only [retryStep] at taken
    split at taken
    · cases taken
      exact .kept rfl rfl rfl rfl
    · rename_i i retryQueue hget
      cases taken
      exact .got (queued_of_retry hget) rfl rfl rfl rfl
  | holding i stopping =>
    simp only [retryStep] at taken
    split_ifs at taken
    cases taken
    exact .kept rfl rfl rfl rfl
  | locked i stopping =>
    cases taken
    split_ifs with hstop
    · refine .let_go rfl rfl ?_
      rcases Bool.or_eq_true_iff.mp hstop with hstopping | hset
      · exact justified hstopping
      · exact .inl hset
    · exact .kept rfl rfl rfl rfl
  | putting i =>
    cases taken
    exact .put (queued_putTask s i) rfl rfl rfl rfl
  | asking | releasing | unlocking | abandoning =>
    cases taken
    exact .kept rfl rfl rfl rfl
  | marking last =>
    cases taken
    cases last <;> exact .kept rfl rfl rfl rfl

theorem controller_effect {phase : ControllerPhase}
    (taken : controllerStep started joined s phase = some (t, m)) :
    Effect batch s t (.controller phase) m := by
  cases phase with
  | starting | joining | looping =>
    simp only [controllerStep] at taken
    split_ifs at taken
    cases taken
    exact .kept rfl rfl rfl rfl
  | promoting =>
    simp only [controllerStep] at taken
    split at taken
    · cases taken
      exact .kept rfl rfl rfl rfl
    · rename_i i retryQueue hget
      cases taken
      exact .got (queued_of_retry hget) rfl rfl rfl rfl
  | promoted i =>
    cases taken
    split_ifs with hstop
    · exact .let_go rfl rfl (.inl hstop)
    · exact .kept rfl rfl rfl rfl
  | putting i =>
    cases taken
    exact .put (queued_putTask s i) rfl rfl rfl rfl
  | asking | counted pending =>
    cases taken
    split_ifs <;> exact .kept rfl rfl rfl rfl
  | marking | releasing | unlocking | checking | resting | stopping =>
    cases taken
    exact .kept rfl rfl rfl rfl
  | returned => cases taken

theorem thread_effect (justified : Justified s l)
    (taken : threadStep batch started joined s outcome l = some (t, m)) : Effect batch s t l m := by
  cases l with
  | unstarted | ended => cases taken
  | worker phase => exact worker_effect justified taken
  | retry phase => exact retry_effect justified taken
  | controller phase => exact controller_effect taken
  | wanting next =>
    simp only [threadStep] at taken
    split_ifs at taken
    cases taken
    exact .kept rfl rfl rfl rfl
  | draining phase next =>
    have heffect := drain_effect batch phase next justified.1
    simp only [threadStep, Option.some_inj] at taken
    rw [taken] at heffect
    exact heffect
  | drained next =>
    cases taken
    exact .kept rfl rfl rfl rfl

/-- The stop event is never cleared, and a thread requests no stop. -/
theorem thread_flags (taken : threadStep batch started joined s outcome l = some (t, m)) :
    (t.runStop = s.runStop ∨ t.runStop = true) ∧ t.stopRequested = s.stopRequested := by
  cases l with
  | unstarted | ended => cases taken
  | worker phase =>
    cases phase <;> simp only [threadStep, workerStep] at taken
    case gotten | processed | enlisting | announcing | putting | unlocking | finishing =>
      cases taken
      exact ⟨.inl rfl, rfl⟩
    case retrying =>
      split_ifs at taken
      cases taken
      exact ⟨.inl rfl, rfl⟩
    case getting | deciding =>
      split at taken <;> (cases taken; exact ⟨.inl rfl, rfl⟩)
    case processing =>
      split at taken
      · cases taken
        exact ⟨.inl rfl, rfl⟩
      · split_ifs at taken
        cases taken
        exact ⟨.inl rfl, rfl⟩
  | retry phase =>
    cases phase <;> simp only [threadStep, retryStep] at taken
    case getting =>
      split at taken <;> (cases taken; exact ⟨.inl rfl, rfl⟩)
    case holding =>
      split_ifs at taken
      cases taken
      exact ⟨.inl rfl, rfl⟩
    all_goals
      cases taken
      exact ⟨.inl rfl, rfl⟩
  | controller phase =>
    cases phase <;> simp only [threadStep, controllerStep] at taken
    case starting | joining | looping =>
      split_ifs at taken
      cases taken
      exact ⟨.inl rfl, rfl⟩
    case promoting =>
      split at taken <;> (cases taken; exact ⟨.inl rfl, rfl⟩)
    case stopping =>
      cases taken
      exact ⟨.inr rfl, rfl⟩
    case returned => cases taken
    all_goals
      cases taken
      exact ⟨.inl rfl, rfl⟩
  | wanting next =>
    simp only [threadStep] at taken
    split_ifs at taken
    cases taken
    exact ⟨.inl rfl, rfl⟩
  | draining phase next =>
    cases phase <;> simp only [threadStep, drainStep, Option.some_inj] at taken
    case tasks | retries =>
      split at taken <;> (cases taken; exact ⟨.inl rfl, rfl⟩)
    all_goals
      cases taken
      exact ⟨.inl rfl, rfl⟩
  | drained next =>
    cases taken
    exact ⟨.inl rfl, rfl⟩

theorem thread_stops (taken : threadStep batch started joined s outcome l = some (t, m)) (h : s.Stops) :
    t.Stops := by
  obtain ⟨hrun, hrequested⟩ := thread_flags taken
  rcases h with hset | hstop
  · rcases hrun with hsame | hset'
    · exact .inl (hsame.trans hset)
    · exact .inl hset'
  · exact .inr (hrequested.trans hstop)

theorem Justified.mono (h : Justified s l) (stops : s.Stops → t.Stops) : Justified t l := by
  induction l with
  | unstarted | ended => trivial
  | worker phase =>
    cases phase with
    | processed i cancelled => exact fun hcancelled => stops (h hcancelled)
    | _ => trivial
  | retry phase =>
    cases phase with
    | holding i stopping => exact fun hstopping => stops (h hstopping)
    | locked i stopping => exact fun hstopping => stops (h hstopping)
    | abandoning => exact stops h
    | _ => trivial
  | controller phase =>
    cases phase with
    | joining => exact stops h
    | _ => trivial
  | wanting next ih => exact ⟨stops h.1, ih h.2⟩
  | draining phase next ih => exact ⟨stops h.1, ih h.2⟩
  | drained next ih => exact ih h

theorem thread_justified (justified : Justified s l)
    (taken : threadStep batch started joined s outcome l = some (t, m)) : Justified t m := by
  have hmono := thread_stops taken
  cases l with
  | unstarted | ended => cases taken
  | worker phase =>
    cases phase <;> simp only [threadStep, workerStep] at taken
    case processing i =>
      split at taken
      · cases taken
        exact nofun
      · split_ifs at taken with hrequested
        cases taken
        exact fun _ => .inr hrequested
    case processed i cancelled =>
      cases taken
      split_ifs with hstop hcancelled
      · trivial
      · exact ⟨justified hcancelled, trivial⟩
      · trivial
    case getting | deciding =>
      split at taken <;> (cases taken; first | trivial | (split_ifs <;> trivial))
    case retrying =>
      split_ifs at taken
      cases taken
      trivial
    all_goals
      cases taken
      first | trivial | (split_ifs <;> trivial)
  | retry phase =>
    cases phase <;> simp only [threadStep, retryStep] at taken
    case doubting =>
      cases taken
      split_ifs with hrequested
      · exact ⟨.inr hrequested, trivial⟩
      · trivial
    case looking i =>
      cases taken
      split_ifs with hstop
      · exact fun _ => .inl hstop
      · trivial
    case asking i =>
      cases taken
      exact fun hrequested => .inr hrequested
    case holding i stopping =>
      split_ifs at taken
      cases taken
      exact fun hstopping => hmono (justified hstopping)
    case locked i stopping =>
      cases taken
      split_ifs with hstop
      · rcases Bool.or_eq_true_iff.mp hstop with hstopping | hset
        · exact justified hstopping
        · exact .inl hset
      · trivial
    case abandoning =>
      cases taken
      exact ⟨hmono justified, trivial⟩
    case getting => split at taken <;> (cases taken; trivial)
    all_goals
      cases taken
      first | trivial | (split_ifs <;> trivial)
  | controller phase =>
    cases phase <;> simp only [threadStep, controllerStep] at taken
    case asking =>
      cases taken
      split_ifs with hrequested
      · exact ⟨.inr hrequested, trivial⟩
      · trivial
    case stopping =>
      cases taken
      exact ⟨.inl rfl, .inl rfl⟩
    case joining =>
      split_ifs at taken
      cases taken
      exact ⟨justified, trivial⟩
    case starting | looping =>
      split_ifs at taken
      cases taken
      trivial
    case promoting => split at taken <;> (cases taken; trivial)
    case returned => cases taken
    all_goals
      cases taken
      first | trivial | (split_ifs <;> trivial)
  | wanting next =>
    simp only [threadStep] at taken
    split_ifs at taken
    cases taken
    exact justified.mono hmono
  | draining phase next =>
    obtain ⟨hstops, hnext⟩ := justified
    have hthere : t.Stops ∧ Justified t next := ⟨hmono hstops, hnext.mono hmono⟩
    cases phase <;> simp only [threadStep, drainStep, Option.some_inj] at taken
    case tasks => split at taken <;> (cases taken; exact hthere)
    case retries =>
      split at taken
      · cases taken
        exact hthere.2
      · cases taken
        exact hthere
    all_goals
      cases taken
      exact hthere
  | drained next =>
    cases taken
    exact justified.mono hmono

/-- The chapters in a queue or in the hands of a thread. -/
def State.inPlay (σ : State W) : Multiset ℕ := σ.shared.queued + load Local.held σ.locals

/-- Every chapter is in play, settled, or was put aside for a reason, and only once. -/
def Accounted (why : Shared → Prop) (batch : Batch) (σ : State W) : Prop :=
  ∃ settled dropped : Multiset ℕ, σ.inPlay + (settled + dropped) = batch.chapters ∧
    (∀ i ∈ settled, Settled batch σ.shared i) ∧ (dropped ≠ 0 → why σ.shared)

theorem held_le_inPlay (σ : State W) (x : Thread W) : σ.shared.queued + (σ.locals x).held ≤ σ.inPlay := by
  have hle : (σ.locals x).held ≤ load Local.held σ.locals :=
    Finset.single_le_sum_of_canonicallyOrdered (f := fun y => (σ.locals y).held) (Finset.mem_univ x)
  exact (Multiset.add_le_add_iff_left).mpr hle

theorem inPlay_run (σ : State W) (x : Thread W) (t : Shared) (m : Local) :
    (⟨t, Function.update σ.locals x m⟩ : State W).inPlay + (σ.shared.queued + (σ.locals x).held) =
      σ.inPlay + (t.queued + m.held) := by
  have hload := load_update Local.held σ.locals x m
  rw [State.inPlay, State.inPlay]
  calc t.queued + load Local.held (Function.update σ.locals x m) + (σ.shared.queued + (σ.locals x).held)
      = t.queued + σ.shared.queued +
          (load Local.held (Function.update σ.locals x m) + (σ.locals x).held) := by abel
    _ = σ.shared.queued + load Local.held σ.locals + (t.queued + m.held) := by rw [hload]; abel

theorem Settled.congr {i : ℕ} (task : t.task i = s.task i)
    (failed : ∀ j ∈ s.failedTasks, j ∈ t.failedTasks) (h : Settled batch s i) : Settled batch t i := by
  rw [Settled, task]
  exact h.imp id (Or.imp id (failed i))

theorem Accounted.run {why : Shared → Prop} {x : Thread W} (h : Accounted why batch σ)
    (effect : Effect batch σ.shared t (σ.locals x) m) (kept : why σ.shared → why t)
    (reason : σ.shared.Stops → σ.inPlay ≠ 0 → why t) :
    Accounted why batch ⟨t, Function.update σ.locals x m⟩ := by
  obtain ⟨settled, dropped, hsplit, hsettled, hdropped⟩ := h
  have hmove := inPlay_run σ x t m
  have hle := held_le_inPlay σ x
  have hnodup : (σ.inPlay + (settled + dropped)).Nodup := by
    rw [hsplit]
    exact Multiset.coe_nodup.mpr batch.distinct
  have hdisjoint := Multiset.disjoint_of_nodup_add hnodup
  have hout : ∀ i ∈ settled, i ∉ σ.shared.queued + (σ.locals x).held := fun i hi hplay =>
    Multiset.disjoint_left.mp hdisjoint (Multiset.mem_of_le hle hplay) (Multiset.mem_add.mpr (.inl hi))
  cases effect with
  | moved same task failed =>
    rw [same] at hmove
    have hplay := add_right_cancel hmove
    exact ⟨settled, dropped, by rw [hplay, hsplit],
      fun i hi => (hsettled i hi).congr (task i (hout i hi)) (by rw [failed]; exact fun _ => id),
      fun hne => kept (hdropped hne)⟩
  | settled i rest task failed done =>
    rw [rest, Multiset.add_cons, ← Multiset.cons_add] at hmove
    have hplay := add_right_cancel hmove
    refine ⟨i ::ₘ settled, dropped, ?_, fun j hj => ?_, fun hne => kept (hdropped hne)⟩
    · rw [← hsplit, ← hplay]
      simp only [← Multiset.singleton_add]
      abel
    · rcases Multiset.mem_cons.mp hj with rfl | hold
      · exact done
      · refine (hsettled j hold).congr (task j ?_) failed
        rintro rfl
        exact hout j hold (by rw [rest]; exact Multiset.mem_cons_self _ _)
  | dropped i rest task failed stops =>
    rw [rest, Multiset.add_cons, ← Multiset.cons_add] at hmove
    have hplay := add_right_cancel hmove
    refine ⟨settled, i ::ₘ dropped, ?_,
      fun j hj => (hsettled j hj).congr (by rw [task]) (by rw [failed]; exact fun _ => id), fun _ => ?_⟩
    · rw [← hsplit, ← hplay]
      simp only [← Multiset.singleton_add]
      abel
    · refine reason stops ?_
      rw [← hplay]
      exact Multiset.cons_ne_zero

theorem accounted_start {why : Shared → Prop} (h : (machine W batch).start σ) : Accounted why batch σ := by
  obtain ⟨stopRequested, hshared⟩ := h.1
  have hitems := (JobProcessor.coe_foldl_put batch.chapters ⟨[], 0⟩).1
  refine ⟨0, 0, ?_, by simp, by simp⟩
  rw [State.inPlay, start_zero h rfl rfl, hshared, Shared.queued]
  simpa [newShared] using hitems

theorem inPlay_start {x : Thread W} (hlocal : σ.locals x = .unstarted) :
    ({ σ with locals := Function.update σ.locals x x.first } : State W).inPlay = σ.inPlay := by
  rw [State.inPlay, State.inPlay, load_update_of_eq (by rw [hlocal, (first_free x).1]; rfl)]

end Run

end UniversityHelper.CancellableRun
