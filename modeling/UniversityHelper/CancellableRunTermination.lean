import UniversityHelper.CancellableRunShutdown
import UniversityHelper.Simulation

/-! The shutdown of a run comes to its end: every step brings a thread nearer to it, and no thread is stuck
before it. -/
namespace UniversityHelper.CancellableRun
open JobProcessor (Attempt Batch ChapterTask PriorityQueue)
set_option linter.unusedSectionVars false

variable {batch : Batch} {started joined : Bool} {s t : Shared} {outcome : Option Attempt} {l m next : Local}

/-! ### How far a thread is from its end -/

/-- How many steps a thread takes at most once the stop event is set, those of its chapters apart. -/
def WorkerPhase.rank : WorkerPhase → ℕ
  | .getting => 2
  | .gotten _ => 2
  | .processing _ => 16
  | .processed _ _ => 15
  | .deciding _ => 14
  | .retrying _ => 13
  | .enlisting _ => 12
  | .announcing _ => 11
  | .putting _ => 10
  | .unlocking => 5
  | .finishing last => if last then 1 else 4

def RetryPhase.rank : RetryPhase → ℕ
  | .checking => 1
  | .doubting => 15
  | .getting => 14
  | .looking _ => 13
  | .asking _ => 12
  | .holding _ _ => 11
  | .locked _ _ => 10
  | .putting _ => 8
  | .releasing => 4
  | .unlocking => 3
  | .abandoning => 9
  | .marking last => if last then 1 else 2
  | .sleeping => 1

def ControllerPhase.rank : ControllerPhase → ℕ
  | .joining => 10
  | _ => 0

def DrainPhase.rank : DrainPhase → ℕ
  | .tasks => 5
  | .tasksDone => 6
  | .retries => 1
  | .retriesDone => 3
  | .retriesRelease => 2

def Local.rank : Local → ℕ
  | .worker phase => phase.rank
  | .retry phase => phase.rank
  | .controller phase => phase.rank
  | .wanting next => next.rank + 9
  | .draining phase next => next.rank + 2 + phase.rank
  | .drained next => next.rank + 1
  | _ => 0

/-- A chapter in a queue is worth the steps that take it out again. -/
def Shared.work (s : Shared) : ℕ := 3 * s.taskQueue.items.length + 4 * s.retryQueue.items.length

theorem Local.Resumes.rank_le (h : next.Resumes) : next.rank ≤ 10 := by
  cases next with
  | ended => exact Nat.zero_le _
  | worker phase =>
    cases phase with
    | finishing last => cases last <;> simp [Local.rank, WorkerPhase.rank]
    | _ => exact absurd h id
  | retry phase =>
    cases phase with
    | marking last => cases last <;> simp [Local.rank, RetryPhase.rank]
    | _ => exact absurd h id
  | controller phase => cases phase <;> simp [Local.rank, ControllerPhase.rank]
  | unstarted | wanting | draining | drained => exact absurd h id

theorem Local.Apart.rank_le (h : l.Apart) : l.rank ≤ 19 := by
  cases l with
  | unstarted | ended => exact Nat.zero_le _
  | worker phase => cases phase <;> simp only [Local.rank, WorkerPhase.rank] <;> (try split_ifs) <;> omega
  | retry phase => cases phase <;> simp only [Local.rank, RetryPhase.rank] <;> (try split_ifs) <;> omega
  | controller phase => cases phase <;> simp [Local.rank, ControllerPhase.rank]
  | wanting next =>
    have hle := Local.Resumes.rank_le h
    simp only [Local.rank]
    omega
  | draining phase next =>
    have hle := Local.Resumes.rank_le h
    cases phase <;> simp only [Local.rank, DrainPhase.rank] <;> omega
  | drained next =>
    have hle := Local.Resumes.rank_le h
    simp only [Local.rank]
    omega

theorem worker_rank {phase : WorkerPhase} (stopped : s.runStop = true)
    (taken : workerStep batch s outcome phase = some (t, m)) :
    t.work + m.rank < s.work + (Local.worker phase).rank := by
  cases phase with
  | getting =>
    simp only [workerStep] at taken
    split at taken
    · cases taken
      simp [Local.rank, WorkerPhase.rank, stopped]
    · rename_i i taskQueue hget
      cases taken
      obtain ⟨hlength, -⟩ := length_of_get hget
      simp only [Shared.work, Local.rank, WorkerPhase.rank, hlength]
      omega
  | processing i =>
    simp only [workerStep] at taken
    split at taken
    · cases taken
      simp [Shared.work, Local.rank, WorkerPhase.rank]
    · split_ifs at taken
      cases taken
      simp [Shared.work, Local.rank, WorkerPhase.rank]
  | deciding i =>
    simp only [workerStep] at taken
    split at taken <;> (cases taken; simp [Shared.work, Local.rank, WorkerPhase.rank])
  | retrying i =>
    simp only [workerStep] at taken
    split_ifs at taken
    cases taken
    simp [Shared.work, Local.rank, WorkerPhase.rank]
  | putting i =>
    cases taken
    simp only [Shared.work, Local.rank, WorkerPhase.rank, JobProcessor.PriorityQueue.length_put]
    omega
  | finishing last =>
    cases taken
    cases last <;> simp [Shared.work, Local.rank, WorkerPhase.rank, PriorityQueue.taskDone]
  | gotten i | processed i cancelled | enlisting i =>
    cases taken
    simp [Local.rank, WorkerPhase.rank, stopped]
  | announcing i | unlocking =>
    cases taken
    simp [Shared.work, Local.rank, WorkerPhase.rank]

theorem retry_rank {phase : RetryPhase} (stopped : s.runStop = true)
    (taken : retryStep s phase = some (t, m)) :
    t.work + m.rank < s.work + (Local.retry phase).rank := by
  cases phase with
  | getting =>
    simp only [retryStep] at taken
    split at taken
    · cases taken
      simp [Local.rank, RetryPhase.rank]
    · rename_i i retryQueue hget
      cases taken
      obtain ⟨hlength, -⟩ := length_of_get hget
      simp only [Shared.work, Local.rank, RetryPhase.rank, hlength]
      omega
  | doubting =>
    cases taken
    split_ifs <;> simp [Local.rank, RetryPhase.rank]
  | holding i stopping =>
    simp only [retryStep] at taken
    split_ifs at taken
    cases taken
    simp [Shared.work, Local.rank, RetryPhase.rank]
  | putting i =>
    cases taken
    simp only [Shared.work, Local.rank, RetryPhase.rank, JobProcessor.PriorityQueue.length_put]
    omega
  | abandoning =>
    cases taken
    simp [Shared.work, Local.rank, RetryPhase.rank, DrainPhase.rank]
  | marking last =>
    cases taken
    cases last <;> simp [Shared.work, Local.rank, RetryPhase.rank, PriorityQueue.taskDone]
  | checking | looking | locked | sleeping =>
    cases taken
    simp [Local.rank, RetryPhase.rank, stopped]
  | asking | releasing | unlocking =>
    cases taken
    simp [Shared.work, Local.rank, RetryPhase.rank]

/-- Once the stop event is set, every step brings a thread nearer to its end. -/
theorem thread_rank (stopped : s.runStop = true)
    (course : ∀ phase, l = .controller phase → phase = .joining ∨ phase = .returned)
    (taken : threadStep batch started joined s outcome l = some (t, m)) :
    t.work + m.rank < s.work + l.rank := by
  cases l with
  | unstarted | ended => cases taken
  | worker phase => exact worker_rank stopped taken
  | retry phase => exact retry_rank stopped taken
  | controller phase =>
    rcases course phase rfl with rfl | rfl
    · simp only [threadStep, controllerStep] at taken
      split_ifs at taken
      cases taken
      simp [Local.rank, ControllerPhase.rank]
    · cases taken
  | wanting next =>
    simp only [threadStep] at taken
    split_ifs at taken
    cases taken
    simp only [Shared.work, Local.rank, DrainPhase.rank]
    omega
  | draining phase next =>
    cases phase <;> simp only [threadStep, drainStep, Option.some_inj] at taken
    case tasks =>
      split at taken
      · cases taken
        simp only [Shared.work, Local.rank, DrainPhase.rank]
        omega
      · rename_i i taskQueue hget
        cases taken
        obtain ⟨hlength, -⟩ := length_of_get hget
        simp only [Shared.work, Local.rank, DrainPhase.rank, hlength]
        omega
    case retries =>
      split at taken
      · cases taken
        simp only [Shared.work, Local.rank, DrainPhase.rank]
        omega
      · rename_i i retryQueue hget
        cases taken
        obtain ⟨hlength, -⟩ := length_of_get hget
        simp only [Shared.work, Local.rank, DrainPhase.rank, hlength]
        omega
    all_goals
      cases taken
      simp [Shared.work, Local.rank, DrainPhase.rank, PriorityQueue.taskDone]
  | drained next =>
    cases taken
    simp [Shared.work, Local.rank]

/-- A thread that holds the drain lock, and any other while nobody does, can go on: unless it has ended, or
is the controller before the first worker, at its joins or back from them. -/
theorem thread_enabled (batch : Batch) (started joined : Bool) (apart : l.Apart)
    (hlock : s.drainLock = false ∨ 0 < l.locks) :
    (∃ outcome p, threadStep batch started joined s outcome l = some p) ∨ l.isEnded = true ∨
      l = .controller .starting ∧ started = false ∨ l = .controller .joining ∧ joined = false ∨
      l = .controller .returned := by
  have hfree : l.locks = 0 → s.drainLock = false := fun hlocks => hlock.resolve_right (by omega)
  cases l with
  | unstarted | ended => exact .inr (.inl rfl)
  | worker phase =>
    refine .inl ⟨some .success, ?_⟩
    cases phase with
    | getting =>
      simp only [threadStep, workerStep]
      split <;> exact ⟨_, rfl⟩
    | deciding i =>
      simp only [threadStep, workerStep]
      split <;> exact ⟨_, rfl⟩
    | retrying i =>
      simp only [threadStep, workerStep, hfree rfl]
      exact ⟨_, rfl⟩
    | _ => exact ⟨_, rfl⟩
  | retry phase =>
    refine .inl ⟨none, ?_⟩
    cases phase with
    | getting =>
      simp only [threadStep, retryStep]
      split <;> exact ⟨_, rfl⟩
    | holding i stopping =>
      simp only [threadStep, retryStep, hfree rfl]
      exact ⟨_, rfl⟩
    | _ => exact ⟨_, rfl⟩
  | controller phase =>
    cases phase with
    | starting =>
      cases started with
      | false => exact .inr (.inr (.inl ⟨rfl, rfl⟩))
      | true => exact .inl ⟨none, _, rfl⟩
    | joining =>
      cases joined with
      | false => exact .inr (.inr (.inr (.inl ⟨rfl, rfl⟩)))
      | true => exact .inl ⟨none, _, rfl⟩
    | returned => exact .inr (.inr (.inr (.inr rfl)))
    | looping =>
      refine .inl ⟨none, ?_⟩
      simp only [threadStep, controllerStep, hfree rfl]
      exact ⟨_, rfl⟩
    | promoting =>
      refine .inl ⟨none, ?_⟩
      simp only [threadStep, controllerStep]
      split <;> exact ⟨_, rfl⟩
    | _ => exact .inl ⟨none, _, rfl⟩
  | wanting next =>
    refine .inl ⟨none, ?_⟩
    simp only [threadStep, hfree (Local.Resumes.free apart).1]
    exact ⟨_, rfl⟩
  | draining | drained => exact .inl ⟨none, _, rfl⟩

section Run
variable {W : Type*} [DecidableEq W] [Fintype W] {σ τ : State W} {a : Action W}

/-! ### The shutdown -/

theorem drainLock_of_stuck (h : Closing σ) (counted : Counted σ)
    (stuck : ∀ x outcome, threadStep batch σ.started σ.joined σ.shared outcome (σ.locals x) = none) :
    σ.shared.drainLock = false := by
  by_contra hheld
  obtain ⟨x, hx⟩ : ∃ x, (σ.locals x).locks ≠ 0 := by
    by_contra hnone
    push Not at hnone
    have hcount := counted.lock
    rw [load_eq_zero.mpr hnone] at hcount
    exact hheld (Bool.toNat_eq_zero.mp hcount)
  rcases thread_enabled batch σ.started σ.joined (h.formed x).1 (.inr (Nat.pos_of_ne_zero hx)) with
    ⟨outcome, p, hp⟩ | hended | ⟨hlocal, -⟩ | ⟨hlocal, -⟩ | hlocal
  · rw [stuck x outcome] at hp
    cases hp
  · exact hx (weight_zero_of_isEnded rfl rfl hended)
  all_goals
    rw [hlocal] at hx
    exact hx rfl

/-- No thread waits for a lock that nobody releases, and the controller for no thread that cannot go on. -/
theorem returned_of_stuck [Nonempty W] (h : Closing σ) (counted : Counted σ)
    (stuck : ∀ a : Action W, a ≠ .requestStop → step batch σ a = none) :
    σ.locals .controller = .controller .returned := by
  have hstuck : ∀ x outcome, threadStep batch σ.started σ.joined σ.shared outcome (σ.locals x) = none := by
    intro x outcome
    have hnone := stuck (.run x outcome) (by simp)
    simpa only [step, Option.map_eq_none_iff] using hnone
  have hfree := drainLock_of_stuck h counted hstuck
  have hended : ∀ x, x ≠ .controller → (σ.locals x).isEnded = true := by
    intro x hx
    have hcourse := (h.formed x).2 hx
    rcases thread_enabled batch σ.started σ.joined (h.formed x).1 (.inl hfree) with
      ⟨outcome, p, hp⟩ | hended | ⟨hlocal, -⟩ | ⟨hlocal, -⟩ | hlocal
    · rw [hstuck x outcome] at hp
      cases hp
    · exact hended
    all_goals
      rw [hlocal] at hcourse
      cases hcourse
  rcases thread_enabled batch σ.started σ.joined (h.formed .controller).1 (.inl hfree) with
    ⟨outcome, p, hp⟩ | hcontroller | ⟨hlocal, hstarted⟩ | ⟨-, hjoined⟩ | hlocal
  · rw [hstuck .controller outcome] at hp
    cases hp
  · obtain ⟨phase, hphase⟩ := h.closes.course
    cases hlocal : σ.locals .controller with
    | unstarted | ended =>
      rw [hlocal] at hphase
      cases hphase
    | _ =>
      rw [hlocal] at hcontroller
      cases hcontroller
  · -- a worker can still start
    obtain ⟨w⟩ := ‹Nonempty W›
    have hunstarted : σ.locals (.worker w) = .unstarted := by
      rw [State.started, decide_eq_false_iff_not, not_exists] at hstarted
      have hw := hstarted w
      cases hlocal : σ.locals (.worker w) with
      | unstarted => rfl
      | _ => exact absurd (by rw [hlocal]; rfl) hw
    have hnone := stuck (.start (.worker w)) (by simp)
    simp [step, hlocal, hunstarted] at hnone
  · rw [joined_iff.mpr hended] at hjoined
    cases hjoined
  · exact hlocal

def State.work (σ : State W) : ℕ := σ.shared.work + load Local.rank σ.locals

theorem State.work_le (h : Closing σ) :
    σ.work ≤ 3 * σ.shared.taskQueue.items.length + 4 * σ.shared.retryQueue.items.length +
      19 * Fintype.card (Thread W) := by
  have hload : load Local.rank σ.locals ≤ Fintype.card (Thread W) * 19 :=
    Finset.sum_le_card_nsmul _ _ _ fun x _ => Local.Apart.rank_le (h.formed x).1
  rw [State.work, Shared.work]
  omega

/-- A step of one of the threads of the run. -/
def Action.ofThread : Action W → Bool
  | .start _ | .run _ _ => true
  | .requestStop => false

theorem work_run (h : Closing σ) (stopped : σ.shared.runStop = true) (taken : step batch σ a = some τ) :
    τ.shared.runStop = true ∧ τ.work + a.ofThread.toNat ≤ σ.work := by
  obtain ⟨x, -, hstarting, -⟩ | ⟨x, outcome, t, m, rfl, hthread, rfl⟩ | ⟨rfl, rfl⟩ := step_run taken
  · rcases h.closes.stopping stopped with hcourse | hcourse
    · rw [hstarting] at hcourse
      cases hcourse
    · rw [hstarting] at hcourse
      cases hcourse
  · have hcourse : ∀ phase, σ.locals x = .controller phase → phase = .joining ∨ phase = .returned := by
      intro phase hlocal
      obtain rfl | hx := eq_or_ne x .controller
      · have hstopping := h.closes.stopping stopped
        rw [hlocal] at hstopping
        exact hstopping.imp Option.some_inj.mp Option.some_inj.mp
      · have hnone := (h.formed x).2 hx
        rw [hlocal] at hnone
        cases hnone
    have hless := thread_rank stopped hcourse hthread
    have hload := load_update Local.rank σ.locals x m
    refine ⟨?_, ?_⟩
    · rcases (thread_flags hthread).1 with hsame | hset
      · exact hsame.trans stopped
      · exact hset
    · simp only [State.work, Action.ofThread, Bool.toNat_true]
      omega
  -- the request only sets a flag that the work does not depend on
  · exact ⟨stopped, le_rfl⟩

/-- The shutdown ends: once the stop event is set the threads take no more steps than the bound, whatever
the order and whatever is requested meanwhile; and in any state the run is over exactly when no thread can go
on. -/
theorem shutdown_terminates [Nonempty W] (h : (machine W batch).Reachable Machine.free σ) :
    ((∀ a, a ≠ .requestStop → step batch σ a = none) ↔ σ.locals .controller = .controller .returned) ∧
    (σ.shared.runStop = true → ∀ (actions : List (Action W)) (τ : State W),
      (machine W batch).exec σ actions = some τ →
      actions.countP Action.ofThread ≤ 3 * σ.shared.taskQueue.items.length + 4 * σ.shared.retryQueue.items.length +
        19 * Fintype.card (Thread W)) := by
  have hclosing := Closing.of_reachable h
  refine ⟨⟨returned_of_stuck hclosing (.of_reachable h), fun hlocal a silent => ?_⟩,
    fun hstop actions τ run => ?_⟩
  · have hended := joined_iff.mp (hclosing.closes.joined (by rw [hlocal]; rfl))
    cases a with
    | start x => simp [step, hlocal]
    | run x outcome =>
      obtain rfl | hx := eq_or_ne x .controller
      · simp [step, hlocal, threadStep, controllerStep]
      · simp only [step, thread_none_of_isEnded (hended x hx), Option.map_none]
    | requestStop => exact absurd rfl silent
  · refine le_trans ?_ (State.work_le hclosing)
    refine Machine.countP_le_of_exec (I := fun σ => Closing σ ∧ σ.shared.runStop = true) ?_ run ⟨hclosing, hstop⟩
    intro a ha σ τ hσ taken
    obtain ⟨hstop, hless⟩ := work_run hσ.1 hσ.2 taken
    exact ⟨⟨hσ.1.preserved taken, hstop⟩, hless⟩

end Run

/-! ### A retry that comes too late -/

def lateBatch : Batch := ⟨[1], nodup_one, "retry", fun _ _ => .error⟩

def lateStart : State Unit :=
  ⟨newShared lateBatch false, fun x => if x = .controller then .controller .starting else .unstarted⟩

/-- The worker counts its retry between the two reads, and the controller leaves while it is queued. -/
def lateRetry : List (Action Unit) :=
  [.start (.worker ())] ++ List.replicate 5 (.run .controller none) ++
    List.replicate 6 (.run (.worker ()) (some .error)) ++ [.run .controller none] ++
    List.replicate 5 (.run (.worker ()) none) ++ List.replicate 2 (.run .controller none)

theorem exec_lateRetry : ((machine Unit lateBatch).exec lateStart lateRetry).any (fun σ =>
    σ.shared.runStop && σ.shared.retryQueue.items = [1]) = true := by
  decide +kernel

theorem shutdown_terminates_late_retry :
    ∃ σ : State Unit, σ.shared.retryQueue.items = [1] ∧ ∀ (actions : List (Action Unit)) (τ : State Unit),
      (machine Unit lateBatch).exec σ actions = some τ →
      actions.countP Action.ofThread ≤ 3 * σ.shared.taskQueue.items.length + 4 * σ.shared.retryQueue.items.length +
        19 * Fintype.card (Thread Unit) := by
  have hexec := exec_lateRetry
  rw [Option.any_eq_true] at hexec
  obtain ⟨σ, hexec, hthere⟩ := hexec
  rw [Bool.and_eq_true, decide_eq_true_iff] at hthere
  have hstart : (machine Unit lateBatch).start lateStart :=
    ⟨⟨false, rfl⟩, rfl, fun x hx => if_neg hx⟩
  exact ⟨σ, hthere.2, (shutdown_terminates (Machine.reachable_of_exec lateRetry hstart hexec)).2 hthere.1⟩

end UniversityHelper.CancellableRun
