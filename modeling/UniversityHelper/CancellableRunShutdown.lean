import UniversityHelper.CancellableRunSafety
import UniversityHelper.Simulation

/-! How a run ends: the controller leaves its loop, the threads go home one by one, and nothing is left
behind. -/
namespace UniversityHelper.CancellableRun
open JobProcessor (Attempt Batch ChapterTask PriorityQueue)
set_option linter.unusedSectionVars false

variable {batch : Batch} {started joined : Bool} {s t : Shared} {outcome : Option Attempt} {l m next : Local}

/-! ### Where the controller is -/

/-- The phase of the controller that a local state is at or goes on to. -/
def Local.course : Local → Option ControllerPhase
  | .controller phase => some phase
  | .wanting next => next.course
  | .draining _ next => next.course
  | .drained next => next.course
  | _ => none

/-- What a thread goes on to after it has drained the queues. -/
def Local.Resumes : Local → Prop
  | .ended => True
  | .worker (.finishing true) => True
  | .retry (.marking true) => True
  | .controller .checking => True
  | .controller .joining => True
  | .controller .returned => True
  | _ => False

def Local.Apart : Local → Prop
  | .wanting next => next.Resumes
  | .draining _ next => next.Resumes
  | .drained next => next.Resumes
  | _ => True

theorem Local.Resumes.free (h : next.Resumes) : next.locks = 0 ∧ next.Apart := by
  cases next with
  | ended => exact ⟨rfl, trivial⟩
  | worker phase => cases phase <;> first | exact absurd h id | exact ⟨rfl, trivial⟩
  | retry phase => cases phase <;> first | exact absurd h id | exact ⟨rfl, trivial⟩
  | controller phase => cases phase <;> first | exact absurd h id | exact ⟨rfl, trivial⟩
  | unstarted | wanting | draining | drained => exact absurd h id

/-- A step of a thread other than the controller leaves the stop event and its course as they are. -/
theorem thread_course (taken : threadStep batch started joined s outcome l = some (t, m)) :
    (m.course = l.course ∧ t.runStop = s.runStop) ∨
      ∃ phase, l = .controller phase ∧ controllerStep started joined s phase = some (t, m) := by
  cases l with
  | unstarted | ended => cases taken
  | worker phase =>
    refine .inl ?_
    cases phase <;> simp only [threadStep, workerStep] at taken
    case retrying =>
      split_ifs at taken
      cases taken
      exact ⟨rfl, rfl⟩
    case getting | deciding =>
      split at taken <;> (cases taken; first | exact ⟨rfl, rfl⟩ | (split_ifs <;> exact ⟨rfl, rfl⟩))
    case processing =>
      split at taken
      · cases taken
        exact ⟨rfl, rfl⟩
      · split_ifs at taken
        cases taken
        exact ⟨rfl, rfl⟩
    all_goals
      cases taken
      first | exact ⟨rfl, rfl⟩ | (split_ifs <;> exact ⟨rfl, rfl⟩)
  | retry phase =>
    refine .inl ?_
    cases phase <;> simp only [threadStep, retryStep] at taken
    case getting =>
      split at taken <;> (cases taken; exact ⟨rfl, rfl⟩)
    case holding =>
      split_ifs at taken
      cases taken
      exact ⟨rfl, rfl⟩
    all_goals
      cases taken
      first | exact ⟨rfl, rfl⟩ | (split_ifs <;> exact ⟨rfl, rfl⟩)
  | controller phase => exact .inr ⟨phase, rfl, taken⟩
  | wanting next =>
    simp only [threadStep] at taken
    split_ifs at taken
    cases taken
    exact .inl ⟨rfl, rfl⟩
  | draining phase next =>
    refine .inl ?_
    cases phase <;> simp only [threadStep, drainStep, Option.some_inj] at taken
    case tasks | retries =>
      split at taken <;> (cases taken; exact ⟨rfl, rfl⟩)
    all_goals
      cases taken
      exact ⟨rfl, rfl⟩
  | drained next =>
    cases taken
    exact .inl ⟨rfl, rfl⟩

/-- The controller sets the stop event on its way to the joins, and returns only from them. -/
theorem controller_course {phase : ControllerPhase}
    (taken : controllerStep started joined s phase = some (t, m)) :
    ∃ phase', m.course = some phase' ∧ (t.runStop = s.runStop ∨ phase' = .joining) ∧
      (phase' = .returned → joined = true ∧ m = .wanting (.controller .returned)) ∧
      (phase = .joining → phase' = .returned) ∧ phase ≠ .returned := by
  cases phase with
  | starting | looping =>
    simp only [controllerStep] at taken
    split_ifs at taken
    cases taken
    exact ⟨_, rfl, .inl rfl, by simp, by simp, by simp⟩
  | joining =>
    simp only [controllerStep] at taken
    split_ifs at taken with hjoined
    cases taken
    exact ⟨_, rfl, .inl rfl, fun _ => ⟨hjoined, rfl⟩, fun _ => rfl, by simp⟩
  | promoting =>
    simp only [controllerStep] at taken
    split at taken <;> (cases taken; exact ⟨_, rfl, .inl rfl, by simp, by simp, by simp⟩)
  | promoted | asking | counted =>
    cases taken
    split_ifs <;> exact ⟨_, rfl, .inl rfl, by simp, by simp, by simp⟩
  | stopping =>
    cases taken
    exact ⟨_, rfl, .inr rfl, by simp, by simp, by simp⟩
  | putting | marking | releasing | unlocking | checking | resting =>
    cases taken
    exact ⟨_, rfl, .inl rfl, by simp, by simp, by simp⟩
  | returned => cases taken

theorem thread_apart (apart : l.Apart)
    (taken : threadStep batch started joined s outcome l = some (t, m)) : m.Apart := by
  cases l with
  | unstarted | ended => cases taken
  | worker phase =>
    cases phase <;> simp only [threadStep, workerStep] at taken
    case retrying =>
      split_ifs at taken
      cases taken
      trivial
    case getting | deciding =>
      split at taken <;> (cases taken; first | trivial | (split_ifs <;> trivial))
    case processing =>
      split at taken
      · cases taken
        trivial
      · split_ifs at taken
        cases taken
        trivial
    all_goals
      cases taken
      first | trivial | (split_ifs <;> trivial)
  | retry phase =>
    cases phase <;> simp only [threadStep, retryStep] at taken
    case getting => split at taken <;> (cases taken; trivial)
    case holding =>
      split_ifs at taken
      cases taken
      trivial
    all_goals
      cases taken
      first | trivial | (split_ifs <;> trivial)
  | controller phase =>
    cases phase <;> simp only [threadStep, controllerStep] at taken
    case starting | looping | joining =>
      split_ifs at taken
      cases taken
      trivial
    case promoting => split at taken <;> (cases taken; trivial)
    case returned => cases taken
    all_goals
      cases taken
      first | trivial | (split_ifs <;> trivial)
  | wanting next =>
    simp only [threadStep] at taken
    split_ifs at taken
    cases taken
    exact apart
  | draining phase next =>
    cases phase <;> simp only [threadStep, drainStep, Option.some_inj] at taken
    case tasks | retries => split at taken <;> (cases taken; exact apart)
    all_goals
      cases taken
      exact apart
  | drained next =>
    cases taken
    exact Local.Resumes.free apart |>.2

/-- What the queues are once the last drain has come this far. -/
def Local.Emptied (s : Shared) : Local → Prop
  | .draining .retries _ => s.taskQueue.items = []
  | .draining .retriesDone _ => s.taskQueue.items = []
  | .draining .retriesRelease _ => s.taskQueue.items = []
  | .drained _ => s.taskQueue.items = [] ∧ s.retryQueue.items = []
  | .controller .returned => s.taskQueue.items = [] ∧ s.retryQueue.items = []
  | _ => True

theorem items_of_get_none {q : PriorityQueue} (h : q.get = none) : q.items = [] := by
  unfold PriorityQueue.get at h
  cases hitems : q.items with
  | nil => rfl
  | cons i rest => simp [hitems] at h

/-- On its way back from the joins the controller empties the queues. -/
theorem thread_emptied (apart : l.Apart) (course : l.course = some .returned) (emptied : l.Emptied s)
    (taken : threadStep batch started joined s outcome l = some (t, m)) : m.Emptied t := by
  cases l with
  | unstarted | ended | worker | retry => cases course
  | controller phase =>
    obtain rfl : phase = .returned := Option.some_inj.mp course
    cases taken
  | wanting next =>
    simp only [threadStep] at taken
    split_ifs at taken
    cases taken
    trivial
  | draining phase next =>
    cases phase <;> simp only [threadStep, drainStep, Option.some_inj] at taken
    case tasks =>
      split at taken
      · rename_i hget
        cases taken
        exact items_of_get_none hget
      · cases taken
        trivial
    case retries =>
      split at taken
      · rename_i hget
        cases taken
        exact ⟨emptied, items_of_get_none hget⟩
      · cases taken
        exact emptied
    case tasksDone =>
      cases taken
      trivial
    case retriesDone | retriesRelease =>
      cases taken
      exact emptied
  | drained next =>
    simp only [threadStep, Option.some_inj, Prod.mk.injEq] at taken
    obtain ⟨rfl, rfl⟩ := taken
    cases next with
    | controller phase =>
      obtain rfl : phase = .returned := Option.some_inj.mp course
      exact emptied
    | ended | worker | retry => cases course
    | unstarted | wanting | draining | drained => exact absurd apart id

/-- The controller sets the stop event before its joins, returns after them, and leaves empty queues. -/
structure Closes (s : Shared) (joined : Bool) (l : Local) : Prop where
  course : ∃ phase, l.course = some phase
  stopping : s.runStop = true → l.course = some .joining ∨ l.course = some .returned
  joined : l.course = some .returned → joined = true
  emptied : l.course = some .returned → l.Emptied s

theorem Closes.step (h : Closes s joined l) (apart : l.Apart)
    (taken : threadStep batch started joined s outcome l = some (t, m)) : Closes t joined m := by
  rcases thread_course taken with ⟨hsame, hstop⟩ | ⟨phase, rfl, hphase⟩
  · refine ⟨hsame ▸ h.course, ?_, ?_, fun hreturned => ?_⟩
    · rw [hstop, hsame]
      exact h.stopping
    · rw [hsame]
      exact h.joined
    · rw [hsame] at hreturned
      exact thread_emptied apart hreturned (h.emptied hreturned) taken
  · obtain ⟨phase', hcourse, hstop, hreturned, hjoining, hleft⟩ := controller_course hphase
    refine ⟨⟨phase', hcourse⟩, fun hset => ?_, fun hback => ?_, fun hback => ?_⟩
    · rcases hstop with hsame | rfl
      · rw [hsame] at hset
        rcases h.stopping hset with hnow | hnow
        · rw [hcourse, hjoining (Option.some_inj.mp hnow)]
          exact .inr rfl
        · exact absurd (Option.some_inj.mp hnow) hleft
      · exact .inl hcourse
    · rw [hcourse] at hback
      exact (hreturned (Option.some_inj.mp hback)).1
    · rw [hcourse] at hback
      rw [(hreturned (Option.some_inj.mp hback)).2]
      trivial

section Run
variable {W : Type*} [DecidableEq W] [Fintype W] {σ τ : State W} {a : Action W} {x : Thread W}
  {ok : State W → Action W → Prop}

/-- Where a thread may be: only the controller is ever at a phase of the controller. -/
def Formed (x : Thread W) (l : Local) : Prop := l.Apart ∧ (x ≠ .controller → l.course = none)

theorem Formed.step (h : Formed x l)
    (taken : threadStep batch started joined s outcome l = some (t, m)) : Formed x m := by
  refine ⟨thread_apart h.1 taken, fun hx => ?_⟩
  rcases thread_course taken with ⟨hsame, -⟩ | ⟨phase, rfl, -⟩
  · exact hsame.trans (h.2 hx)
  · cases h.2 hx

/-- The controller, and with it every thread, is on its way to the end of the run. -/
structure Closing (σ : State W) : Prop where
  formed : ∀ x, Formed x (σ.locals x)
  closes : Closes σ.shared σ.joined (σ.locals .controller)

theorem joined_iff : σ.joined = true ↔ ∀ x, x ≠ .controller → (σ.locals x).isEnded = true := by
  rw [State.joined, decide_eq_true_iff]
  constructor
  · rintro ⟨hworkers, hretry⟩ x hx
    cases x with
    | worker w => exact hworkers w
    | retry => exact hretry
    | controller => exact absurd rfl hx
  · intro h
    exact ⟨fun w => h _ nofun, h _ nofun⟩

theorem joined_run (σ : State W) (t : Shared) (m : Local) :
    (⟨t, Function.update σ.locals .controller m⟩ : State W).joined = σ.joined := by
  rw [Bool.eq_iff_iff, joined_iff, joined_iff]
  refine forall₂_congr fun y hy => ?_
  dsimp only
  rw [Function.update_of_ne hy]

theorem thread_none_of_isEnded (h : l.isEnded = true) :
    threadStep batch started joined s outcome l = none := by
  cases l with
  | unstarted | ended => rfl
  | _ => cases h

theorem formed_first (x : Thread W) : Formed x x.first := by
  cases x with
  | worker | retry => exact ⟨trivial, fun _ => rfl⟩
  | controller => exact ⟨trivial, fun h => absurd rfl h⟩

theorem formed_update (h : Closing σ) (hm : Formed x m) (y : Thread W) :
    Formed y (Function.update σ.locals x m y) :=
  (Function.forall_update_iff σ.locals Formed).mpr ⟨hm, fun y _ => h.formed y⟩ y

theorem Closes.early {joined joined' : Bool} (h : Closes s joined l) (same : t.runStop = s.runStop)
    (early : l.course ≠ some .returned) : Closes t joined' l where
  course := h.course
  stopping := by
    rw [same]
    exact h.stopping
  joined := fun hreturned => absurd hreturned early
  emptied := fun hreturned => absurd hreturned early

theorem Closing.start (h : Closing σ) (starting : σ.locals .controller = .controller .starting)
    (unstarted : σ.locals x = .unstarted) :
    Closing { σ with locals := Function.update σ.locals x x.first } := by
  have hx : x ≠ .controller := by
    rintro rfl
    rw [starting] at unstarted
    cases unstarted
  refine ⟨formed_update h (formed_first x), ?_⟩
  dsimp only
  rw [Function.update_of_ne hx.symm]
  exact h.closes.early rfl (by rw [starting]; nofun)

theorem Closing.run (h : Closing σ)
    (taken : threadStep batch σ.started σ.joined σ.shared outcome (σ.locals x) = some (t, m)) :
    Closing ⟨t, Function.update σ.locals x m⟩ := by
  refine ⟨formed_update h ((h.formed x).step taken), ?_⟩
  dsimp only
  obtain rfl | hx := eq_or_ne x .controller
  · rw [Function.update_self, joined_run]
    exact h.closes.step (h.formed _).1 taken
  · rw [Function.update_of_ne hx.symm]
    have hstop : t.runStop = σ.shared.runStop := by
      rcases thread_course taken with ⟨-, hstop⟩ | ⟨phase, hlocal, -⟩
      · exact hstop
      · have hnone := (h.formed x).2 hx
        rw [hlocal] at hnone
        cases hnone
    refine h.closes.early hstop fun hreturned => ?_
    have hended := joined_iff.mp (h.closes.joined hreturned) x hx
    rw [thread_none_of_isEnded hended] at taken
    cases taken

theorem Closing.preserved (h : Closing σ) (taken : step batch σ a = some τ) : Closing τ := by
  obtain ⟨x, -, hstarting, hlocal, rfl⟩ | ⟨x, outcome, t, m, -, hthread, rfl⟩ | ⟨-, rfl⟩ := step_run taken
  · exact h.start hstarting hlocal
  · exact h.run hthread
  · obtain ⟨hcourse, hstopping, hjoined, hemptied⟩ := h.closes
    refine ⟨h.formed, hcourse, hstopping, hjoined, fun hreturned => ?_⟩
    have hold := hemptied hreturned
    dsimp only
    cases hlocal : σ.locals .controller with
    | draining phase next =>
      rw [hlocal] at hold
      cases phase <;> exact hold
    | controller phase =>
      rw [hlocal] at hold
      cases phase <;> exact hold
    | drained next =>
      rw [hlocal] at hold
      exact hold
    | _ => trivial

theorem closing_start (h : (machine W batch).start σ) : Closing σ := by
  obtain ⟨⟨stopRequested, hshared⟩, hcontroller, hothers⟩ := h
  refine ⟨fun x => ?_, ?_⟩
  · obtain rfl | hx := eq_or_ne x .controller
    · rw [hcontroller]
      exact ⟨trivial, fun h => absurd rfl h⟩
    · rw [hothers x hx]
      exact ⟨trivial, fun _ => rfl⟩
  · rw [hcontroller, hshared]
    exact ⟨⟨_, rfl⟩, nofun, nofun, nofun⟩

theorem Closing.of_reachable (h : (machine W batch).Reachable ok σ) : Closing σ :=
  h.invariant (fun _ => closing_start) fun _ _ _ hs _ taken => hs.preserved taken

/-! ### What is left behind -/

theorem weight_zero_of_isEnded {weight : Local → ℕ} (ended : weight .ended = 0)
    (unstarted : weight .unstarted = 0) (h : l.isEnded = true) : weight l = 0 := by
  cases l with
  | unstarted => exact unstarted
  | ended => exact ended
  | _ => cases h

theorem load_zero_of_returned {weight : Local → ℕ} (ended : weight .ended = 0)
    (unstarted : weight .unstarted = 0) (returned : weight (.controller .returned) = 0)
    (h : Closing σ) (hlocal : σ.locals .controller = .controller .returned) :
    load weight σ.locals = 0 := by
  have hended := joined_iff.mp (h.closes.joined (by rw [hlocal]; rfl))
  refine load_eq_zero.mpr fun x => ?_
  obtain rfl | hx := eq_or_ne x .controller
  · rw [hlocal]
    exact returned
  · exact weight_zero_of_isEnded ended unstarted (hended x hx)

/-- Whoever holds a chapter owes a `task_done` for it, or has counted it as a pending retry. -/
theorem held_zero (l : Local) (owed : l.owed = 0) (announced : l.announced = 0) : l.held = 0 := by
  induction l with
  | unstarted | ended => rfl
  | worker phase =>
    cases phase with
    | getting => rfl
    | _ => cases owed
  | retry phase =>
    cases phase with
    | looking | asking | holding | locked | putting => cases announced
    | _ => rfl
  | controller phase =>
    cases phase with
    | promoted | putting => cases announced
    | _ => rfl
  | wanting next ih | drained next ih => exact ih owed announced
  | draining phase next ih => exact ih (Nat.eq_zero_of_add_eq_zero owed).1 (Nat.eq_zero_of_add_eq_zero announced).1

theorem Counted.idle (h : Counted σ) (unfinished : σ.shared.taskQueue.unfinishedTasks = 0)
    (pending : σ.shared.pendingRetries = 0) : σ.inPlay = 0 := by
  have hunfinished := h.unfinished
  have hpending := h.pending
  rw [unfinished] at hunfinished
  rw [pending] at hpending
  have htasks : σ.shared.taskQueue.items = [] := List.length_eq_zero_iff.mp (by omega)
  have hretries : σ.shared.retryQueue.items = [] := List.length_eq_zero_iff.mp (by omega)
  have howed : load Local.owed σ.locals = 0 := by omega
  have hannounced : load Local.announced σ.locals = 0 := by omega
  have hheld : load Local.held σ.locals = 0 := load_eq_zero.mpr fun x =>
    held_zero _ (load_eq_zero.mp howed x) (load_eq_zero.mp hannounced x)
  rw [State.inPlay, Shared.queued, htasks, hretries, hheld]
  rfl

theorem Effect.idle (effect : Effect batch σ.shared t (σ.locals x) m) (h : σ.inPlay = 0) :
    (⟨t, Function.update σ.locals x m⟩ : State W).inPlay = 0 := by
  have hmove := inPlay_run σ x t m
  have hnone : σ.shared.queued + (σ.locals x).held = 0 := by
    have hle := held_le_inPlay σ x
    rw [h] at hle
    exact Multiset.le_zero.mp hle
  cases effect with
  | moved same task failed =>
    rw [same, h] at hmove
    exact add_right_cancel hmove
  | settled i rest task failed done =>
    rw [hnone] at rest
    exact absurd rest.symm (Multiset.cons_ne_zero)
  | dropped i rest task failed stops =>
    rw [hnone] at rest
    exact absurd rest.symm (Multiset.cons_ne_zero)

theorem justified_of_reachable (h : (machine W batch).Reachable ok σ) (x : Thread W) :
    Justified σ.shared (σ.locals x) := by
  revert x
  refine h.invariant (I := fun σ => ∀ x, Justified σ.shared (σ.locals x)) ?_ ?_
  · intro σ hstart x
    obtain ⟨-, hcontroller, hothers⟩ := hstart
    obtain rfl | hx := eq_or_ne x .controller
    · rw [hcontroller]
      trivial
    · rw [hothers x hx]
      trivial
  · intro σ a τ hσ _ taken
    obtain ⟨x, -, -, -, rfl⟩ | ⟨x, outcome, t, m, -, hthread, rfl⟩ | ⟨-, rfl⟩ := step_run taken
    · refine (Function.forall_update_iff σ.locals fun _ => Justified σ.shared).mpr ⟨?_, fun y _ => hσ y⟩
      cases x <;> trivial
    · exact (Function.forall_update_iff σ.locals fun _ => Justified t).mpr
        ⟨thread_justified (hσ x) hthread, fun y _ => (hσ y).mono (thread_stops hthread)⟩
    · exact fun x => (hσ x).mono fun _ => .inr rfl

/-! ### Leaving the loop -/

/-- No worker counts a retry while the controller, which has read no pending retry, has yet to read the
unfinished tasks. -/
def NoHandOffBetweenReads (σ : State W) (a : Action W) : Prop :=
  ∀ x outcome i, a = .run x outcome → σ.locals x = .worker (.announcing i) →
    σ.locals .controller ≠ .controller (.counted 0)

theorem thread_pending (taken : threadStep batch started joined s outcome l = some (t, m)) :
    t.pendingRetries ≤ s.pendingRetries ∨ ∃ i, l = .worker (.announcing i) := by
  cases l with
  | unstarted | ended => cases taken
  | worker phase =>
    cases phase <;> simp only [threadStep, workerStep] at taken
    case announcing i => exact .inr ⟨i, rfl⟩
    case retrying =>
      split_ifs at taken
      cases taken
      exact .inl le_rfl
    case getting | deciding =>
      split at taken <;> (cases taken; exact .inl le_rfl)
    case processing =>
      split at taken
      · cases taken
        exact .inl le_rfl
      · split_ifs at taken
        cases taken
        exact .inl le_rfl
    all_goals
      cases taken
      exact .inl le_rfl
  | retry phase =>
    refine .inl ?_
    cases phase <;> simp only [threadStep, retryStep] at taken
    case getting =>
      split at taken <;> (cases taken; exact le_rfl)
    case holding =>
      split_ifs at taken
      cases taken
      exact le_rfl
    all_goals
      cases taken
      first | exact le_rfl | exact Nat.sub_le _ _
  | controller phase =>
    refine .inl ?_
    cases phase <;> simp only [threadStep, controllerStep] at taken
    case starting | joining | looping =>
      split_ifs at taken
      cases taken
      exact le_rfl
    case promoting =>
      split at taken <;> (cases taken; exact le_rfl)
    case returned => cases taken
    all_goals
      cases taken
      first | exact le_rfl | exact Nat.sub_le _ _
  | wanting next =>
    simp only [threadStep] at taken
    split_ifs at taken
    cases taken
    exact .inl le_rfl
  | draining phase next =>
    refine .inl ?_
    cases phase <;> simp only [threadStep, drainStep, Option.some_inj] at taken
    case tasks | retries =>
      split at taken <;> (cases taken; exact le_rfl)
    all_goals
      cases taken
      first | exact le_rfl | exact Nat.sub_le _ _
  | drained next =>
    cases taken
    exact .inl le_rfl

/-- What the controller knows when it has read no pending retry, and when it leaves its loop. -/
theorem controller_reads {phase phase' : ControllerPhase}
    (taken : controllerStep started joined s phase = some (t, .controller phase')) :
    (phase' = .counted 0 → t.pendingRetries = 0) ∧
      (phase' = .stopping → t = s ∧ phase = .counted 0 ∧ s.taskQueue.unfinishedTasks = 0) ∧
      t.runStop = s.runStop := by
  cases phase with
  | starting | looping =>
    simp only [controllerStep] at taken
    split_ifs at taken
    cases taken
    exact ⟨by simp, by simp, rfl⟩
  | joining =>
    simp only [controllerStep] at taken
    split_ifs at taken
    cases taken
  | promoting =>
    simp only [controllerStep] at taken
    split at taken <;> (cases taken; exact ⟨by simp, by simp, rfl⟩)
  | promoted | asking =>
    simp only [controllerStep, Option.some_inj, Prod.mk.injEq] at taken
    obtain ⟨rfl, hlocal⟩ := taken
    split_ifs at hlocal <;> (cases hlocal; exact ⟨by simp, by simp, rfl⟩)
  | checking =>
    cases taken
    exact ⟨fun h => ControllerPhase.counted.inj h, by simp, rfl⟩
  | counted pending =>
    simp only [controllerStep, Option.some_inj, Prod.mk.injEq] at taken
    obtain ⟨rfl, hlocal⟩ := taken
    split_ifs at hlocal with hwork
    · cases hlocal
      exact ⟨by simp, by simp, rfl⟩
    · cases hlocal
      have hunfinished : s.taskQueue.unfinishedTasks = 0 := by omega
      have hpending : pending = 0 := by omega
      exact ⟨by simp, fun _ => ⟨rfl, by rw [hpending], hunfinished⟩, rfl⟩
  | putting | marking | releasing | unlocking | resting =>
    cases taken
    exact ⟨by simp, by simp, rfl⟩
  | stopping | returned => cases taken

theorem controller_stop {phase : ControllerPhase}
    (taken : controllerStep started joined s phase = some (t, m)) (before : phase ≠ .stopping) :
    t.runStop = s.runStop := by
  cases phase with
  | starting | looping | joining =>
    simp only [controllerStep] at taken
    split_ifs at taken
    cases taken
    rfl
  | promoting =>
    simp only [controllerStep] at taken
    split at taken <;> (cases taken; rfl)
  | stopping => exact absurd rfl before
  | returned => cases taken
  | _ =>
    cases taken
    rfl

/-- Nothing is in play any more once the controller has left its loop. -/
structure Leaving (σ : State W) : Prop where
  counted : σ.locals .controller = .controller (.counted 0) → σ.shared.pendingRetries = 0
  left : σ.locals .controller = .controller .stopping → σ.inPlay = 0
  stopped : σ.shared.runStop = true → σ.inPlay = 0

theorem Leaving.other (h : Leaving σ) (closing : Closing σ) (effect : Effect batch σ.shared t (σ.locals x) m)
    (hx : x ≠ .controller)
    (allowed : σ.locals .controller = .controller (.counted 0) → t.pendingRetries ≤ σ.shared.pendingRetries)
    (taken : threadStep batch started joined σ.shared outcome (σ.locals x) = some (t, m)) :
    Leaving ⟨t, Function.update σ.locals x m⟩ := by
  have hkept : Function.update σ.locals x m .controller = σ.locals .controller :=
    Function.update_of_ne hx.symm _ _
  have hstop : t.runStop = σ.shared.runStop := by
    rcases thread_course taken with ⟨-, hstop⟩ | ⟨phase, hlocal, -⟩
    · exact hstop
    · have hnone := (closing.formed x).2 hx
      rw [hlocal] at hnone
      cases hnone
  refine ⟨fun hcontroller => ?_, fun hcontroller => ?_, fun hset => ?_⟩
  · dsimp only at hcontroller ⊢
    rw [hkept] at hcontroller
    have hzero := h.counted hcontroller
    have hle := allowed hcontroller
    omega
  · dsimp only at hcontroller
    rw [hkept] at hcontroller
    exact effect.idle (h.left hcontroller)
  · exact effect.idle (h.stopped (hstop ▸ hset))

/-- The controller comes to a phase from another one, or out of a drain. -/
theorem thread_arrives {phase : ControllerPhase} (apart : l.Apart)
    (taken : threadStep batch started joined s outcome l = some (t, .controller phase)) :
    (∃ phase', l = .controller phase' ∧
      controllerStep started joined s phase' = some (t, .controller phase)) ∨
      Local.Resumes (.controller phase) ∧ t.runStop = s.runStop := by
  rcases thread_course taken with ⟨hsame, hstop⟩ | ⟨phase', hlocal, hphase⟩
  · cases l with
    | controller phase' => exact .inl ⟨phase', rfl, taken⟩
    | unstarted | ended | worker | retry => cases hsame
    | wanting next =>
      simp only [threadStep] at taken
      split_ifs at taken
      cases taken
    | draining drainPhase next =>
      cases drainPhase <;> simp only [threadStep, drainStep, Option.some_inj] at taken
      case tasks | retries => split at taken <;> cases taken
      all_goals cases taken
    | drained next =>
      simp only [threadStep, Option.some_inj, Prod.mk.injEq] at taken
      obtain ⟨-, rfl⟩ := taken
      exact .inr ⟨apart, hstop⟩
  · exact .inl ⟨phase', hlocal, hphase⟩

theorem Leaving.control (h : Leaving σ) (closing : Closing σ) (counted : Counted σ)
    (effect : Effect batch σ.shared t (σ.locals .controller) m)
    (taken : threadStep batch started joined σ.shared outcome (σ.locals .controller) = some (t, m)) :
    Leaving ⟨t, Function.update σ.locals .controller m⟩ := by
  have hapart := (closing.formed .controller).1
  refine ⟨fun hcontroller => ?_, fun hcontroller => ?_, fun hset => ?_⟩
  · dsimp only at hcontroller ⊢
    rw [Function.update_self] at hcontroller
    subst hcontroller
    rcases thread_arrives hapart taken with ⟨phase', -, hphase⟩ | ⟨hresumes, -⟩
    · exact (controller_reads hphase).1 rfl
    · exact absurd hresumes id
  · dsimp only at hcontroller
    rw [Function.update_self] at hcontroller
    subst hcontroller
    rcases thread_arrives hapart taken with ⟨phase', hlocal, hphase⟩ | ⟨hresumes, -⟩
    · obtain ⟨-, hcounted, hunfinished⟩ := (controller_reads hphase).2.1 rfl
      subst hcounted
      exact effect.idle (counted.idle hunfinished (h.counted hlocal))
    · exact absurd hresumes id
  · -- the stop event is set at the phase after the loop
    rcases thread_course taken with ⟨-, hstop⟩ | ⟨phase, hlocal, hphase⟩
    · exact effect.idle (h.stopped (hstop ▸ hset))
    · obtain rfl | hne := eq_or_ne phase .stopping
      · exact effect.idle (h.left hlocal)
      · exact effect.idle (h.stopped ((controller_stop hphase hne) ▸ hset))

theorem Leaving.of_reachable (h : (machine W batch).Reachable NoHandOffBetweenReads σ) : Leaving σ := by
  refine h.invariant_under (J := fun σ => Closing σ ∧ Counted σ ∧ ∀ x, Justified σ.shared (σ.locals x))
    (fun _ hs => ⟨.of_reachable hs, .of_reachable hs, justified_of_reachable hs⟩) ?_ ?_
  · intro σ hstart
    obtain ⟨⟨stopRequested, hshared⟩, hcontroller, -⟩ := hstart
    exact ⟨by rw [hcontroller]; nofun, by rw [hcontroller]; nofun, by rw [hshared]; nofun⟩
  · intro σ a τ hknown hσ allowed taken
    obtain ⟨hclosing, hcounted, hjustified⟩ := hknown
    obtain ⟨x, -, hstarting, hlocal, rfl⟩ | ⟨x, outcome, t, m, rfl, hthread, rfl⟩ | ⟨-, rfl⟩ := step_run taken
    · have hx : x ≠ .controller := by
        rintro rfl
        rw [hstarting] at hlocal
        cases hlocal
      have hkept : Function.update σ.locals x x.first .controller = .controller .starting := by
        rw [Function.update_of_ne hx.symm, hstarting]
      refine ⟨fun hcontroller => ?_, fun hcontroller => ?_, fun hset => ?_⟩
      · dsimp only at hcontroller
        rw [hkept] at hcontroller
        cases hcontroller
      · dsimp only at hcontroller
        rw [hkept] at hcontroller
        cases hcontroller
      · rw [inPlay_start hlocal]
        exact hσ.stopped hset
    · have heffect := thread_effect (hjustified x) hthread
      obtain rfl | hx := eq_or_ne x .controller
      · exact hσ.control hclosing hcounted heffect hthread
      · refine hσ.other hclosing heffect hx (fun hcontroller => ?_) hthread
        rcases thread_pending hthread with hle | ⟨i, hlocal⟩
        · exact hle
        · exact absurd hcontroller (allowed x outcome i rfl hlocal)
    · exact ⟨hσ.counted, hσ.left, hσ.stopped⟩

theorem Accounted.of_reachable (why : Shared → Prop)
    (kept : ∀ {started joined s outcome l t m}, threadStep batch started joined s outcome l = some (t, m) →
      why s → why t)
    (requested : ∀ s : Shared, why s → why { s with stopRequested := true })
    (reason : ∀ σ : State W, (machine W batch).Reachable ok σ → σ.shared.Stops → σ.inPlay ≠ 0 → why σ.shared)
    (h : (machine W batch).Reachable ok σ) : Accounted why batch σ := by
  refine h.invariant_under (J := fun σ => (∀ x, Justified σ.shared (σ.locals x)) ∧
      (σ.shared.Stops → σ.inPlay ≠ 0 → why σ.shared))
    (fun σ hs => ⟨justified_of_reachable hs, reason σ hs⟩) (fun _ => accounted_start) ?_
  intro σ a τ hknown hσ _ taken
  obtain ⟨hjustified, hreason⟩ := hknown
  obtain ⟨x, -, -, hlocal, rfl⟩ | ⟨x, outcome, t, m, -, hthread, rfl⟩ | ⟨-, rfl⟩ := step_run taken
  · obtain ⟨settled, dropped, hsplit, hrest⟩ := hσ
    exact ⟨settled, dropped, by rw [inPlay_start hlocal, hsplit], hrest⟩
  · exact hσ.run (thread_effect (hjustified x) hthread) (kept hthread)
      fun hstops hplay => kept hthread (hreason hstops hplay)
  · obtain ⟨settled, dropped, hsplit, hsettled, hdropped⟩ := hσ
    exact ⟨settled, dropped, hsplit, hsettled, fun hne => requested _ (hdropped hne)⟩

theorem nodup_inPlay {why : Shared → Prop} (h : Accounted why batch σ) : σ.inPlay.Nodup := by
  obtain ⟨settled, dropped, hsplit, -⟩ := h
  have hle : σ.inPlay ≤ batch.chapters := hsplit ▸ Multiset.le_add_right _ _
  exact Multiset.nodup_of_le hle (Multiset.coe_nodup.mpr batch.distinct)

/-- What a run that has returned leaves. -/
theorem Closing.returned (h : Closing σ) (counted : Counted σ)
    (hlocal : σ.locals .controller = .controller .returned) :
    σ.inPlay = 0 ∧ σ.shared.taskQueue = ⟨[], 0⟩ ∧ σ.shared.retryQueue.items = [] ∧
      σ.shared.pendingRetries = 0 ∧ σ.shared.drainLock = false := by
  have hemptied := h.closes.emptied (by rw [hlocal]; rfl)
  rw [hlocal] at hemptied
  obtain ⟨htasks, hretries⟩ := hemptied
  have hunfinished := counted.unfinished
  have hpending := counted.pending
  have hlock := counted.lock
  rw [load_zero_of_returned rfl rfl rfl h hlocal, htasks] at hunfinished
  rw [load_zero_of_returned rfl rfl rfl h hlocal, hretries] at hpending
  rw [load_zero_of_returned rfl rfl rfl h hlocal] at hlock
  refine ⟨counted.idle hunfinished hpending, ?_, hretries, hpending, ?_⟩
  · cases htask : σ.shared.taskQueue with
    | mk items unfinishedTasks =>
      rw [htask] at htasks hunfinished
      cases htasks
      cases hunfinished
      rfl
  · cases hd : σ.shared.drainLock with
    | false => rfl
    | true => simp [hd] at hlock

theorem accounted_of_undisturbed (h : (machine W batch).Reachable NoHandOffBetweenReads σ) :
    Accounted (fun s => s.stopRequested = true) batch σ := by
  refine Accounted.of_reachable _ (fun taken hrequested => ?_) (fun _ _ => rfl) (fun σ hσ hstops hplay => ?_) h
  · exact (thread_flags taken).2.trans hrequested
  · rcases hstops with hset | hrequested
    · exact absurd ((Leaving.of_reachable hσ).stopped hset) hplay
    · exact hrequested

/-- A run never has one chapter in two hands. A run that returns has taken all its threads with it and
leaves nothing behind; a chapter it has not settled was put aside because a stop was requested, where no
retry is counted between the two reads of the controller. -/
theorem run_returns_clean (batch : Batch) :
    (∀ σ : State W, (machine W batch).Reachable Machine.free σ → σ.inPlay.Nodup ∧
      (σ.locals .controller = .controller .returned →
        (∀ x, x ≠ .controller → (σ.locals x).isEnded = true) ∧ σ.inPlay = 0 ∧
        σ.shared.taskQueue = ⟨[], 0⟩ ∧ σ.shared.retryQueue.items = [] ∧
        σ.shared.pendingRetries = 0 ∧ σ.shared.drainLock = false)) ∧
    ∀ σ : State W, (machine W batch).Reachable NoHandOffBetweenReads σ →
      σ.locals .controller = .controller .returned → σ.shared.stopRequested = false →
      ∀ i ∈ batch.chapters, Settled batch σ.shared i := by
  refine ⟨fun σ h => ⟨?_, fun hlocal => ?_⟩, fun σ h hlocal hrequested i hi => ?_⟩
  · exact nodup_inPlay (Accounted.of_reachable (fun _ => True) (fun _ _ => trivial)
      (fun _ _ => trivial) (fun _ _ _ _ => trivial) h)
  · have hclosing := Closing.of_reachable h
    have hended := joined_iff.mp (hclosing.closes.joined (by rw [hlocal]; rfl))
    exact ⟨hended, hclosing.returned (.of_reachable h) hlocal⟩
  · obtain ⟨settled, dropped, hsplit, hsettled, hdropped⟩ := accounted_of_undisturbed h
    obtain ⟨hempty, -⟩ := (Closing.of_reachable h).returned (.of_reachable h) hlocal
    have hnone : dropped = 0 := by
      by_contra hne
      rw [hdropped hne] at hrequested
      cases hrequested
    rw [hempty, hnone, zero_add, add_zero] at hsplit
    exact hsettled i (by rw [hsplit]; exact hi)

end Run

/-! ### A run that returns -/

def Local.isReturned : Local → Bool
  | .controller .returned => true
  | _ => false

theorem isReturned_iff : l.isReturned = true ↔ l = .controller .returned := by
  constructor
  · intro h
    unfold Local.isReturned at h
    split at h
    · rfl
    · cases h
  · rintro rfl
    rfl

/-- No worker counts its retry while the controller has read that none is counted. -/
def betweenReads (σ : State W) : Action W → Bool
  | .run x _ =>
    match σ.locals x, σ.locals .controller with
    | .worker (.announcing _), .controller (.counted 0) => false
    | _, _ => true
  | _ => true

theorem noHandOff_of_betweenReads (σ : State W) (a : Action W) (h : betweenReads σ a = true) :
    NoHandOffBetweenReads σ a := by
  rintro x outcome i rfl hworker hcontroller
  rw [betweenReads, hworker, hcontroller] at h
  cases h

theorem nodup_one : [1].Nodup := List.nodup_singleton 1

def secondTryBatch : Batch := ⟨[1], nodup_one, "retry", fun _ _ => .error⟩

def secondTryStart : State Unit :=
  ⟨newShared secondTryBatch false, fun x => if x = .controller then .controller .starting else .unstarted⟩

/-- The controller puts the chapter back, the second attempt succeeds, and the threads go home. -/
def secondTry : List (Action Unit) :=
  [.start (.worker ()), .run .controller none] ++ List.replicate 11 (.run (.worker ()) (some .error)) ++
    List.replicate 11 (.run .controller none) ++ List.replicate 6 (.run (.worker ()) (some .success)) ++
    List.replicate 11 (.run .controller none) ++ [.run (.worker ()) none] ++ List.replicate 5 (.run .controller none)

theorem exec_secondTry : (((machine Unit secondTryBatch).checked betweenReads).exec secondTryStart secondTry).any
    (fun σ => (σ.locals .controller).isReturned && (!σ.shared.stopRequested && σ.shared.attempts 1 = 2)) =
      true := by
  decide +kernel

theorem run_returns_clean_secondTry : ∃ σ : State Unit, σ.locals .controller = .controller .returned ∧
    σ.shared.attempts 1 = 2 ∧ σ.inPlay = 0 ∧ Settled secondTryBatch σ.shared 1 := by
  have hexec := exec_secondTry
  rw [Option.any_eq_true] at hexec
  obtain ⟨σ, hexec, hthere⟩ := hexec
  simp only [Bool.and_eq_true, Bool.not_eq_true', decide_eq_true_iff, isReturned_iff] at hthere
  obtain ⟨hreturned, hrequested, hattempts⟩ := hthere
  have hstart : (machine Unit secondTryBatch).start secondTryStart :=
    ⟨⟨false, rfl⟩, rfl, fun x hx => if_neg hx⟩
  have hreach := Machine.reachable_of_exec_checked secondTry noHandOff_of_betweenReads hstart hexec
  obtain ⟨hclean, hsettled⟩ := run_returns_clean (W := Unit) secondTryBatch
  have hempty := ((hclean σ hreach.free).2 hreturned).2.1
  exact ⟨σ, hreturned, hattempts, hempty, hsettled σ hreach hreturned hrequested 1 (by simp [secondTryBatch])⟩

end UniversityHelper.CancellableRun
