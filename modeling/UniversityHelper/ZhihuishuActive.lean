import UniversityHelper.ZhihuishuWorker

set_option linter.unusedSectionVars false

/-! An active task has a worker, unless a task that ended with an error was paused or resumed. -/
namespace UniversityHelper.Zhihuishu
variable {C : Type*} [DecidableEq C]

/-- `pause_task` and `resume_task` are not called while the current task is one that ended with
an error: they refuse completed and cancelled tasks only. -/
def NotOnError (s : State C) (a : Action C) : Prop :=
  a = .pauseTask ∨ a = .resumeTask → ∀ task, s.currentTask = some task → task.status ≠ .error

/-- The current task is active only as long as it is attended. -/
def Manned (s : State C) : Prop :=
  ∀ id task, s.current = some id → s.tasks id = some task → isActive task.status = true →
    s.attended id

theorem attended_goto_of_ne {s : State C} {id x : TaskId} {next : Worker} (hne : x ≠ id)
    (hatt : s.attended x) : (s.goto id next).attended x := by
  rcases hatt with hw | hc
  · left
    simp only [State.goto, Function.update_of_ne hne]
    exact hw
  · exact Or.inr hc

theorem attended_call_idle {s : State C} {c : C} {id x : TaskId}
    (pending : (s.caller c).pending = some id) (hne : x ≠ id) (hatt : s.attended x) :
    (s.call c .idle).attended x := by
  rcases hatt with hw | ⟨d, hd⟩
  · exact Or.inl hw
  · right
    have hdc : d ≠ c := by
      rintro rfl
      rw [pending, Option.some_inj] at hd
      exact hne hd.symm
    refine ⟨d, ?_⟩
    simp only [State.call, Function.update_of_ne hdc]
    exact hd

theorem currentTask_eq_some {s : State C} {id : TaskId} {task : Task} (current : s.current = some id)
    (found : s.tasks id = some task) : s.currentTask = some task := by
  rw [State.currentTask, current, Option.bind_some, found]

theorem manned_start {s : State C} (h : Start s) : Manned s := by
  intro id task hcur
  rw [h.1] at hcur
  cases hcur

theorem Manned.preserved {s t : State C} {a : Action C} (h : Manned s)
    (ok : NotOnError s a) (taken : step s a = some t) : Manned t := by
  intro x task hcur htask hactive
  cases step_effect taken with
  | outside current tasks nextId worker caller sent =>
    rw [attended_congr (fun id => by rw [worker]) caller]
    exact h x task (current ▸ hcur) (tasks ▸ htask) hactive
  | @reset _ id f current kind =>
    change s.attended x
    rcases tasks_modifyTask htask with ⟨rfl, old, hold, rfl⟩ | ⟨-, hold⟩
    · obtain ⟨-, ⟨hsame, -⟩ | ⟨-, hcompleted, hcancelled⟩⟩ := reset_task kind old
      · exact h x old hcur hold (hsame ▸ hactive)
      · have hcall : a = .pauseTask ∨ a = .resumeTask := kind.imp And.left And.left
        have herror := ok hcall old (currentTask_eq_some current hold)
        refine h x old hcur hold ?_
        cases hst : old.status with
        | running => exact isActive_iff.mpr (Or.inl rfl)
        | paused => exact isActive_iff.mpr (Or.inr rfl)
        | completed => exact absurd hst hcompleted
        | cancelled => exact absurd hst hcancelled
        | error => exact absurd hst herror
    · exact h x task hcur hold hactive
  | @cancelled _ id message loggedIn =>
    change s.attended x
    rcases tasks_modifyTask htask with ⟨rfl, old, hold, rfl⟩ | ⟨-, hold⟩
    · cases hactive
    · exact h x task hcur hold hactive
  | @installed c r videos ready free =>
    obtain rfl : s.nextId = x := Option.some_inj.mp hcur
    simp only [State.installTask, Function.update_self, Option.some_inj] at htask
    have hv : videos ≠ [] := by
      rintro rfl
      rw [← htask] at hactive
      cases hactive
    refine Or.inr ⟨c, ?_⟩
    simp [State.installTask, hv, Caller.pending]
  | @started _ c id starting =>
    have hatt := h x task hcur htask hactive
    by_cases hx : x = id
    · subst hx
      left
      simp [State.goto, Worker.alive]
    · exact attended_goto_of_ne hx (attended_call_idle (by rw [starting]; rfl) hx hatt)
  | @startMarked _ c id failed message =>
    rcases tasks_modifyTask htask with ⟨rfl, old, hold, rfl⟩ | ⟨hx, hold⟩
    · cases hactive
    · exact attended_call_idle (by rw [failed]; rfl) hx (h x task hcur hold hactive)
  | @worked _ id next before after sent move =>
    have hatt := h x task hcur htask hactive
    exact (attended_congr (alive_goto before after) (fun _ => rfl) x).mpr hatt
  | @progressed _ id old f next before after current found running keeps status outside =>
    have hid : id = x := Option.some_inj.mp (current.symm.trans hcur)
    subst hid
    left
    simp [State.goto, after]
  | @replaced _ id before other =>
    have hatt := h x task hcur htask hactive
    refine attended_goto_of_ne ?_ hatt
    rintro rfl
    rcases other with hother | hnone
    · exact hother hcur
    · exact absurd (htask.symm.trans hnone) (by simp)
  | @settled _ id f before keeps status =>
    rcases tasks_modifyTask htask with ⟨rfl, old, hold, rfl⟩ | ⟨hx, hold⟩
    · rw [(status old hold).1] at hactive
      cases hactive
    · exact attended_goto_of_ne hx (h x task hcur hold hactive)

theorem Manned.of_reachable {s : State C} (h : (machine C).Reachable NotOnError s) : Manned s :=
  h.invariant (fun _ => manned_start) fun _ _ _ hs ok taken => hs.preserved ok taken

/-- A finished task stays finished. -/
theorem finished_preserved {s t : State C} {a : Action C} (tracked : Tracked s) (ok : NotOnError s a)
    (taken : step s a = some t) {x : TaskId}
    (finished : ∃ task, s.tasks x = some task ∧ isActive task.status = false) :
    ∃ task, t.tasks x = some task ∧ isActive task.status = false := by
  obtain ⟨task, htask, hdone⟩ := finished
  have hmodify : ∀ (id : TaskId) (f : Task → Task), (x = id → isActive (f task).status = false) →
      ∃ task', (s.modifyTask id f).tasks x = some task' ∧ isActive task'.status = false := by
    intro id f hf
    by_cases hx : x = id
    · subst hx
      exact ⟨f task, by simp [State.modifyTask, htask], hf rfl⟩
    · exact ⟨task, by simp only [State.modifyTask, Function.update_of_ne hx]; exact htask, hdone⟩
  cases step_effect taken with
  | outside current tasks nextId worker caller sent => exact ⟨task, tasks ▸ htask, hdone⟩
  | @reset _ id f current kind =>
    refine hmodify id f fun hx => ?_
    subst hx
    obtain ⟨-, ⟨hsame, -⟩ | ⟨-, hcompleted, hcancelled⟩⟩ := reset_task kind task
    · rw [hsame]
      exact hdone
    · have herror := ok (kind.imp And.left And.left) task (currentTask_eq_some current htask)
      rcases not_active_iff.mp hdone with hst | hst | hst
      · exact absurd hst hcompleted
      · exact absurd hst hcancelled
      · exact absurd hst herror
  | @cancelled _ id message loggedIn =>
    exact hmodify id _ fun _ => not_active_iff.mpr (Or.inr (Or.inl rfl))
  | @installed c r videos ready free =>
    have hx : x ≠ s.nextId := by
      rintro rfl
      exact absurd (htask.symm.trans (tracked.fresh s.nextId (le_refl _)).1) (by simp)
    exact ⟨task, by simp only [State.installTask, Function.update_of_ne hx]; exact htask, hdone⟩
  | started starting => exact ⟨task, htask, hdone⟩
  | @startMarked _ c id failed message =>
    exact hmodify id _ fun _ => not_active_iff.mpr (Or.inr (Or.inr rfl))
  | worked before after move => exact ⟨task, htask, hdone⟩
  | @progressed _ id old f next before after current found running keeps status outside =>
    refine hmodify id f fun hx => ?_
    subst hx
    obtain rfl : old = task := Option.some_inj.mp (found.symm.trans htask)
    rcases not_active_iff.mp hdone with hst | hst | hst
    · exact absurd (Or.inl before) (tracked.ended x old htask (Or.inl hst))
    · rw [tracked.flagged x old htask hst] at running
      cases running
    · exact absurd (Or.inl before) (tracked.ended x old htask (Or.inr hst))
  | replaced before other => exact ⟨task, htask, hdone⟩
  | @settled _ id f before keeps status =>
    refine hmodify id f fun hx => ?_
    subst hx
    exact (status task htask).1

/-- Pausing or resuming a task that ended with an error makes it active again with nobody to
attend it. -/
theorem unmanned_of_reset {s t : State C} {a : Action C} (tracked : Tracked s)
    (taken : step s a = some t) (bad : ¬ NotOnError s a) :
    t.conflict = true ∧ ∃ id task, t.current = some id ∧ t.tasks id = some task ∧
      isActive task.status = true ∧ ¬ t.attended id := by
  simp only [NotOnError, not_forall, not_not] at bad
  obtain ⟨hcall, task, hcurrent, herror⟩ := bad
  obtain ⟨id, hid, htask⟩ := Option.bind_eq_some_iff.mp hcurrent
  have hnot := tracked.ended id task htask (Or.inr herror)
  obtain ⟨f, hactive, rfl⟩ : ∃ f : Task → Task, isActive (f task).status = true ∧
      t = s.modifyTask id f := by
    rcases hcall with rfl | rfl
    · refine ⟨pauseTask, ?_, ?_⟩
      · simp [pauseTask, herror]
      · simpa [step, State.modifyCurrent, hid] using taken.symm
    · refine ⟨resumeTask, ?_, ?_⟩
      · simp [resumeTask, herror]
      · simpa [step, State.modifyCurrent, hid] using taken.symm
  have hfound : (s.modifyTask id f).tasks id = some (f task) := by
    simp [State.modifyTask, htask]
  refine ⟨?_, id, f task, hid, hfound, hactive, hnot⟩
  rw [State.conflict, currentTask_eq_some (s := s.modifyTask id f) hid hfound, Option.any_some]
  exact hactive

/-- In every run that pauses and resumes no task after its error, an active current task is
attended, so that only attended tasks keep others from being started, and a finished task stays
finished; while every other pause or resume leaves an active task that nobody attends. -/
theorem active_task_attended :
    (∀ s : State C, (machine C).Reachable NotOnError s →
      Manned s ∧ (s.conflict = true → ∃ id, s.current = some id ∧ s.attended id) ∧
        ∀ t, (machine C).Run NotOnError s t → ∀ id,
          (∃ task, s.tasks id = some task ∧ isActive task.status = false) →
            ∃ task, t.tasks id = some task ∧ isActive task.status = false) ∧
    (∀ (s : State C) a t, (machine C).Reachable Machine.free s → step s a = some t →
      ¬ NotOnError s a → t.conflict = true ∧ ∃ id task, t.current = some id ∧
        t.tasks id = some task ∧ isActive task.status = true ∧ ¬ t.attended id) := by
  refine ⟨fun s h => ⟨Manned.of_reachable h, fun hconflict => ?_, fun t run id hdone => ?_⟩,
    fun s a t h taken bad => unmanned_of_reset (Tracked.of_reachable h) taken bad⟩
  · cases hcurrent : s.currentTask with
    | none => simp [State.conflict, hcurrent] at hconflict
    | some task =>
      rw [State.conflict, hcurrent, Option.any_some] at hconflict
      obtain ⟨id, hid, htask⟩ := Option.bind_eq_some_iff.mp hcurrent
      exact ⟨id, hid, Manned.of_reachable h id task hid htask hconflict⟩
  · have hkeep := run.keeps (I := fun u => (machine C).Reachable NotOnError u ∧
      ∃ task, u.tasks id = some task ∧ isActive task.status = false)
      (fun u a v hu ok taken => ⟨hu.1.tail ok taken,
        finished_preserved (Tracked.of_reachable hu.1) ok taken hu.2⟩) ⟨h, hdone⟩
    exact hkeep.2

def newAdapter : State Unit :=
  ⟨true, none, fun _ => none, 0, fun _ => .absent, fun _ => .idle, fun _ => 0⟩

def oneVideo : Video := ⟨"7", "Video 1", 60, 0, 0, 0, []⟩

def oneStart : StartRequest := ⟨"c", 1, true, none⟩

/-- The worker of the only task crashes, and then the task is resumed. -/
def crashAndResume : List (Action Unit) :=
  [.startCheck () oneStart, .loadVideos () (some [oneVideo]), .install (), .startThread () true,
    .crash 0 "boom", .markCrash 0, .resumeTask]

def resumedAfterCrash : State Unit :=
  ((machine Unit).exec newAdapter crashAndResume).getD newAdapter

theorem resumedAfterCrash_unattended :
    (machine Unit).Reachable Machine.free resumedAfterCrash ∧
      resumedAfterCrash.conflict = true ∧
      ∃ task, resumedAfterCrash.current = some 0 ∧ resumedAfterCrash.tasks 0 = some task ∧
        isActive task.status = true ∧ ¬ resumedAfterCrash.attended 0 := by
  refine ⟨Machine.reachable_of_exec (s := newAdapter) crashAndResume ⟨rfl, fun _ => rfl, fun _ => rfl, fun _ => rfl,
    fun _ => rfl⟩ rfl, rfl, _, rfl, rfl, rfl, ?_⟩
  rintro (hw | ⟨c, hc⟩)
  · cases hw
  · cases hc

end UniversityHelper.Zhihuishu
