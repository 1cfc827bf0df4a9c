import UniversityHelper.ZhihuishuActive

set_option linter.unusedSectionVars false

/-! Cancelling a task silences its worker, unless another task takes the current slot while the
worker is still playing a video. -/
namespace UniversityHelper.Zhihuishu
variable {C : Type*} [DecidableEq C]

/-- No task is installed over a cancelled one whose worker is still in phase 2. -/
def SlotReleased (s : State C) (a : Action C) : Prop :=
  ∀ c id task, a = .install c → s.conflict = false → s.current = some id → s.tasks id = some task →
    task.cancelled = true → (s.worker id).inPlayback = false

/-- A cancelled task whose worker plays a video is still the current one. -/
def SlotHeld (s : State C) : Prop :=
  ∀ id task, s.tasks id = some task → task.cancelled = true →
    (s.worker id).inPlayback = true → s.current = some id

/-- The program of a worker has a gate before its next request, if it has already sent one since
its task was cancelled. -/
def WatchOk (sent : ℕ) : Worker → Prop
  | .watching _ program => program.Gated (decide (sent = 0))
  | .waiting _ _ pass => pass.Gated true
  | .inFlight _ _ next => ∀ answer, (next answer).Gated false
  | _ => True

/-- At most one request was sent after the cancellation. -/
structure Quiet (s : State C) : Prop where
  gated : ∀ id, WatchOk (s.sentAfterCancel id) (s.worker id)
  once : ∀ id, s.sentAfterCancel id ≤ 1
  cancelled : ∀ id, s.sentAfterCancel id ≠ 0 → ∃ task, s.tasks id = some task ∧ task.cancelled = true

theorem inPlayback_alive {w : Worker} (h : w.inPlayback = true) : w.alive = true := by
  cases w <;> first | rfl | cases h

theorem isTaskCancelled_of_current {s : State C} {id : TaskId} {task : Task}
    (current : s.current = some id) (found : s.tasks id = some task) (cancelled : task.cancelled = true) :
    s.isTaskCancelled id = true := by
  rw [State.isTaskCancelled, currentTask_eq_some current found, Option.any_some]
  simp [current, cancelled]

theorem inPlayback_goto {s : State C} {id x : TaskId} {next : Worker}
    (within : next.inPlayback = true → (s.worker id).inPlayback = true)
    (h : ((s.goto id next).worker x).inPlayback = true) : (s.worker x).inPlayback = true := by
  by_cases hx : x = id
  · subst hx
    simp only [State.goto, Function.update_self] at h
    exact within h
  · simp only [State.goto, Function.update_of_ne hx] at h
    exact h

theorem slotHeld_start {s : State C} (h : Start s) : SlotHeld s := by
  intro id task htask
  rw [h.2.1 id] at htask
  cases htask

theorem SlotHeld.preserved {s t : State C} {a : Action C} (tracked : Tracked s) (h : SlotHeld s)
    (ok : SlotReleased s a) (taken : step s a = some t) : SlotHeld t := by
  intro x task htask hcancelled hplay
  -- a task whose flag the step did not set was cancelled before it
  have hmodified : ∀ (id : TaskId) (f : Task → Task), (s.modifyTask id f).tasks x = some task →
      (∀ old, s.tasks id = some old → (f old).cancelled = true → old.cancelled = true) →
        (s.worker x).inPlayback = true → s.current = some x := by
    intro id f hfound keeps hw
    rcases tasks_modifyTask hfound with ⟨rfl, old, hold, rfl⟩ | ⟨-, hold⟩
    · exact h x old hold (keeps old hold hcancelled) hw
    · exact h x task hold hcancelled hw
  cases step_effect taken with
  | outside current tasks nextId worker caller sent =>
    rw [current]
    exact h x task (tasks ▸ htask) hcancelled (worker ▸ hplay)
  | @reset _ id f current kind =>
    refine hmodified id f htask (fun old _ hc => ?_) hplay
    rw [← (reset_task kind old).1]
    exact hc
  | @cancelled _ id message loggedIn =>
    change s.current = some x
    rcases tasks_modifyTask htask with ⟨rfl, old, hold, rfl⟩ | ⟨-, hold⟩
    · cases hc : old.cancelled with
      | true => exact h x old hold hc hplay
      | false => exact tracked.shown x old hold (Or.inl (inPlayback_alive hplay)) hc
    · exact h x task hold hcancelled hplay
  | @installed c r videos ready free =>
    by_cases hx : x = s.nextId
    · rw [hx]
      rfl
    · simp only [State.installTask, Function.update_of_ne hx] at htask
      have hcur := h x task htask hcancelled hplay
      have hreleased := ok c x task rfl free hcur htask hcancelled
      change (s.worker x).inPlayback = true at hplay
      rw [hreleased] at hplay
      cases hplay
  | started starting =>
    exact h x task htask hcancelled (inPlayback_goto (fun hnext => by cases hnext) hplay)
  | @startMarked _ c id failed message => exact hmodified id _ htask (fun _ _ hc => hc) hplay
  | @worked _ id next before after sent move =>
    exact h x task htask hcancelled (inPlayback_goto (fun hnext => move.inPlayback hnext) hplay)
  | @progressed _ id old f next before after current found running keeps status outside =>
    by_cases hx : x = id
    · rw [hx]
      exact current
    · rcases tasks_modifyTask htask with ⟨hxid, -⟩ | ⟨-, hold⟩
      · exact absurd hxid hx
      · simp only [State.goto, Function.update_of_ne hx] at hplay
        exact h x task hold hcancelled hplay
  | @replaced _ id before other =>
    exact h x task htask hcancelled (inPlayback_goto (fun hnext => by cases hnext) hplay)
  | @settled _ id f before keeps status =>
    refine hmodified id f htask (fun old _ hc => ?_) (inPlayback_goto (fun hnext => by cases hnext) hplay)
    rw [← keeps old]
    exact hc

theorem SlotHeld.of_reachable {s : State C} (h : (machine C).Reachable SlotReleased s) :
    SlotHeld s :=
  h.invariant_under (fun _ => Tracked.of_reachable) (fun _ => slotHeld_start)
    fun _ _ _ hs hheld ok taken => hheld.preserved hs ok taken

theorem watchOk_of_outside {sent : ℕ} {w : Worker} (h : w.inWatch = false) : WatchOk sent w := by
  cases w <;> trivial

theorem gated_of_false {program : Watch} (h : program.Gated false) (passed : Bool) :
    program.Gated passed := by
  cases passed with
  | false => exact h
  | true => exact h.mono

theorem inWatch_of_outside {w : Worker} (h : w.inPlayback = false) : w.inWatch = false := by
  cases w <;> first | rfl | cases h

/-- One move of a worker keeps its program gated and sends nothing twice. -/
theorem watchMove_quiet {s : State C} (held : SlotHeld s) (h : Quiet s) {id : TaskId} {next : Worker}
    {sent : TaskId → ℕ} (move : WatchMove s id next sent) :
    WatchOk (sent id) next ∧ (∀ x, x ≠ id → sent x = s.sentAfterCancel x) ∧ sent id ≤ 1 ∧
      (sent id ≠ 0 → ∃ task, s.tasks id = some task ∧ task.cancelled = true) := by
  have hgated := h.gated id
  cases move with
  | outside left =>
    exact ⟨watchOk_of_outside (inWatch_of_outside left), fun _ _ => rfl, h.once id, h.cancelled id⟩
  | entered before =>
    exact ⟨gated_of_false (watchVideo_gated _ _ _) _, fun _ _ => rfl, h.once id, h.cancelled id⟩
  | gated before =>
    rw [before] at hgated
    exact ⟨hgated, fun _ _ => rfl, h.once id, h.cancelled id⟩
  | slept before =>
    rw [before] at hgated
    exact ⟨hgated, fun _ _ => rfl, h.once id, h.cancelled id⟩
  | polled before =>
    rw [before] at hgated
    exact ⟨hgated, fun _ _ => rfl, h.once id, h.cancelled id⟩
  | passed before uncancelled =>
    rw [before] at hgated
    refine ⟨?_, fun _ _ => rfl, h.once id, h.cancelled id⟩
    have hzero : s.sentAfterCancel id = 0 := by
      by_contra hne
      obtain ⟨task, htask, hcancelled⟩ := h.cancelled id hne
      have hcur := held id task htask hcancelled (by rw [before]; rfl)
      rw [isTaskCancelled_of_current hcur htask hcancelled] at uncancelled
      cases uncancelled
    rw [WatchOk, hzero]
    exact hgated
  | sent before =>
    rw [before] at hgated
    obtain ⟨hpassed, hnext⟩ := hgated
    have hzero : s.sentAfterCancel id = 0 := of_decide_eq_true hpassed
    refine ⟨hnext, fun x hx => ?_, ?_, fun hne => ?_⟩
    · simp only [State.countSent, Function.update_of_ne hx]
    · simp only [State.countSent, Function.update_self, hzero]
      split_ifs <;> omega
    · simp only [State.countSent, Function.update_self, hzero] at hne
      cases htask : s.tasks id with
      | none => simp [htask] at hne
      | some task =>
        refine ⟨task, rfl, ?_⟩
        by_contra hc
        simp [htask, hc] at hne
  | received answer before =>
    rw [before] at hgated
    exact ⟨gated_of_false (hgated answer) _, fun _ _ => rfl, h.once id, h.cancelled id⟩

theorem quiet_start {s : State C} (h : Start s) : Quiet s := by
  obtain ⟨-, -, hworker, -, hsent⟩ := h
  refine ⟨fun id => ?_, fun id => ?_, fun id hne => absurd (hsent id) hne⟩
  · rw [hworker id]
    trivial
  · rw [hsent id]
    exact Nat.zero_le _

theorem cancelled_modifyTask {s : State C} {id x : TaskId} {f : Task → Task}
    (keeps : ∀ task, s.tasks id = some task → task.cancelled = true → (f task).cancelled = true)
    (h : ∃ task, s.tasks x = some task ∧ task.cancelled = true) :
    ∃ task, (s.modifyTask id f).tasks x = some task ∧ task.cancelled = true := by
  obtain ⟨task, htask, hcancelled⟩ := h
  by_cases hx : x = id
  · subst hx
    exact ⟨f task, by simp [State.modifyTask, htask], keeps task htask hcancelled⟩
  · exact ⟨task, by simp only [State.modifyTask, Function.update_of_ne hx]; exact htask, hcancelled⟩

theorem watchOk_goto {s : State C} (h : Quiet s) {id : TaskId} {next : Worker}
    (outside : next.inWatch = false) (x : TaskId) :
    WatchOk (s.sentAfterCancel x) ((s.goto id next).worker x) := by
  by_cases hx : x = id
  · subst hx
    simp only [State.goto, Function.update_self]
    exact watchOk_of_outside outside
  · simp only [State.goto, Function.update_of_ne hx]
    exact h.gated x

theorem Quiet.preserved {s t : State C} {a : Action C} (tracked : Tracked s) (held : SlotHeld s)
    (h : Quiet s) (taken : step s a = some t) : Quiet t := by
  cases step_effect taken with
  | outside current tasks nextId worker caller sent =>
    refine ⟨fun x => ?_, fun x => ?_, fun x => ?_⟩
    · rw [worker, sent]
      exact h.gated x
    · rw [sent]
      exact h.once x
    · rw [sent, tasks]
      exact h.cancelled x
  | @reset _ id f current kind =>
    refine ⟨h.gated, h.once, fun x hne => cancelled_modifyTask (fun task _ hc => ?_) (h.cancelled x hne)⟩
    rw [(reset_task kind task).1]
    exact hc
  | cancelled message loggedIn =>
    exact ⟨h.gated, h.once, fun x hne => cancelled_modifyTask (fun _ _ _ => rfl) (h.cancelled x hne)⟩
  | @installed c r videos ready free =>
    refine ⟨h.gated, h.once, fun x hne => ?_⟩
    obtain ⟨task, htask, hcancelled⟩ := h.cancelled x hne
    have hx : x ≠ s.nextId := by
      rintro rfl
      exact absurd (htask.symm.trans (tracked.fresh s.nextId (le_refl _)).1) (by simp)
    exact ⟨task, by simp only [State.installTask, Function.update_of_ne hx]; exact htask, hcancelled⟩
  | started starting => exact ⟨watchOk_goto h rfl, h.once, h.cancelled⟩
  | startMarked failed message =>
    exact ⟨h.gated, h.once, fun x hne => cancelled_modifyTask (fun _ _ hc => hc) (h.cancelled x hne)⟩
  | @worked _ id next before after sent move =>
    obtain ⟨hok, hother, honce, hcancelled⟩ := watchMove_quiet held h move
    refine ⟨fun x => ?_, fun x => ?_, fun x => ?_⟩
    · by_cases hx : x = id
      · subst hx
        simp only [State.goto, Function.update_self]
        exact hok
      · simp only [State.goto, Function.update_of_ne hx, hother x hx]
        exact h.gated x
    · by_cases hx : x = id
      · subst hx
        exact honce
      · dsimp only
        rw [hother x hx]
        exact h.once x
    · by_cases hx : x = id
      · subst hx
        exact hcancelled
      · dsimp only
        rw [hother x hx]
        exact h.cancelled x
  | @progressed _ id task f next before after current found running keeps status outside =>
    refine ⟨watchOk_goto h outside, h.once, fun x hne =>
      cancelled_modifyTask (fun old hold hc => ?_) (h.cancelled x hne)⟩
    obtain rfl : task = old := Option.some_inj.mp (found.symm.trans hold)
    rw [running] at hc
    cases hc
  | replaced before other => exact ⟨watchOk_goto h rfl, h.once, h.cancelled⟩
  | settled before keeps status =>
    refine ⟨watchOk_goto h rfl, h.once, fun x hne =>
      cancelled_modifyTask (fun task _ hc => ?_) (h.cancelled x hne)⟩
    rw [keeps task]
    exact hc

theorem Quiet.of_reachable {s : State C} (h : (machine C).Reachable SlotReleased s) : Quiet s :=
  h.invariant_under (fun _ hs => And.intro (Tracked.of_reachable hs) (SlotHeld.of_reachable hs))
    (fun _ => quiet_start) fun _ _ _ hs hquiet _ taken => hquiet.preserved hs.1 hs.2 taken

/-- In every run that installs no task over a cancelled one whose worker still plays a video, the
callback of a cancelled task tells its worker so, and the worker sends at most one more request;
while every other installation makes the callback of the cancelled task answer no. -/
theorem cancelled_task_silenced :
    (∀ s : State C, (machine C).Reachable SlotReleased s → ∀ id task, s.tasks id = some task →
      task.cancelled = true → ((s.worker id).inPlayback = true → s.isTaskCancelled id = true) ∧
        s.sentAfterCancel id ≤ 1) ∧
    (∀ (s : State C) a t, (machine C).Reachable Machine.free s → step s a = some t →
      ¬ SlotReleased s a → ∃ id task, t.tasks id = some task ∧ task.cancelled = true ∧
        (t.worker id).inPlayback = true ∧ t.isTaskCancelled id = false) := by
  refine ⟨fun s h id task htask hcancelled => ⟨fun hplay => ?_, (Quiet.of_reachable h).once id⟩,
    fun s a t h taken bad => ?_⟩
  · have hcur := SlotHeld.of_reachable h id task htask hcancelled hplay
    exact isTaskCancelled_of_current hcur htask hcancelled
  · simp only [SlotReleased, not_forall] at bad
    obtain ⟨c, id, task, rfl, hfree, hcur, htask, hcancelled, hplay⟩ := bad
    have hknown := (Tracked.of_reachable h).fresh s.nextId (le_refl _)
    have hid : id ≠ s.nextId := by
      rintro rfl
      exact absurd (htask.symm.trans hknown.1) (by simp)
    simp only [step] at taken
    split at taken
    · rename_i r videos hcaller
      rw [hfree, if_neg Bool.false_ne_true] at taken
      cases taken
      have hplay' : (s.worker id).inPlayback = true := by simpa using hplay
      refine ⟨id, task, ?_, hcancelled, hplay', ?_⟩
      · simp only [State.installTask, Function.update_of_ne hid]
        exact htask
      · have hother : s.nextId ≠ id := hid.symm
        simp [State.isTaskCancelled, State.installTask, hother]
    · cases taken

def otherStart : StartRequest := ⟨"d", 1, true, none⟩

/-- The worker of the first task is inside `watch_video`; the task is cancelled and another
course started; then the worker asks twice, and sends its next request. -/
def cancelAndRestart : List (Action Unit) :=
  [.startCheck () oneStart, .loadVideos () (some [oneVideo]), .install (), .startThread () true,
    .decide 0, .enter 0, .advance 0, .cancelTask, .startCheck () otherStart,
    .loadVideos () (some [oneVideo]), .install ()]

def restarted : State Unit :=
  ((machine Unit).exec newAdapter cancelAndRestart).getD newAdapter

/-- Two requests of the cancelled task go out after the restart. -/
def goesOn : List (Action Unit) :=
  [.pollCancelled 0, .pollPaused 0, .pollCancelled 0, .send 0,
    .receive 0 (.ok ⟨.prelearningNote, (some 0, some 0)⟩), .advance 0,
    .pollCancelled 0, .pollPaused 0, .pollCancelled 0, .send 0]

/-- The callback of the cancelled task answers no while its worker plays a video, and the worker
then sends two more requests. -/
theorem restarted_not_silenced :
    (machine Unit).Reachable Machine.free restarted ∧
      (restarted.tasks 0).any Task.cancelled = true ∧
      (restarted.worker 0).inPlayback = true ∧ restarted.isTaskCancelled 0 = false ∧
      ∃ t, (machine Unit).exec restarted goesOn = some t ∧ t.sentAfterCancel 0 = 2 :=
  ⟨Machine.reachable_of_exec (s := newAdapter) cancelAndRestart
    ⟨rfl, fun _ => rfl, fun _ => rfl, fun _ => rfl, fun _ => rfl⟩ rfl,
    rfl, rfl, rfl, _, rfl, rfl⟩

end UniversityHelper.Zhihuishu
