import UniversityHelper.RecordedRun
import UniversityHelper.ZhihuishuWorker

set_option linter.unusedSectionVars false

/-! The calls of `watch_video` that the workers make, and what a step of the adapter does to a task,
its worker and the calls of the worker. -/
namespace UniversityHelper.Zhihuishu
variable {C : Type*} [DecidableEq C]

/-- How a call of `watch_video` ended. -/
inductive Outcome
  | returned (ok : Bool)
  | raised (message : String)
  deriving DecidableEq

structure Call where
  video : Video
  outcome : Option Outcome

def Call.succeeded (call : Call) : Bool := call.outcome = some (.returned true)

/-- The call returned false or raised. -/
def Call.failed (call : Call) : Bool := call.outcome ≠ none && !call.succeeded

/-- The calls of `watch_video` that each worker made, in their order. -/
abbrev History := TaskId → List Call

def History.empty : History := fun _ => []

def History.hand (h : History) (id : TaskId) (video : Video) : History :=
  Function.update h id (h id ++ [⟨video, none⟩])

/-- The last call ends. -/
def settleLast (outcome : Outcome) (calls : List Call) : List Call :=
  calls.modifyLast fun call => { call with outcome := some outcome }

def History.settle (h : History) (id : TaskId) (outcome : Outcome) : History :=
  Function.update h id (settleLast outcome (h id))

/-- `watch_video` is called in `enter`, and not without `self.learning`; it ends where its program
does, in a request that raises, or with `False` where it finds its task cancelled. -/
def noteCall (s : State C) (a : Action C) (h : History) : History :=
  match a with
  | .enter id =>
    match s.worker id with
    | .entering _ video _ _ => if s.loggedIn = true then h.hand id video else h
    | _ => h
  | .advance id =>
    match s.worker id with
    | .watching _ (.finish ok) => h.settle id (.returned ok)
    | .watching _ (.raise message) => h.settle id (.raised message)
    | _ => h
  | .pollCancelled id => if s.isTaskCancelled id = true then h.settle id (.returned false) else h
  | .receive id (.error message) => h.settle id (.raised message)
  | _ => h

def recordedMachine (C : Type*) [DecidableEq C] : Machine (State C × History) (Action C) :=
  (machine C).recording History.empty noteCall

/-- `current_index` of the worker. -/
def Worker.index : Worker → Option ℕ
  | .absent | .crashed _ | .returned => none
  | .deciding index => some index
  | .entering index _ _ _ => some index
  | .watching index _ => some index
  | .waiting index _ _ => some index
  | .inFlight index _ _ => some index
  | .checking index _ _ => some index
  | .recording index _ _ => some index

/-- The videos as they were loaded, in their order. -/
def Task.playlist (task : Task) : List Video := task.videos.map VideoItem.video

/-! ### What a step does to the accounts of one task -/

/-- Neither the videos nor the counters change. -/
structure Keeps (old task : Task) : Prop where
  total : task.total = old.total
  playlist : task.playlist = old.playlist
  completed : task.completed = old.completed
  failed : task.failed = old.failed
  percentage : task.percentage = old.percentage

theorem Keeps.refl (task : Task) : Keeps task task := ⟨rfl, rfl, rfl, rfl, rfl⟩

/-- The worker is inside `watch_video`, for the video at `index`. -/
inductive InWatch : ℕ → Worker → Prop
  | watching {index : ℕ} {program : Watch} : InWatch index (.watching index program)
  | waiting {index : ℕ} {gate : Gate} {pass : Watch} : InWatch index (.waiting index gate pass)
  | inFlight {index : ℕ} {r : Request} {next : r.Answer → Watch} : InWatch index (.inFlight index r next)

/-- What a step makes of a task, its worker and the calls of the worker. -/
inductive Turn (old : Task) (worker : Worker) (calls : List Call) : Task → Worker → List Call → Prop
  | same {task : Task} (keeps : Keeps old task) : Turn old worker calls task worker calls
  | started (absent : worker = .absent) : Turn old worker calls old (.deciding 0) calls
  | left {task : Task} {next : Worker} (keeps : Keeps old task) (noIndex : next.index = none)
      (present : next ≠ .absent) : Turn old worker calls task next calls
  | finished {index : ℕ} (before : worker = .deciding index) :
      Turn old worker calls (finishTask old) .returned calls
  | picked {task : Task} {index : ℕ} {item : VideoItem} {speed : ℚ} {autoAnswer : Bool} (keeps : Keeps old task)
      (before : worker = .deciding index) (item_eq : old.videos[index]? = some item) :
      Turn old worker calls task (.entering index item.video speed autoAnswer) calls
  | entered {index : ℕ} {video : Video} {speed : ℚ} {autoAnswer : Bool} {program : Watch}
      (before : worker = .entering index video speed autoAnswer) :
      Turn old worker calls old (.watching index program) (calls ++ [⟨video, none⟩])
  | watched {index : ℕ} {next : Worker} (before : InWatch index worker) (after : InWatch index next) :
      Turn old worker calls old next calls
  | ended {index : ℕ} {ok : Bool} {error : Option String} {outcome : Outcome}
      (before : InWatch index worker) (result : ok = true ↔ outcome = .returned true) :
      Turn old worker calls old (.checking index ok error) (settleLast outcome calls)
  | checked {index : ℕ} {ok : Bool} {error : Option String} (before : worker = .checking index ok error) :
      Turn old worker calls old (.recording index ok error) calls
  | recorded {index : ℕ} {ok : Bool} {error : Option String} (before : worker = .recording index ok error) :
      Turn old worker calls (recordVideo index ok error old) (.deciding (index + 1)) calls

variable {s t : State C} {h h' : History} {id x : TaskId} {old : Task}

/-- The accounts of the task with this id take a turn. -/
def Takes (s : State C) (h : History) (t : State C) (h' : History) (id : TaskId) : Prop :=
  ∀ old, s.tasks id = some old →
    ∃ task, t.tasks id = some task ∧ Turn old (s.worker id) (h id) task (t.worker id) (h' id)

theorem takes_untouched (tasks : t.tasks id = s.tasks id) (worker : t.worker id = s.worker id)
    (calls : h' id = h id) : Takes s h t h' id := by
  intro old hold
  refine ⟨old, tasks.trans hold, ?_⟩
  rw [worker, calls]
  exact .same (.refl old)

/-- A call of the page changes neither videos nor counters. -/
theorem takes_modifyTask {f : Task → Task} (keeps : ∀ task, Keeps task (f task)) :
    Takes s h (s.modifyTask id f) h x := by
  intro old hold
  by_cases hx : x = id
  · subst hx
    refine ⟨f old, ?_, .same (keeps old)⟩
    simp [State.modifyTask, hold]
  · have hother : Takes s h (s.modifyTask id f) h x :=
      takes_untouched (by simp [State.modifyTask, hx]) rfl rfl
    exact hother old hold

theorem takes_modifyCurrent {f : Task → Task} (keeps : ∀ task, Keeps task (f task)) :
    Takes s h (s.modifyCurrent f) h x := by
  unfold State.modifyCurrent
  split
  · exact takes_modifyTask keeps
  · exact takes_untouched rfl rfl rfl

/-- A worker moves and leaves its task as it is. -/
theorem takes_goto {next : Worker} (calls : ∀ x, x ≠ id → h' x = h x)
    (turn : ∀ old, Turn old (s.worker id) (h id) old next (h' id)) : Takes s h (s.goto id next) h' x := by
  intro old hold
  by_cases hx : x = id
  · subst hx
    refine ⟨old, hold, ?_⟩
    simpa [State.goto] using turn old
  · have hother : Takes s h (s.goto id next) h' x :=
      takes_untouched rfl (by simp [State.goto, hx]) (calls x hx)
    exact hother old hold

/-- A worker moves and changes its task. -/
theorem takes_modify_goto {f : Task → Task} {next : Worker}
    (turn : ∀ old, s.tasks id = some old → Turn old (s.worker id) (h id) (f old) next (h id)) :
    Takes s h ((s.modifyTask id f).goto id next) h x := by
  intro old hold
  by_cases hx : x = id
  · subst hx
    refine ⟨f old, by simp [State.goto, State.modifyTask, hold], ?_⟩
    simpa [State.goto] using turn old hold
  · have hother : Takes s h ((s.modifyTask id f).goto id next) h x :=
      takes_untouched (by simp [State.goto, State.modifyTask, hx])
        (by simp [State.goto, State.modifyTask, hx]) rfl
    exact hother old hold

theorem takes_returned : Takes s h (s.goto id .returned) h x :=
  takes_goto (fun _ _ => rfl) fun old => .left (.refl old) rfl (by simp)

theorem takes_unlessCancelled {next : State C} (hnext : Takes s h next h x) :
    Takes s h (s.unlessCancelled id next) h x := by
  unfold State.unlessCancelled
  split
  · exact takes_returned
  · split_ifs
    · exact takes_returned
    · exact takes_modify_goto fun old _ => .left ⟨rfl, rfl, rfl, rfl, rfl⟩ rfl (by simp)
    · exact hnext

theorem pauseTask_keeps (task : Task) : Keeps task (pauseTask task) := by
  unfold pauseTask
  split_ifs
  · exact .refl task
  · exact ⟨rfl, rfl, rfl, rfl, rfl⟩

theorem resumeTask_keeps (task : Task) : Keeps task (resumeTask task) := by
  unfold resumeTask
  split_ifs
  · exact .refl task
  · exact ⟨rfl, rfl, rfl, rfl, rfl⟩

theorem set_playlist {videos : List VideoItem} {index : ℕ} {item item' : VideoItem}
    (hitem : videos[index]? = some item) (hvideo : item'.video = item.video) :
    (videos.set index item').map VideoItem.video = videos.map VideoItem.video := by
  obtain ⟨hlt, rfl⟩ := List.getElem?_eq_some_iff.mp hitem
  rw [List.map_set, hvideo, ← List.getElem_map VideoItem.video (h := by simpa using hlt)]
  exact List.set_getElem_self _

theorem takes_decide {index : ℕ} (before : s.worker id = .deciding index) :
    Takes s h (s.decideVideo id index) h x := by
  unfold State.decideVideo
  split
  · exact takes_returned
  rename_i task found
  by_cases hcurrent : s.current = some id
  case neg =>
    rw [if_pos hcurrent]
    exact takes_returned
  rw [if_neg (not_not.mpr hcurrent)]
  by_cases hcancelled : task.cancelled = true
  case pos =>
    rw [if_pos hcancelled]
    exact takes_modify_goto fun old _ => .left ⟨rfl, rfl, rfl, rfl, rfl⟩ rfl (by simp)
  rw [if_neg hcancelled]
  cases hitem : task.videos[index]? with
  | none => exact takes_modify_goto fun old _ => .finished before
  | some item =>
    by_cases hpaused : task.paused = true
    · simp only [if_pos hpaused]
      refine takes_modify_goto fun old _ => ?_
      rw [← before]
      exact .same ⟨rfl, rfl, rfl, rfl, rfl⟩
    · simp only [if_neg hpaused]
      refine takes_modify_goto fun old hold => ?_
      obtain rfl : task = old := Option.some_inj.mp (found.symm.trans hold)
      exact .picked ⟨rfl, set_playlist hitem rfl, rfl, rfl, rfl⟩ before hitem

theorem settle_other {outcome : Outcome} (hx : x ≠ id) : h.settle id outcome x = h x := by
  simp [History.settle, hx]

theorem settle_own {outcome : Outcome} : h.settle id outcome id = settleLast outcome (h id) := by
  simp [History.settle]

theorem takes_ended {index : ℕ} {ok : Bool} {error : Option String} {outcome : Outcome}
    (before : InWatch index (s.worker id)) (result : ok = true ↔ outcome = .returned true) :
    Takes s h (s.goto id (.checking index ok error)) (h.settle id outcome) x := by
  refine takes_goto (fun _ hx => settle_other hx) fun old => ?_
  rw [settle_own]
  exact .ended before result

theorem takes_watched {index : ℕ} {next : Worker} (before : InWatch index (s.worker id))
    (after : InWatch index next) : Takes s h (s.goto id next) h x :=
  takes_goto (fun _ _ => rfl) fun _ => .watched before after

theorem takes_enter {index : ℕ} {video : Video} {speed : ℚ} {autoAnswer : Bool} {program : Watch}
    (before : s.worker id = .entering index video speed autoAnswer) :
    Takes s h (s.goto id (.watching index program)) (h.hand id video) x := by
  refine takes_goto (fun y hy => by simp [History.hand, hy]) fun old => ?_
  simp only [History.hand, Function.update_self]
  exact .entered before

theorem takes_advance {index : ℕ} {program : Watch} {next : Worker}
    (before : s.worker id = .watching index program) (h : History)
    (hnext : advanceWatch index program = some next) :
    Takes s h (s.goto id next) (noteCall s (.advance id) h) x := by
  have hin : InWatch index (s.worker id) := before ▸ .watching
  cases program with
  | finish ok =>
    cases hnext
    simp only [noteCall, before]
    exact takes_ended hin (by simp)
  | raise message =>
    cases hnext
    simp only [noteCall, before]
    exact takes_ended hin (by simp)
  | gate pass =>
    cases hnext
    simp only [noteCall, before]
    exact takes_watched hin .waiting
  | sleep rest =>
    cases hnext
    simp only [noteCall, before]
    exact takes_watched hin .watching
  | request r next => cases hnext

theorem takes_pollCancelled {index : ℕ} {gate : Gate} {pass : Watch} {next : Worker}
    (before : s.worker id = .waiting index gate pass) (h : History)
    (hnext : afterPoll index pass (s.isTaskCancelled id) gate = some next) :
    Takes s h (s.goto id next) (noteCall s (.pollCancelled id) h) x := by
  have hin : InWatch index (s.worker id) := before ▸ .waiting
  by_cases hcancelled : s.isTaskCancelled id = true
  · have hchecking : next = .checking index false none := by
      cases gate <;> simp_all [afterPoll]
    rw [hchecking, noteCall, if_pos hcancelled]
    exact takes_ended hin (by simp)
  · have hstays : InWatch index next := by
      rw [Bool.not_eq_true] at hcancelled
      cases gate <;> simp only [afterPoll, hcancelled, Option.some.injEq, reduceCtorEq] at hnext
      all_goals
        subst hnext
        first | exact .waiting | exact .watching
    rw [noteCall, if_neg hcancelled]
    exact takes_watched hin hstays

/-- Once a start was checked the adapter is signed in, and stays so where nobody logs out. -/
def SignedIn (s : State C) : Prop :=
  s.loggedIn = true ∨ (∀ c, s.caller c = .idle) ∧ ∀ id, s.worker id = .absent

theorem step_takes {a : Action C} (tracked : Tracked s) (signed : SignedIn s)
    (taken : step s a = some t) : Takes s h t (noteCall s a h) x := by
  cases a with
  | login =>
    cases taken
    exact takes_untouched rfl rfl rfl
  | logout =>
    cases taken
    exact takes_modifyCurrent fun _ => ⟨rfl, rfl, rfl, rfl, rfl⟩
  | startCheck c r =>
    simp only [step] at taken
    split at taken
    · cases taken
      split_ifs <;> exact takes_untouched rfl rfl rfl
    · cases taken
  | loadVideos c videos =>
    simp only [step] at taken
    split at taken
    · cases taken
      exact takes_untouched rfl rfl rfl
    · cases taken
      exact takes_untouched rfl rfl rfl
    · cases taken
  | install c =>
    simp only [step] at taken
    split at taken
    · cases taken
      split_ifs
      · exact takes_untouched rfl rfl rfl
      · intro old hold
        have hx : x ≠ s.nextId := by
          rintro rfl
          rw [(tracked.fresh s.nextId (le_refl _)).1] at hold
          cases hold
        exact ⟨old, by simpa [State.installTask, hx] using hold, .same (.refl old)⟩
    · cases taken
  | startThread c ok =>
    simp only [step] at taken
    split at taken
    · rename_i id hc
      cases taken
      split_ifs
      · have habsent : s.worker id = .absent := tracked.unstarted c id (by rw [hc]; rfl)
        exact takes_goto (s := s.call c .idle) (fun _ _ => rfl) fun _ => .started habsent
      · exact takes_untouched rfl rfl rfl
    · cases taken
  | markStartError c =>
    simp only [step] at taken
    split at taken
    · cases taken
      exact takes_modifyTask (s := s.call c .idle) fun _ => ⟨rfl, rfl, rfl, rfl, rfl⟩
    · cases taken
  | pauseTask =>
    cases taken
    exact takes_modifyCurrent pauseTask_keeps
  | resumeTask =>
    cases taken
    exact takes_modifyCurrent resumeTask_keeps
  | cancelTask =>
    cases taken
    exact takes_modifyCurrent fun _ => ⟨rfl, rfl, rfl, rfl, rfl⟩
  | cancelTaskById id =>
    cases taken
    exact takes_modifyTask fun _ => ⟨rfl, rfl, rfl, rfl, rfl⟩
  | decide id =>
    simp only [step] at taken
    split at taken
    · rename_i hw
      cases taken
      exact takes_decide hw
    · cases taken
  | enter id =>
    simp only [step] at taken
    split at taken
    · rename_i hw
      cases taken
      rcases signed with hlogged | ⟨-, habsent⟩
      · simp only [noteCall, hw, hlogged, if_true]
        exact takes_enter hw
      · rw [habsent id] at hw
        cases hw
    · cases taken
  | advance id =>
    simp only [step] at taken
    split at taken
    · rename_i hw
      obtain ⟨next, hnext, rfl⟩ := Option.map_eq_some_iff.mp taken
      exact takes_advance hw h hnext
    · cases taken
  | pollCancelled id =>
    simp only [step] at taken
    split at taken
    · rename_i hw
      obtain ⟨next, hnext, rfl⟩ := Option.map_eq_some_iff.mp taken
      exact takes_pollCancelled hw h hnext
    · cases taken
  | pollPaused id =>
    simp only [step] at taken
    split at taken
    · rename_i hw
      cases taken
      exact takes_watched (hw ▸ .waiting) .waiting
    · cases taken
  | send id =>
    simp only [step] at taken
    split at taken
    · rename_i hw
      cases taken
      exact takes_watched (s := s) (hw ▸ .watching) .inFlight
    · cases taken
  | receive id answer =>
    simp only [step] at taken
    split at taken
    · rename_i hw
      cases taken
      exact takes_ended (hw ▸ .inFlight) (by simp)
    · rename_i hw
      split_ifs at taken with hr
      cases taken
      exact takes_watched (hw ▸ .inFlight) .watching
    · cases taken
  | check id =>
    simp only [step] at taken
    split at taken
    · rename_i hw
      cases taken
      exact takes_unlessCancelled (takes_goto (fun _ _ => rfl) fun _ => .checked hw)
    · cases taken
  | record id =>
    simp only [step] at taken
    split at taken
    · rename_i hw
      cases taken
      exact takes_unlessCancelled (takes_modify_goto fun _ _ => .recorded hw)
    · cases taken
  | crash id message =>
    simp only [step] at taken
    split_ifs at taken
    cases taken
    exact takes_goto (fun _ _ => rfl) fun old => .left (.refl old) rfl (by simp)
  | markCrash id =>
    simp only [step] at taken
    split at taken
    · cases taken
      exact takes_modify_goto fun _ _ => .left ⟨rfl, rfl, rfl, rfl, rfl⟩ rfl (by simp)
    · cases taken

end UniversityHelper.Zhihuishu
