import UniversityHelper.ZhihuishuCalls

set_option linter.unusedSectionVars false

/-! The counters of a task against the calls of `watch_video` that its worker made. -/
namespace UniversityHelper.Zhihuishu
variable {C : Type*} [DecidableEq C] {s t : State C} {h h' : History} {id : TaskId} {old : Task}

/-- The counters are the numbers of these calls, all of which have ended. -/
structure Counted (task : Task) (calls : List Call) : Prop where
  completed : task.completed = calls.countP Call.succeeded
  failed : task.failed = calls.countP Call.failed
  settled : ∀ call ∈ calls, call.outcome ≠ none

/-- Where the worker stands in the list: `earlier` are the recorded calls. -/
inductive Stage (task : Task) : List Call → Worker → Prop
  | unstarted (counted : Counted task []) : Stage task [] .absent
  | deciding {calls : List Call} (counted : Counted task calls) : Stage task calls (.deciding calls.length)
  | entering {calls : List Call} {video : Video} {speed : ℚ} {autoAnswer : Bool} (counted : Counted task calls)
      (next : task.playlist[calls.length]? = some video) :
      Stage task calls (.entering calls.length video speed autoAnswer)
  | inWatch {earlier : List Call} {video : Video} {worker : Worker} (counted : Counted task earlier)
      (inside : InWatch earlier.length worker) : Stage task (earlier ++ [⟨video, none⟩]) worker
  | ended {earlier : List Call} {video : Video} {ok : Bool} {error : Option String} {outcome : Outcome}
      {worker : Worker} (counted : Counted task earlier) (result : ok = true ↔ outcome = .returned true)
      (place : worker = .checking earlier.length ok error ∨ worker = .recording earlier.length ok error) :
      Stage task (earlier ++ [⟨video, some outcome⟩]) worker
  | gone {calls : List Call} {worker : Worker} (noIndex : worker.index = none)
      (present : worker ≠ .absent) : Stage task calls worker

structure Accounts (task : Task) (worker : Worker) (calls : List Call) : Prop where
  total : task.total = task.videos.length
  percentage : task.percentage = percentageOf task.completed task.total
  handed : calls.map Call.video <+: task.playlist
  stage : Stage task calls worker

variable {task : Task} {worker : Worker} {calls : List Call}

theorem Counted.congr (h : Counted old calls) (completed : task.completed = old.completed)
    (failed : task.failed = old.failed) : Counted task calls :=
  ⟨completed.trans h.completed, failed.trans h.failed, h.settled⟩

theorem Counted.sum (h : Counted task calls) : task.completed + task.failed = calls.length := by
  have hfailed : calls.countP Call.failed = calls.countP fun call => ¬ call.succeeded = true := by
    apply List.countP_congr
    intro call hcall
    simp [Call.failed, h.settled call hcall]
  rw [h.completed, h.failed, hfailed]
  exact (List.length_eq_countP_add_countP Call.succeeded).symm

theorem Keeps.stage (h : Keeps old task) (stage : Stage old calls worker) : Stage task calls worker := by
  cases stage with
  | unstarted counted => exact .unstarted (counted.congr h.completed h.failed)
  | deciding counted => exact .deciding (counted.congr h.completed h.failed)
  | entering counted next =>
    exact .entering (counted.congr h.completed h.failed) (by rw [h.playlist, next])
  | inWatch counted inside => exact .inWatch (counted.congr h.completed h.failed) inside
  | ended counted result place => exact .ended (counted.congr h.completed h.failed) result place
  | gone noIndex present => exact .gone noIndex present

theorem Keeps.accounts (h : Keeps old task) (accounts : Accounts old worker calls) :
    Accounts task worker calls where
  total := by
    have hlength := congrArg List.length h.playlist
    simp only [Task.playlist, List.length_map] at hlength
    rw [h.total, accounts.total, hlength]
  percentage := by rw [h.percentage, accounts.percentage, h.total, h.completed]
  handed := by
    rw [h.playlist]
    exact accounts.handed
  stage := h.stage accounts.stage

theorem prefix_concat {α : Type*} {xs ys : List α} {y : α} (h : xs <+: ys) (hy : ys[xs.length]? = some y) :
    xs ++ [y] <+: ys := by
  obtain ⟨rest, rfl⟩ := h
  cases rest with
  | nil => simp at hy
  | cons z rest =>
    obtain rfl : z = y := by simpa using hy
    exact ⟨rest, by simp⟩

theorem settleLast_concat {earlier : List Call} {video : Video} {outcome : Outcome} :
    settleLast outcome (earlier ++ [⟨video, none⟩]) = earlier ++ [⟨video, some outcome⟩] := by
  rw [settleLast, List.modifyLast_concat]

theorem Stage.open_calls {index : ℕ} (h : Stage task calls worker) (inside : InWatch index worker) :
    ∃ earlier video, calls = earlier ++ [⟨video, none⟩] ∧ earlier.length = index ∧ Counted task earlier := by
  cases h with
  | inWatch counted inside' =>
    refine ⟨_, _, rfl, ?_, counted⟩
    cases inside <;> cases inside' <;> rfl
  | ended counted result place => rcases place with rfl | rfl <;> cases inside
  | gone noIndex present => cases inside <;> cases noIndex
  | unstarted | deciding | entering => cases inside

theorem Stage.ended_calls {index : ℕ} {ok : Bool} {error : Option String} (h : Stage task calls worker)
    (place : worker = .checking index ok error ∨ worker = .recording index ok error) :
    ∃ earlier video outcome, calls = earlier ++ [⟨video, some outcome⟩] ∧ earlier.length = index ∧
      Counted task earlier ∧ (ok = true ↔ outcome = .returned true) := by
  cases h with
  | inWatch counted inside => rcases place with rfl | rfl <;> cases inside
  | ended counted result place' =>
    refine ⟨_, _, _, rfl, ?_, counted, ?_⟩
    · rcases place with rfl | rfl <;> rcases place' with h | h <;> cases h <;> rfl
    · rcases place with rfl | rfl <;> rcases place' with h | h <;> cases h <;> exact result
  | gone noIndex present => rcases place with rfl | rfl <;> cases noIndex
  | unstarted | deciding | entering => rcases place with h | h <;> cases h

theorem Stage.before {index : ℕ} (h : Stage task calls (.deciding index)) :
    calls.length = index ∧ Counted task calls := by
  generalize hworker : Worker.deciding index = worker at h
  cases h with
  | deciding counted =>
    cases hworker
    exact ⟨rfl, counted⟩
  | inWatch counted inside => subst hworker; cases inside
  | ended counted result place => subst hworker; rcases place with h | h <;> cases h
  | gone noIndex present => subst hworker; cases noIndex
  | unstarted | entering => cases hworker

theorem recordVideo_playlist {index : ℕ} {ok : Bool} {error : Option String} (task : Task) :
    (recordVideo index ok error task).playlist = task.playlist := by
  simp only [recordVideo, recomputePercentage, Task.playlist]
  apply List.ext_getElem?
  intro n
  rw [List.getElem?_map, List.getElem?_map, List.getElem?_modify]
  cases task.videos[n]? with
  | none => rfl
  | some item =>
    simp only [Option.map_some, Option.map_eq_map]
    split_ifs <;> rfl

theorem Counted.record {index : ℕ} {ok : Bool} {error : Option String} {video : Video} {outcome : Outcome}
    (h : Counted task calls) (result : ok = true ↔ outcome = .returned true) :
    Counted (recordVideo index ok error task) (calls ++ [⟨video, some outcome⟩]) := by
  have hsucceeded : Call.succeeded ⟨video, some outcome⟩ = ok := by
    rw [Bool.eq_iff_iff, result]
    simp [Call.succeeded]
  have hfailed : Call.failed ⟨video, some outcome⟩ = !ok := by
    rw [Call.failed, hsucceeded]
    rfl
  constructor
  · simp only [recordVideo, recomputePercentage, List.countP_append, List.countP_singleton, h.completed,
      hsucceeded]
    split_ifs <;> rfl
  · simp only [recordVideo, recomputePercentage, List.countP_append, List.countP_singleton, h.failed,
      hfailed]
    cases ok <;> rfl
  · intro call hcall
    rcases List.mem_append.mp hcall with hearlier | hlast
    · exact h.settled call hearlier
    · rw [List.mem_singleton.mp hlast]
      exact Option.some_ne_none outcome

theorem Turn.accounts {task' : Task} {worker' : Worker} {calls' : List Call}
    (turn : Turn task worker calls task' worker' calls') (h : Accounts task worker calls) :
    Accounts task' worker' calls' := by
  cases turn with
  | same keeps => exact keeps.accounts h
  | started absent =>
    subst absent
    refine ⟨h.total, h.percentage, h.handed, ?_⟩
    cases h.stage with
    | unstarted counted => exact .deciding counted
    | inWatch counted inside => cases inside
    | ended counted result place => rcases place with h | h <;> cases h
    | gone noIndex present => exact absurd rfl present
  | left keeps noIndex present =>
    have hkept := keeps.accounts h
    exact ⟨hkept.total, hkept.percentage, hkept.handed, .gone noIndex present⟩
  | finished before => exact ⟨h.total, rfl, h.handed, .gone rfl (by simp)⟩
  | picked keeps before item_eq =>
    subst before
    have hkept := keeps.accounts h
    obtain ⟨hlength, hcounted⟩ := h.stage.before
    refine ⟨hkept.total, hkept.percentage, hkept.handed, ?_⟩
    rw [← hlength]
    refine .entering (hcounted.congr keeps.completed keeps.failed) ?_
    rw [keeps.playlist, hlength, Task.playlist, List.getElem?_map, item_eq]
    rfl
  | entered before =>
    subst before
    cases h.stage with
    | entering counted next =>
      refine ⟨h.total, h.percentage, ?_, .inWatch counted .watching⟩
      rw [List.map_append]
      exact prefix_concat h.handed (by rw [List.length_map]; exact next)
    | inWatch counted inside => cases inside
    | ended counted result place => rcases place with h | h <;> cases h
    | gone noIndex present => cases noIndex
  | watched before after =>
    obtain ⟨earlier, video, rfl, rfl, counted⟩ := h.stage.open_calls before
    exact ⟨h.total, h.percentage, h.handed, .inWatch counted after⟩
  | ended before result =>
    obtain ⟨earlier, video, rfl, rfl, counted⟩ := h.stage.open_calls before
    rw [settleLast_concat]
    refine ⟨h.total, h.percentage, ?_, .ended counted result (.inl rfl)⟩
    simpa using h.handed
  | checked before =>
    obtain ⟨earlier, video, outcome, rfl, rfl, counted, result⟩ := h.stage.ended_calls (.inl before)
    exact ⟨h.total, h.percentage, h.handed, .ended counted result (.inr rfl)⟩
  | @recorded index ok error before =>
    obtain ⟨earlier, video, outcome, rfl, rfl, counted, result⟩ := h.stage.ended_calls (.inr before)
    refine ⟨?_, rfl, ?_, ?_⟩
    · simp only [recordVideo, recomputePercentage, List.length_modify]
      exact h.total
    · rw [recordVideo_playlist]
      exact h.handed
    · have hlength : earlier.length + 1 = (earlier ++ [(⟨video, some outcome⟩ : Call)]).length := by simp
      rw [hlength]
      exact .deciding (counted.record result)

/-- What every run without a logout keeps. -/
structure Accounted (s : State C) (h : History) : Prop where
  signed : SignedIn s
  accounts : ∀ id task, s.tasks id = some task → Accounts task (s.worker id) (h id)
  blank : ∀ id, s.nextId ≤ id → h id = []

/-- A worker that was not started makes no call. -/
theorem noteCall_absent {a : Action C} (taken : step s a = some t) (absent : s.worker id = .absent) :
    noteCall s a h id = h id := by
  have hother : ∀ {x : TaskId}, s.worker x ≠ .absent → id ≠ x := by
    rintro x hx rfl
    exact hx absent
  cases a with
  | enter x =>
    simp only [step] at taken
    split at taken
    · rename_i hw
      simp only [noteCall, hw]
      split_ifs
      · simp [History.hand, hother (x := x) (by simp [hw])]
      · rfl
    · cases taken
  | advance x =>
    simp only [step] at taken
    split at taken
    · rename_i index program hw
      have hx := hother (x := x) (by simp [hw])
      cases program <;> simp only [noteCall, hw, settle_other hx]
    · cases taken
  | pollCancelled x =>
    simp only [step] at taken
    split at taken
    · rename_i hw
      simp only [noteCall]
      split_ifs
      · exact settle_other (hother (by simp [hw]))
      · rfl
    · cases taken
  | receive x answer =>
    cases answer with
    | ok answer => rfl
    | error message =>
      have hx : id ≠ x := by
        rintro rfl
        simp only [step, absent] at taken
        cases taken
      exact settle_other hx
  | _ => rfl

/-- A task is there from the start that installs it on. -/
theorem task_born {a : Action C} (taken : step s a = some t) {task : Task} (hnone : s.tasks id = none)
    (htask : t.tasks id = some task) :
    id = s.nextId ∧ (∃ r videos, task = newTask r videos) ∧ t.worker id = s.worker id := by
  have hmodify : ∀ {x : TaskId} {f : Task → Task}, (s.modifyTask x f).tasks id ≠ some task := by
    intro x f hmodified
    have hsome := isSome_modifyTask s x f id
    rw [hmodified, hnone] at hsome
    cases hsome
  cases step_effect taken with
  | outside current tasks =>
    rw [tasks, hnone] at htask
    cases htask
  | installed ready free =>
    by_cases hid : id = s.nextId
    · subst hid
      simp only [State.installTask, Function.update_self, Option.some_inj] at htask
      exact ⟨rfl, ⟨_, _, htask.symm⟩, rfl⟩
    · simp only [State.installTask, Function.update_of_ne hid, hnone] at htask
      cases htask
  | started starting =>
    change s.tasks id = some task at htask
    rw [hnone] at htask
    cases htask
  | worked | replaced =>
    change s.tasks id = some task at htask
    rw [hnone] at htask
    cases htask
  | reset | cancelled | startMarked | progressed | settled => exact absurd htask hmodify

theorem nextId_mono {a : Action C} (taken : step s a = some t) : s.nextId ≤ t.nextId := by
  cases step_effect taken with
  | outside current tasks nextId => exact nextId.ge
  | installed => exact Nat.le_succ _
  | reset | cancelled | started | startMarked | worked | progressed | replaced | settled => exact le_refl _

theorem loggedIn_modifyCurrent {f : Task → Task} : (s.modifyCurrent f).loggedIn = s.loggedIn := by
  unfold State.modifyCurrent
  split <;> rfl

theorem loggedIn_unlessCancelled {next : State C} (hnext : next.loggedIn = s.loggedIn) :
    (s.unlessCancelled id next).loggedIn = s.loggedIn := by
  unfold State.unlessCancelled
  split
  · rfl
  · split_ifs
    · rfl
    · rfl
    · exact hnext

theorem loggedIn_decideVideo {index : ℕ} : (s.decideVideo id index).loggedIn = s.loggedIn := by
  unfold State.decideVideo
  split
  · rfl
  · split_ifs
    · rfl
    · rfl
    all_goals split <;> rfl

/-- Only `logout` signs out. -/
theorem stays_signedIn {a : Action C} (stays : a ≠ .logout) (hlogged : s.loggedIn = true)
    (taken : step s a = some t) : t.loggedIn = true := by
  cases a with
  | logout => exact absurd rfl stays
  | login =>
    cases taken
    rfl
  | pauseTask | resumeTask | cancelTask =>
    cases taken
    rw [loggedIn_modifyCurrent, hlogged]
  | cancelTaskById id =>
    cases taken
    exact hlogged
  | startCheck c r | install c | startThread c ok | enter id =>
    simp only [step] at taken
    split at taken
    · cases taken
      split_ifs <;> exact hlogged
    · cases taken
  | loadVideos c videos =>
    simp only [step] at taken
    split at taken
    · cases taken
      exact hlogged
    · cases taken
      exact hlogged
    · cases taken
  | markStartError c | pollPaused id | send id | markCrash id =>
    simp only [step] at taken
    split at taken
    · cases taken
      exact hlogged
    · cases taken
  | decide id =>
    simp only [step] at taken
    split at taken
    · cases taken
      rw [loggedIn_decideVideo, hlogged]
    · cases taken
  | advance id | pollCancelled id =>
    simp only [step] at taken
    split at taken
    · obtain ⟨next, hnext, rfl⟩ := Option.map_eq_some_iff.mp taken
      exact hlogged
    · cases taken
  | receive id answer =>
    simp only [step] at taken
    split at taken
    · cases taken
      exact hlogged
    · split_ifs at taken
      cases taken
      exact hlogged
    · cases taken
  | check id | record id =>
    simp only [step] at taken
    split at taken
    · cases taken
      refine (loggedIn_unlessCancelled ?_).trans hlogged
      rfl
    · cases taken
  | crash id message =>
    simp only [step] at taken
    split_ifs at taken
    cases taken
    exact hlogged

theorem SignedIn.preserved {a : Action C} (h : SignedIn s) (stays : a ≠ .logout) (taken : step s a = some t) :
    SignedIn t := by
  rcases h with hlogged | ⟨hidle, habsent⟩
  · exact .inl (stays_signedIn stays hlogged taken)
  by_cases hlogged : s.loggedIn = true
  · exact .inl (stays_signedIn stays hlogged taken)
  -- nothing but a login, a refused start and the control calls is enabled
  cases a with
  | login =>
    cases taken
    exact .inl rfl
  | logout => exact absurd rfl stays
  | startCheck c r =>
    rw [step, hidle c] at taken
    simp only [if_neg (not_and_of_not_left _ hlogged)] at taken
    cases taken
    exact .inr ⟨hidle, habsent⟩
  | pauseTask | resumeTask | cancelTask =>
    cases taken
    refine .inr ?_
    unfold State.modifyCurrent
    split <;> exact ⟨hidle, habsent⟩
  | cancelTaskById id =>
    cases taken
    exact .inr ⟨hidle, habsent⟩
  | loadVideos c videos | install c | startThread c ok | markStartError c =>
    simp only [step, hidle c] at taken
    cases taken
  | crash id message =>
    simp only [step, habsent id, Worker.alive] at taken
    cases taken
  | receive id answer =>
    simp only [step, habsent id] at taken
    cases taken
  | decide id | enter id | advance id | pollCancelled id | pollPaused id | send id | check id | record id
  | markCrash id =>
    simp only [step, habsent id] at taken
    cases taken

theorem newTask_accounts (r : StartRequest) (videos : List Video) :
    Accounts (newTask r videos) .absent [] where
  total := by simp [newTask]
  percentage := (percentageOf_none _).symm
  handed := List.nil_prefix
  stage := .unstarted ⟨rfl, rfl, by simp⟩

theorem Accounted.preserved {a : Action C} (h : Accounted s h') (tracked : Tracked s) (stays : a ≠ .logout)
    (taken : step s a = some t) : Accounted t (noteCall s a h') where
  signed := h.signed.preserved stays taken
  accounts := by
    intro id task htask
    cases hold : s.tasks id with
    | some old =>
      obtain ⟨task', htask', turn⟩ := step_takes (h := h') tracked h.signed taken old hold
      obtain rfl : task' = task := Option.some_inj.mp (htask'.symm.trans htask)
      exact turn.accounts (h.accounts id old hold)
    | none =>
      obtain ⟨rfl, ⟨r, videos, rfl⟩, hworker⟩ := task_born taken hold htask
      obtain ⟨-, habsent, -⟩ := tracked.fresh s.nextId (le_refl _)
      rw [hworker, noteCall_absent taken habsent, habsent, h.blank s.nextId (le_refl _)]
      exact newTask_accounts r videos
  blank := by
    intro id hid
    have hfresh : s.nextId ≤ id := (nextId_mono taken).trans hid
    rw [noteCall_absent taken (tracked.fresh id hfresh).2.1]
    exact h.blank id hfresh

theorem accounted_start (h : Start s) : Accounted s History.empty where
  signed := .inr ⟨h.2.2.2.1, h.2.2.1⟩
  accounts := by
    intro id task htask
    rw [h.2.1 id] at htask
    cases htask
  blank := fun _ _ => rfl

/-- Nobody logs out. -/
def staysIn (_ : State C) (a : Action C) : Prop := a ≠ .logout

theorem Accounted.of_reachable
    (reached : (recordedMachine C).Reachable (fun p a => staysIn p.1 a) (s, h)) : Accounted s h :=
  reached.recorded (fun _ => Tracked.of_reachable) (fun _ => accounted_start)
    fun _ _ _ _ tracked hinv stays taken => hinv.preserved tracked stays taken

/-! ### The accounts of a worker -/

/-- The counters are about the first `index` of the calls, all of which have ended. -/
structure CountsFirst (task : Task) (calls : List Call) (index : ℕ) : Prop where
  completed : task.completed = (calls.take index).countP Call.succeeded
  failed : task.failed = (calls.take index).countP Call.failed
  sum : task.completed + task.failed = index
  bound : index ≤ task.total
  percentage : task.percentage = percentageOf task.completed task.total

theorem CountsFirst.of_counted {rest : List Call} (h : Counted task calls)
    (accounts : Accounts task worker (calls ++ rest)) : CountsFirst task (calls ++ rest) calls.length where
  completed := by rw [List.take_left, h.completed]
  failed := by rw [List.take_left, h.failed]
  sum := h.sum
  bound := by
    have hlength := accounts.handed.length_le
    simp only [Task.playlist, List.length_map, List.length_append] at hlength
    rw [accounts.total]
    omega
  percentage := accounts.percentage

theorem Accounts.counts {index : ℕ} (h : Accounts task worker calls) (place : worker.index = some index) :
    CountsFirst task calls index := by
  cases h.stage with
  | unstarted => cases place
  | deciding counted | entering counted =>
    cases place
    rw [← List.append_nil calls] at h
    simpa using CountsFirst.of_counted counted h
  | inWatch counted inside =>
    cases inside <;> cases place <;> exact .of_counted counted h
  | ended counted result at_ =>
    rcases at_ with rfl | rfl <;> cases place <;> exact .of_counted counted h
  | gone noIndex =>
    rw [noIndex] at place
    cases place

/-- What the worker writes when it finds no video at its index. -/
theorem Accounts.finished {index : ℕ} (h : Accounts task (.deciding index) calls)
    (last : task.videos.length ≤ index) :
    calls.map Call.video = task.playlist ∧
      (finishTask task).status = if ∀ call ∈ calls, call.succeeded = true then .completed else .error := by
  obtain ⟨hlength, hcounted⟩ := h.stage.before
  refine ⟨h.handed.eq_of_length_le (by simpa [Task.playlist, hlength] using last), ?_⟩
  have hfailed : task.failed = 0 ↔ ∀ call ∈ calls, call.succeeded = true := by
    rw [hcounted.failed, List.countP_eq_zero]
    refine forall₂_congr fun call hcall => ?_
    simp [Call.failed, hcounted.settled call hcall]
  simp only [finishTask, recomputePercentage, hfailed]

/-- While the worker of a task is at a video, the counters are those of the calls for the videos
before it; the calls were made in the order of the list; and a worker that gets through the list
writes the status of its calls. -/
theorem accounting_exact (s : State C) (h : History)
    (reached : (recordedMachine C).Reachable (fun p a => staysIn p.1 a) (s, h)) (id : TaskId) (task : Task)
    (found : s.tasks id = some task) :
    (∀ index, (s.worker id).index = some index → CountsFirst task (h id) index) ∧
    (h id).map Call.video <+: task.playlist ∧
    ∀ index, s.worker id = .deciding index → s.current = some id → task.cancelled = false →
      task.videos.length ≤ index → ∃ t, step s (.decide id) = some t ∧
        ((t.tasks id).map Task.status = some
          (if ∀ call ∈ h id, call.succeeded = true then .completed else .error)) ∧
        (h id).map Call.video = task.playlist ∧ t.worker id = .returned := by
  have haccounts := (Accounted.of_reachable reached).accounts id task found
  refine ⟨fun index => haccounts.counts, haccounts.handed, fun index hw hcurrent hrunning hlast => ?_⟩
  rw [hw] at haccounts
  obtain ⟨hvideos, hstatus⟩ := haccounts.finished hlast
  refine ⟨(s.modifyTask id finishTask).goto id .returned, ?_, ?_, hvideos, ?_⟩
  · simp [step, hw, State.decideVideo, found, hcurrent, hrunning, List.getElem?_eq_none hlast]
  · rw [← hstatus]
    simp [State.goto, State.modifyTask, found]
  · simp [State.goto]

def watchedVideo : Video := ⟨"1", "Mechanics", 60, 1, 0, 0, []⟩

/-- The platform gives no duration for it. -/
def emptyVideo : Video := ⟨"2", "Optics", 0, 0, 0, 0, []⟩

def offline : State Unit :=
  { loggedIn := false
    current := none
    tasks := fun _ => none
    nextId := 0
    worker := fun _ => .absent
    caller := fun _ => .idle
    sentAfterCancel := fun _ => 0 }

def bothVideos : List (Action Unit) :=
  [.login, .startCheck () ⟨"course", 1, true, none⟩, .loadVideos () (some [watchedVideo, emptyVideo]),
    .install (), .startThread () true, .decide 0, .enter 0, .advance 0, .pauseTask, .check 0, .record 0,
    .decide 0, .resumeTask, .decide 0, .enter 0, .advance 0, .check 0, .record 0]

def afterBoth : State Unit × History :=
  ((recordedMachine Unit).exec (offline, History.empty) bothVideos).getD (offline, History.empty)

/-- One call returned true and one raised, and the worker is about to write `error`. -/
theorem accounting_exact_both : ∃ task, afterBoth.1.tasks 0 = some task ∧
    CountsFirst task (afterBoth.2 0) 2 ∧ ∃ t, step afterBoth.1 (.decide 0) = some t ∧
      (t.tasks 0).map Task.status = some .error := by
  have hexec : (recordedMachine Unit).exec (offline, History.empty) bothVideos = some afterBoth := rfl
  have hstart : (recordedMachine Unit).start (offline, History.empty) :=
    ⟨⟨rfl, fun _ => rfl, fun _ => rfl, fun _ => rfl, fun _ => rfl⟩, rfl⟩
  have hrun : (recordedMachine Unit).Run (fun p a => staysIn p.1 a) (offline, History.empty) afterBoth :=
    Machine.run_of_exec_of (by intro a ha s; fin_cases ha <;> exact fun h => by cases h) hexec
  obtain ⟨task, htask⟩ : ∃ task, afterBoth.1.tasks 0 = some task := ⟨_, rfl⟩
  obtain ⟨hcounts, -, hends⟩ := accounting_exact afterBoth.1 afterBoth.2 ⟨_, hstart, hrun⟩ 0 task htask
  have hrunning : task.cancelled = false := by
    have hflag : (afterBoth.1.tasks 0).map Task.cancelled = some false := rfl
    simpa [htask] using hflag
  have hlast : task.videos.length ≤ 2 := by
    have hlength : (afterBoth.1.tasks 0).map (fun task => task.videos.length) = some 2 := rfl
    rw [htask, Option.map_some, Option.some_inj] at hlength
    exact hlength.le
  have hfailed : ¬ ∀ call ∈ afterBoth.2 0, call.succeeded = true := by
    have hcalls : (afterBoth.2 0).map Call.succeeded = [true, false] := rfl
    intro hall
    have hnone : false ∈ (afterBoth.2 0).map Call.succeeded := by simp [hcalls]
    obtain ⟨call, hcall, hfalse⟩ := List.mem_map.mp hnone
    rw [hall call hcall] at hfalse
    cases hfalse
  obtain ⟨t, taken, hstatus, -, -⟩ := hends 2 rfl rfl hrunning hlast
  rw [if_neg hfailed] at hstatus
  exact ⟨task, htask, hcounts 2 rfl, t, taken, hstatus⟩

end UniversityHelper.Zhihuishu
