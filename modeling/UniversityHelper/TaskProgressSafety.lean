import UniversityHelper.TaskProgress

/-! What the record of a learning task shows of its run: the lines, the counts of chapters and of courses,
and the chapters that were given up. -/
namespace UniversityHelper.LearningRun
open ChapterLog (chapterFailureLine describeChapterFailure)
open JobProcessor (ChapterTask maxTries processTask)
open LearningManager (Clock LearningTask Mutation maxTaskFailures newTask)
open LearningWorker (Payload Point Work courseLabel runTaskWorker)
open TaskAdmission (Instant)
open TaskManager (LogLine Progress ProgressValue learningRules)

variable {s t : State} {i : ℕ} {x : Chapter} {now : Instant} {begun : Bool} {c : Tally}

/-! ### What a critical section does to the record -/

section Record
variable {task : LearningTask} {m : Mutation} {clock : Clock}

def progressAfter (progress : Progress) : Mutation → Progress
  | .updateProgress updates => progress.update updates
  | .increaseProgress key delta =>
    match LearningManager.ProgressValue.toInt ((progress.get key).getD .none) with
    | some count => progress.set key (.int (count + delta))
    | none => progress
  | _ => progress

def logsAfter (now : Instant) (logs : List LogLine) : Mutation → List LogLine
  | .appendTaskLog message level => keepLast learningRules.logLimit (logs ++ [⟨now, message, level⟩])
  | .recordAdmissionPersistFailure => keepLast learningRules.logLimit
      (logs ++ [⟨now, LearningManager.taskPersistFailureMessage, "error"⟩])
  | _ => logs

def failuresAfter (now : Instant) (failures : List TaskManager.Failure) : Mutation → List TaskManager.Failure
  | .recordFailure course chapter reason hint =>
    keepLast maxTaskFailures (failures ++ [⟨course, chapter, reason, hint, now⟩])
  | _ => failures

theorem preparePersist_record (force : Bool) (monotonic : Instant) (task : LearningTask) :
    (LearningManager.preparePersist force monotonic task).1.toTaskRecord = task.toTaskRecord := by
  rw [LearningManager.preparePersist]
  split_ifs <;> rfl

/-- The three fields that a client is shown, after a critical section. -/
theorem apply_shown (m : Mutation) (clock : Clock) (task : LearningTask) :
    let task' := (m.apply clock.now clock.monotonic task).1
    task'.progress = progressAfter task.progress m ∧ task'.logs = logsAfter clock.now task.logs m ∧
      task'.failures = failuresAfter clock.now task.failures m := by
  intro task'
  have hpersist : ∀ force (changed : LearningTask),
      (LearningManager.preparePersist force clock.monotonic changed).1.progress = changed.progress ∧
      (LearningManager.preparePersist force clock.monotonic changed).1.logs = changed.logs ∧
      (LearningManager.preparePersist force clock.monotonic changed).1.failures = changed.failures := by
    intro force changed
    have hrecord := preparePersist_record force clock.monotonic changed
    rw [hrecord]
    exact ⟨rfl, rfl, rfl⟩
  cases m with
  | updateTask changes =>
    simp only [task', Mutation.apply, LearningManager.updateTask]
    split_ifs
    · exact ⟨rfl, rfl, rfl⟩
    · exact hpersist _ _
  | appendTaskLog message level =>
    simp only [task', Mutation.apply, LearningManager.appendTaskLog]
    obtain ⟨hprogress, hlogs, hfailures⟩ := hpersist true
      { task with toTaskRecord :=
        TaskManager.withLogLine learningRules clock.now message level task.toTaskRecord }
    exact ⟨hprogress, hlogs.trans (by rw [TaskManager.withLogLine, logsAfter]), hfailures⟩
  | updateProgress updates =>
    simp only [task', Mutation.apply, LearningManager.updateProgress]
    exact hpersist _ _
  | increaseProgress key delta =>
    simp only [task', Mutation.apply, LearningManager.increaseProgress, progressAfter]
    cases LearningManager.ProgressValue.toInt ((task.progress.get key).getD .none) with
    | some count => exact hpersist _ _
    | none => exact ⟨rfl, rfl, rfl⟩
  | recordFailure course chapter reason hint =>
    simp only [task', Mutation.apply, LearningManager.recordFailure, progressAfter, logsAfter, failuresAfter]
    simp only [hpersist, LearningManager.touch, and_self]
  | recordAdmissionPersistFailure =>
    simp only [task', Mutation.apply, LearningManager.recordAdmissionPersistFailure, progressAfter, logsAfter,
      failuresAfter]
    simp only [hpersist, LearningManager.touch, and_self]
  | pauseTask =>
    simp only [task', Mutation.apply, LearningManager.pauseTask]
    split_ifs <;> exact ⟨rfl, rfl, rfl⟩
  | resumeTask =>
    simp only [task', Mutation.apply, LearningManager.resumeTask]
    split_ifs <;> exact ⟨rfl, rfl, rfl⟩
  | stopTask =>
    simp only [task', Mutation.apply, LearningManager.stopTask]
    split_ifs <;> exact ⟨rfl, rfl, rfl⟩

theorem applyAll_shown (clock : Clock) (ms : List Mutation) (task : LearningTask) :
    (applyAll clock ms task).progress = ms.foldl progressAfter task.progress ∧
      (applyAll clock ms task).logs = ms.foldl (logsAfter clock.now) task.logs ∧
      (applyAll clock ms task).failures = ms.foldl (failuresAfter clock.now) task.failures := by
  induction ms generalizing task with
  | nil => exact ⟨rfl, rfl, rfl⟩
  | cons m ms ih =>
    obtain ⟨hprogress, hlogs, hfailures⟩ := apply_shown m clock task
    obtain ⟨hprogress', hlogs', hfailures'⟩ := ih (m.apply clock.now clock.monotonic task).1
    rw [hprogress] at hprogress'
    rw [hlogs] at hlogs'
    rw [hfailures] at hfailures'
    exact ⟨hprogress', hlogs', hfailures'⟩

end Record

/-! ### What the record shows of the run -/

def described (failure : TaskManager.Failure) : String × String × String × String :=
  (failure.course, failure.chapter, failure.reason, failure.hint)

/-- The counts and the failures of the record are those of the chapters; `owed` chapters are counted
and not yet begun. -/
structure Displays (owed : ℤ) (chapters : List (String × Chapter)) (progress : Progress)
    (failures : List TaskManager.Failure) (c : Tally) : Prop where
  tally : c.Shows progress
  right : c.Right
  totalChapters : progress.get "total_chapters" = some (.int (chapters.length + owed))
  completedChapters : progress.get "completed_chapters" = some (.int (chapters.countP succeeded))
  failures : ∃ all, all.Perm (chapters.filterMap failureOf) ∧
    failures.map described = keepLast maxTaskFailures all
  waiting : ∀ entry ∈ chapters, entry.2.phase = .waiting → succeeded entry = false

section Shown
variable {chapters chapters' rest : List (String × Chapter)} {progress : Progress}
  {failures : List TaskManager.Failure} {c c' : Tally} {owed : ℤ} {label : String}
  {updates : List (String × ProgressValue)}

theorem Displays.update (h : Displays owed chapters progress failures c) (turns : Turns c updates c')
    (right : c'.Right) (spares : Spares updates) : Displays owed chapters (progress.update updates) failures c' where
  tally := turns progress h.tally
  right := right
  totalChapters := (spares _ (by simp) progress).trans h.totalChapters
  completedChapters := (spares _ (by simp) progress).trans h.completedChapters
  failures := h.failures
  waiting := h.waiting

/-- The counts are begun before any chapter. -/
theorem Displays.clear (h : Displays 0 [] progress failures c) (turns : Turns c updates c') (right : c'.Right)
    (clears : Clears updates) : Displays 0 [] (progress.update updates) failures c' where
  tally := turns progress h.tally
  right := right
  totalChapters := clears _ (by simp) progress
  completedChapters := clears _ (by simp) progress
  failures := h.failures
  waiting := h.waiting

theorem Tally.Shows.increase (h : c.Shows progress) {key : String} {n : ℤ}
    (hkey : key ∈ ["total_chapters", "completed_chapters"]) : c.Shows (progress.set key (.int n)) := by
  simp only [List.mem_cons, List.not_mem_nil, or_false] at hkey
  rcases hkey with rfl | rfl
  · constructor <;> simp [h.total, h.completed, h.failed, h.current]
  · constructor <;> simp [h.total, h.completed, h.failed, h.current]

theorem Displays.owe (h : Displays 0 chapters progress failures c) (delta : ℤ) :
    Displays delta chapters (progressAfter progress (.increaseProgress "total_chapters" delta)) failures c := by
  simp only [progressAfter, h.totalChapters, Option.getD_some, LearningManager.ProgressValue.toInt, add_zero]
  refine ⟨h.tally.increase (by simp), h.right, by simp, ?_, h.failures, h.waiting⟩
  simpa using h.completedChapters

/-- The chapters of a course begin. -/
theorem Displays.enter {new : List (String × Chapter)} (h : Displays new.length chapters progress failures c)
    (fresh : ∀ entry ∈ new, entry.2.phase = .waiting ∧ entry.2.task = {}) :
    Displays 0 (new ++ chapters) progress failures c := by
  have hsucceeded : ∀ entry ∈ new, succeeded entry = false := by
    intro entry hentry
    simp [succeeded, (fresh entry hentry).2]
  have hcount : new.countP succeeded = 0 := List.countP_eq_zero.mpr (by simpa using hsucceeded)
  have hnone : new.filterMap failureOf = [] := by
    rw [List.filterMap_eq_nil_iff]
    intro entry hentry
    simp [failureOf, (fresh entry hentry).1]
  refine ⟨h.tally, h.right, ?_, ?_, ?_, ?_⟩
  · rw [h.totalChapters, List.length_append]
    congr 2
    push_cast
    ring
  · rw [h.completedChapters, List.countP_append, hcount, zero_add]
  · rw [List.filterMap_append, hnone, List.nil_append]
    exact h.failures
  · intro entry hentry hphase
    rcases List.mem_append.mp hentry with hentry | hentry
    · exact hsucceeded entry hentry
    · exact h.waiting entry hentry hphase

/-- A chapter is exchanged, and the record follows. -/
theorem Displays.exchange {entry entry' : String × Chapter} {progress' : Progress}
    {failures' : List TaskManager.Failure} (h : Displays 0 chapters progress failures c)
    (before : chapters.Perm (entry :: rest)) (after : chapters'.Perm (entry' :: rest))
    (tally : c.Shows progress') (total : progress'.get "total_chapters" = progress.get "total_chapters")
    (completed : progress'.get "completed_chapters" =
      some (.int (rest.countP succeeded + if succeeded entry' = true then 1 else 0)))
    (failed : (failures' = failures ∧ failureOf entry' = none) ∨
      ∃ failure, failures' = keepLast maxTaskFailures (failures ++ [failure]) ∧
        failureOf entry' = some (described failure))
    (fresh : failureOf entry = none) (waiting : entry'.2.phase = .waiting → succeeded entry' = false) :
    Displays 0 chapters' progress' failures' c := by
  have hlength : chapters'.length = chapters.length := by
    rw [before.length_eq, after.length_eq, List.length_cons, List.length_cons]
  obtain ⟨all, hall, hkept⟩ := h.failures
  have hbefore := before.filterMap failureOf
  rw [List.filterMap_cons_none fresh] at hbefore
  refine ⟨tally, h.right, by rw [total, h.totalChapters, hlength], ?_, ?_, ?_⟩
  · rw [completed, after.countP_eq, List.countP_cons]
    push_cast
    rfl
  · rcases failed with ⟨rfl, hnone⟩ | ⟨failure, rfl, hsome⟩
    · have hafter := after.filterMap failureOf
      rw [List.filterMap_cons_none hnone] at hafter
      exact ⟨all, hall.trans (hbefore.trans hafter.symm), hkept⟩
    · have hafter := after.filterMap failureOf
      rw [List.filterMap_cons_some hsome] at hafter
      refine ⟨all ++ [described failure], ?_, ?_⟩
      · refine (List.perm_append_singleton _ _).trans (List.Perm.trans ?_ hafter.symm)
        exact (hall.trans hbefore).cons _
      · have hmap : (keepLast maxTaskFailures (failures ++ [failure])).map described =
            keepLast maxTaskFailures (failures.map described ++ [described failure]) := by
          rw [keepLast, keepLast, List.map_drop, List.map_append, List.length_append, List.length_append,
            List.length_map]
          rfl
        rw [hmap, hkept, keepLast_keepLast_append]
  · intro other hother hphase
    rcases List.mem_cons.mp (after.mem_iff.mp hother) with rfl | hrest
    · exact waiting hphase
    · exact h.waiting other (before.mem_iff.mpr (List.mem_cons_of_mem _ hrest)) hphase

theorem afterAttempt_result (notopenAction : String) (record : ChapterTask) :
    (afterAttempt notopenAction record).1.result = record.result := by
  have hcount : (JobProcessor.countFailure record).1.result = record.result := by
    unfold JobProcessor.countFailure
    dsimp only
    split_ifs <;> rfl
  unfold afterAttempt
  split
  · rfl
  · split_ifs
    · rfl
    · exact hcount
  · exact hcount
  · rfl

theorem afterAttempt_waiting (notopenAction : String) (record : ChapterTask)
    (h : Phase.after (afterAttempt notopenAction record).2 = .waiting) : record.result ≠ .success := by
  intro hresult
  unfold afterAttempt at h
  simp only [hresult] at h
  cases h

end Shown

/-! ### The steps -/

structure Kept (p : State × LearningTask) : Prop where
  logs : p.2.logs = p.1.logs
  shows : ∃ begun c, Counts begun c p.1.worker ∧ (begun = false → p.1.studies = []) ∧
    Displays 0 p.1.chapters p.2.progress p.2.failures c

section Steps
variable {task : LearningTask} {clock : Clock}

theorem setChapter_other (s : State) (i : ℕ) (x' : Chapter) :
    (s.setChapter i x').worker = s.worker ∧ (s.setChapter i x').logs = s.logs := by
  unfold State.setChapter
  split <;> exact ⟨rfl, rfl⟩

theorem studies_of_chapter (h : s.chapter i = some x) : s.studies ≠ [] := by
  unfold State.chapter at h
  split at h
  · rename_i study earlier hworker hstudies
    rw [hstudies]
    exact List.cons_ne_nil _ _
  · cases h

/-- A step at a chapter: the worker stays where it is. -/
theorem Kept.exchange {x' : Chapter} {ms : List Mutation} (h : Kept (s, task)) (hx : s.chapter i = some x)
    (shows : ∀ c rest, Displays 0 s.chapters task.progress task.failures c →
      s.chapters.Perm ((s.label, x) :: rest) → t.chapters.Perm ((s.label, x') :: rest) →
      Displays 0 t.chapters (applyAll clock ms task).progress (applyAll clock ms task).failures c)
    (logs : (applyAll clock ms task).logs = t.logs) (worker : t.worker = s.worker)
    (chapters : t.chapters = (s.setChapter i x').chapters) : Kept (t, applyAll clock ms task) := by
  obtain ⟨begun, c, hcounts, hbegun, hshows⟩ := h.shows
  obtain ⟨rest, hbefore, hafter⟩ := chapters_exchange hx x'
  refine ⟨logs, begun, c, ?_, fun hnone => absurd (hbegun hnone) (studies_of_chapter hx),
    shows c rest hshows hbefore (chapters ▸ hafter)⟩
  rw [worker]
  exact hcounts

theorem Kept.attempt {ending : Ending} (h : Kept (s, task)) (taken : attemptStep s i ending = some t) :
    Kept (t, applyAll clock (mutations s (.attempt i ending)) task) := by
  obtain ⟨x, hx, taken⟩ := Option.bind_eq_some_iff.mp taken
  split_ifs at taken with hphase
  obtain rfl := Option.some_inj.mp taken
  obtain ⟨hprogress, hlogs, hfailures⟩ := applyAll_shown clock (mutations s (.attempt i ending)) task
  obtain ⟨hworker, hslogs⟩ := setChapter_other s i
    { x with task := processTask x.task ending.attempt, phase := .attempted }
  have hfresh : failureOf (s.label, x) = none := by simp [failureOf, hphase]
  have hattempted : failureOf (s.label, ({ x with
      task := processTask x.task ending.attempt, phase := .attempted } : Chapter)) = none := by
    simp [failureOf]
  refine h.exchange hx (fun c rest hshows hbefore hafter => ?_) ?_ hworker rfl
  · have hwaiting := hshows.waiting _ (hbefore.mem_iff.mpr List.mem_cons_self) hphase
    have hcount : s.chapters.countP succeeded = rest.countP succeeded := by
      rw [hbefore.countP_eq, List.countP_cons_of_neg (by simp [hwaiting])]
    rw [hprogress, hfailures]
    cases ending with
    | success =>
      have hcompleted := hshows.completedChapters
      simp only [mutations, List.foldl_cons, List.foldl_nil, progressAfter, failuresAfter, hcompleted,
        Option.getD_some, LearningManager.ProgressValue.toInt]
      refine hshows.exchange hbefore hafter (hshows.tally.increase (by simp)) (by simp) ?_
        (.inl ⟨rfl, hattempted⟩) hfresh nofun
      rw [OrderedDict.get_set, if_pos rfl, hcount]
      simp [succeeded, Ending.attempt, processTask]
    | notOpen | error | raised =>
      refine hshows.exchange hbefore hafter hshows.tally rfl ?_ (.inl ⟨rfl, hattempted⟩) hfresh nofun
      simp only [mutations, List.foldl_nil]
      rw [hshows.completedChapters, hcount]
      simp [succeeded, Ending.attempt, processTask]
  · rw [hlogs, hslogs]
    cases ending <;> exact h.logs

theorem reported_eq_some_true {decision : JobProcessor.Decision} (h : reported decision = some true) :
    Phase.after decision = .givenUp := by
  cases decision with
  | settle => cases h
  | giveUp => rfl
  | retry report => cases report <;> cases h

theorem after_ne_givenUp {decision : JobProcessor.Decision} (h : reported decision ≠ some true) :
    Phase.after decision ≠ .givenUp := by
  cases decision with
  | settle => exact nofun
  | giveUp => exact absurd rfl h
  | retry report => exact nofun

theorem Kept.decide {monotonic : Instant} (h : Kept (s, task)) (taken : decideStep s i now = some t) :
    Kept (t, applyAll ⟨now, monotonic⟩ (mutations s (.decide i now)) task) := by
  obtain ⟨x, hx, taken⟩ := Option.bind_eq_some_iff.mp taken
  split_ifs at taken with hphase
  have hms : mutations s (.decide i now) = reportMutations s x := by simp [mutations, hx]
  rw [hms]
  have hresult := afterAttempt_result s.notopenAction x.task
  have hwaits := afterAttempt_waiting s.notopenAction x.task
  have hfresh : failureOf (s.label, x) = none := by simp [failureOf, hphase]
  obtain ⟨task', decision, hdecided⟩ : ∃ task' decision,
      afterAttempt s.notopenAction x.task = (task', decision) := ⟨_, _, rfl⟩
  rw [hdecided] at taken hresult hwaits
  dsimp only at taken hresult hwaits
  let x' : Chapter := { x with task := task', phase := .after decision }
  obtain ⟨hworker, hslogs⟩ := setChapter_other s i x'
  have hcount : ∀ rest : List (String × Chapter),
      (rest.countP succeeded : ℤ) + (if succeeded (s.label, x') = true then 1 else 0) =
        ((s.label, x) :: rest).countP succeeded := by
    intro rest
    rw [List.countP_cons]
    simp [succeeded, x', hresult]
  have hwaiting : Phase.after decision = .waiting → succeeded (s.label, x') = false := by
    intro hphase
    simp [succeeded, x', hresult, hwaits hphase]
  cases hreport : reported decision with
  | none =>
    have hnone : reportMutations s x = [] := by simp only [reportMutations, hdecided, hreport]
    simp only [hreport] at taken
    obtain rfl := Option.some_inj.mp taken
    rw [hnone]
    refine h.exchange hx (fun c rest hshows hbefore hafter => ?_) (h.logs.trans hslogs.symm) hworker rfl
    refine hshows.exchange hbefore hafter hshows.tally rfl ?_ (.inl ⟨rfl, ?_⟩) hfresh hwaiting
    · rw [hcount, ← hbefore.countP_eq]
      exact hshows.completedChapters
    · simp [failureOf, after_ne_givenUp (by rw [hreport]; exact nofun)]
  | some final =>
    simp only [hreport] at taken
    obtain rfl := Option.some_inj.mp taken
    have hchapters : ((s.setChapter i x').append now (chapterFailureLine x.title task' final maxTries,
        if final = true then "error" else "warning")).chapters = (s.setChapter i x').chapters := append_chapters
    cases final with
    | false =>
      have hline : reportMutations s x =
          [.appendTaskLog (chapterFailureLine x.title task' false maxTries) "warning"] := by
        simp only [reportMutations, hdecided, hreport]
      rw [hline]
      obtain ⟨hprogress, hlogs, hfailures⟩ := applyAll_shown ⟨now, monotonic⟩
        [.appendTaskLog (chapterFailureLine x.title task' false maxTries) "warning"] task
      simp only [List.foldl_cons, List.foldl_nil, progressAfter, logsAfter, failuresAfter] at hprogress hlogs hfailures
      refine h.exchange hx (fun c rest hshows hbefore hafter => ?_) ?_ (append_stays.1.trans hworker) hchapters
      · rw [hprogress, hfailures]
        refine hshows.exchange hbefore hafter hshows.tally rfl ?_ (.inl ⟨rfl, ?_⟩) hfresh hwaiting
        · rw [hcount, ← hbefore.countP_eq]
          exact hshows.completedChapters
        · simp [failureOf, x', after_ne_givenUp (by rw [hreport]; exact nofun)]
      · rw [hlogs, h.logs, logs_append, hslogs, if_neg (by decide)]
    | true =>
      have hline : reportMutations s x =
          [.appendTaskLog (chapterFailureLine x.title task' true maxTries) "error",
            .recordFailure s.label x.title (describeChapterFailure task').1 (describeChapterFailure task').2] := by
        simp only [reportMutations, hdecided, hreport]
      rw [hline]
      obtain ⟨hprogress, hlogs, hfailures⟩ := applyAll_shown ⟨now, monotonic⟩
        [.appendTaskLog (chapterFailureLine x.title task' true maxTries) "error",
          .recordFailure s.label x.title (describeChapterFailure task').1 (describeChapterFailure task').2] task
      simp only [List.foldl_cons, List.foldl_nil, progressAfter, logsAfter, failuresAfter] at hprogress hlogs hfailures
      refine h.exchange hx (fun c rest hshows hbefore hafter => ?_) ?_ (append_stays.1.trans hworker) hchapters
      · rw [hprogress, hfailures]
        refine hshows.exchange hbefore hafter hshows.tally rfl ?_ (.inr ⟨_, rfl, ?_⟩) hfresh hwaiting
        · rw [hcount, ← hbefore.countP_eq]
          exact hshows.completedChapters
        · simp [failureOf, x', reported_eq_some_true hreport, described]
      · rw [hlogs, h.logs, logs_append, hslogs, if_pos rfl]

/-- The worker goes on, maybe to the chapters of a course. -/
theorem Kept.move {next : Work} {task' : LearningTask} (counts : Counts begun c next)
    (hbegun : begun = false → s.studies = []) (logs : task'.logs = s.logs)
    (shows : Displays (entered next) s.chapters task'.progress task'.failures c) :
    Kept (s.moveTo next, task') := by
  cases next with
  | run course points rest =>
    obtain rfl : begun = true := counts.1
    have hchapters : (s.moveTo (.run course points rest)).chapters =
        (points.map fun point => (courseLabel course, ({ title := point.title } : Chapter))) ++ s.chapters := by
      rw [State.moveTo, State.chapters, List.flatMap_cons, List.map_map]
      rfl
    refine ⟨logs, true, c, counts, by simp, ?_⟩
    dsimp only
    rw [hchapters]
    refine Displays.enter (by simpa [entered] using shows) fun entry hentry => ?_
    obtain ⟨point, -, rfl⟩ := List.mem_map.mp hentry
    exact ⟨rfl, rfl⟩
  | _ => exact ⟨logs, begun, c, counts, hbegun, shows⟩

theorem write_status (s : State) (status : Option TaskAdmission.TaskStatus) :
    s.write (status.map .status) = s := by
  cases status <;> rfl

/-- A write of the worker itself. -/
theorem Kept.written (h : Kept (s, task)) (taken : workStep s (.write clock.now) = some t) :
    Kept (t, applyAll clock (workMutations s.worker (.write clock.now)) task) := by
  obtain ⟨begun, c, hcounts, hbegun, hshows⟩ := h.shows
  obtain ⟨hprogress, hlogs, hfailures⟩ :=
    applyAll_shown clock (workMutations s.worker (.write clock.now)) task
  simp only [workStep, Option.map_eq_some_iff] at taken
  obtain ⟨⟨next, write⟩, hstep, rfl⟩ := taken
  cases hworker : s.worker with
  | updateTask changes rest =>
    simp only [hworker, LogTail.learningStep, Option.some.injEq, Prod.mk.injEq] at hstep
    obtain ⟨rfl, rfl⟩ := hstep
    rw [hworker] at hcounts hprogress hlogs hfailures
    rw [write_status]
    refine Kept.move hcounts.2 hbegun (hlogs.trans h.logs) ?_
    rw [hprogress, hfailures, hcounts.1]
    exact hshows
  | appendTaskLog message level rest =>
    simp only [hworker, LogTail.learningStep, Option.some.injEq, Prod.mk.injEq] at hstep
    obtain ⟨rfl, rfl⟩ := hstep
    rw [hworker] at hcounts hprogress hlogs hfailures
    simp only [workMutations, List.foldl_cons, List.foldl_nil, progressAfter, logsAfter, failuresAfter]
      at hprogress hlogs hfailures
    change Kept ((s.append clock.now (message, level)).moveTo rest,
      applyAll clock [.appendTaskLog message level] task)
    refine Kept.move hcounts.2 (fun hnone => append_stays.2.trans (hbegun hnone)) ?_ ?_
    · rw [logs_append, ← h.logs]
      exact hlogs
    · rw [append_chapters, hcounts.1, hprogress, hfailures]
      exact hshows
  | updateProgress updates rest =>
    simp only [hworker, LogTail.learningStep, Option.some.injEq, Prod.mk.injEq] at hstep
    obtain ⟨rfl, rfl⟩ := hstep
    rw [hworker] at hcounts hprogress hlogs hfailures
    obtain ⟨c', hright, hturns, hkeys, hentered, hnext⟩ := hcounts
    refine Kept.move hnext nofun (hlogs.trans h.logs) ?_
    rw [hprogress, hfailures, hentered]
    cases begun with
    | true => exact hshows.update hturns hright hkeys
    | false =>
      have hchapters : s.chapters = [] := by rw [State.chapters, hbegun rfl, List.flatMap_nil]
      dsimp only at hshows
      rw [hchapters] at hshows
      change Displays 0 s.chapters _ _ _
      rw [hchapters]
      exact hshows.clear hturns hright hkeys
  | increaseProgress key delta rest =>
    simp only [hworker, LogTail.learningStep, Option.some.injEq, Prod.mk.injEq] at hstep
    obtain ⟨rfl, rfl⟩ := hstep
    rw [hworker] at hcounts hprogress hlogs hfailures
    obtain ⟨hbegan, rfl, hentered, hnext⟩ := hcounts
    refine Kept.move hnext hbegun (hlogs.trans h.logs) ?_
    rw [hprogress, hfailures, hentered]
    exact hshows.owe delta
  | notify summary rest =>
    simp only [hworker, LogTail.learningStep, Option.some.injEq, Prod.mk.injEq] at hstep
    obtain ⟨rfl, rfl⟩ := hstep
    rw [hworker] at hcounts hprogress hlogs hfailures
    refine Kept.move hcounts.2 hbegun (hlogs.trans h.logs) ?_
    rw [hprogress, hfailures, hcounts.1]
    exact hshows
  | _ => simp [hworker, LogTail.learningStep] at hstep

theorem Kept.worked {input : LogTail.LearningInput} (h : Kept (s, task)) (taken : workStep s input = some t)
    (time : (Action.work input).time = some clock.now ∨ (Action.work input).time = none) :
    Kept (t, applyAll clock (workMutations s.worker input) task) := by
  obtain ⟨begun, c, hcounts, hbegun, hshows⟩ := h.shows
  obtain ⟨hprogress, hlogs, hfailures⟩ := applyAll_shown clock (workMutations s.worker input) task
  cases input with
  | chapterFailed => cases taken
  | wait =>
    have hsame : ∃ status, t = s.write (some (.status status)) := by
      cases hworker : s.worker with
      | waitForResume next =>
        simp only [workStep, hworker, LogTail.learningStep, Option.map_some, Option.some_inj] at taken
        exact ⟨.paused, by rw [← taken, ← hworker]; rfl⟩
      | run course points next =>
        simp only [workStep, hworker, LogTail.learningStep, Option.map_some, Option.some_inj] at taken
        exact ⟨.paused, by rw [← taken, ← hworker]; rfl⟩
      | _ => simp [workStep, hworker, LogTail.learningStep] at taken
    obtain ⟨status, rfl⟩ := hsame
    refine ⟨hlogs.trans h.logs, begun, c, hcounts, hbegun, ?_⟩
    dsimp only
    rw [hprogress, hfailures]
    exact hshows
  | answer answer =>
    simp only [workStep, LogTail.learningStep, Option.map_map] at taken
    obtain ⟨next, hnext, rfl⟩ := Option.map_eq_some_iff.mp taken
    obtain ⟨hentered, hnext⟩ := hcounts.answer hnext
    refine Kept.move hnext hbegun (hlogs.trans h.logs) ?_
    rw [hprogress, hfailures, hentered]
    exact hshows
  | raise exception =>
    simp only [workStep, LogTail.learningStep] at taken
    split_ifs at taken
    · obtain rfl := Option.some_inj.mp taken
      refine Kept.move (c := c) (counts_failTask _) hbegun (hlogs.trans h.logs) ?_
      rw [hprogress, hfailures]
      exact hshows
    · cases taken
  | write now =>
    obtain rfl : now = clock.now := by simpa [Action.time] using time
    exact h.written taken

/-- What a callback or a request changes besides the lines and the counts. -/
theorem Kept.aside {ms : List Mutation} {updates : List (String × ProgressValue)} (h : Kept (s, task))
    (progress : ms.foldl progressAfter task.progress = task.progress.update updates)
    (logs : ms.foldl (logsAfter clock.now) task.logs = task.logs)
    (failures : ms.foldl (failuresAfter clock.now) task.failures = task.failures)
    (turns : ∀ c, Turns c updates c) (spares : Spares updates) : Kept (s, applyAll clock ms task) := by
  obtain ⟨begun, c, hcounts, hbegun, hshows⟩ := h.shows
  obtain ⟨hprogress, hlogs, hfailures⟩ := applyAll_shown clock ms task
  refine ⟨hlogs.trans (logs.trans h.logs), begun, c, hcounts, hbegun, ?_⟩
  dsimp only
  rw [hprogress, hfailures, progress, failures]
  exact hshows.update (turns c) hshows.right spares

/-- A line that is about no chapter. -/
theorem Kept.noted (h : Kept (s, task)) (clock : Clock) (line : String × String) :
    Kept (s.append clock.now line, applyAll clock [.appendTaskLog line.1 line.2] task) := by
  obtain ⟨begun, c, hcounts, hbegun, hshows⟩ := h.shows
  obtain ⟨hprogress, hlogs, hfailures⟩ := applyAll_shown clock [.appendTaskLog line.1 line.2] task
  refine ⟨?_, begun, c, ?_, fun hnone => append_stays.2.trans (hbegun hnone), ?_⟩
  · dsimp only
    rw [hlogs, logs_append, ← h.logs, List.foldl_cons, List.foldl_nil, logsAfter]
  · dsimp only
    rw [append_stays.1]
    exact hcounts
  · dsimp only
    rw [append_chapters, hprogress, hfailures]
    exact hshows

theorem Kept.step {p q : State × LearningTask} {a : RecordAction} (h : Kept p)
    (taken : recordStep p a = some q) : Kept q := by
  obtain ⟨s, task⟩ := p
  cases a with
  | run action clock =>
    obtain ⟨t, hstep, rfl⟩ := Option.map_eq_some_iff.mp taken
    cases action with
    | work input =>
      refine h.worked hstep ?_
      cases htime : (Action.work input).time with
      | none => exact .inr rfl
      | some now => exact .inl rfl
    | attempt i ending => exact h.attempt hstep
    | decide i now => exact h.decide hstep
    | request request now =>
      obtain rfl := Option.some_inj.mp hstep
      exact h.noted ⟨now, clock.monotonic⟩ _
    | notified notification now =>
      have hnoted := h.noted ⟨now, clock.monotonic⟩ notification.line
      cases hworker : s.worker with
      | notify summary next =>
        simp only [LearningRun.step, hworker, Option.some_inj] at hstep
        subst hstep
        obtain ⟨begun, c, hcounts, hbegun, hshows⟩ := hnoted.shows
        dsimp only at hcounts hbegun hshows
        rw [append_stays.1, hworker] at hcounts
        refine Kept.move hcounts.2 hbegun hnoted.logs ?_
        rw [hcounts.1]
        exact hshows
      | _ => simp [LearningRun.step, hworker] at hstep
  | startChapter i clock =>
    obtain ⟨x, hx, rfl⟩ := Option.map_eq_some_iff.mp taken
    exact h.aside rfl rfl rfl (fun c => turns_of rfl rfl rfl rfl) (spares_of (by simp [List.lookup]))
  | video name current duration clock =>
    obtain rfl := Option.some_inj.mp taken
    exact h.aside rfl rfl rfl (fun c => turns_of rfl rfl rfl rfl) (spares_of (by simp [List.lookup]))
  | control request clock =>
    obtain rfl := Option.some_inj.mp taken
    have hspares : Spares [] := spares_of (by simp)
    cases request <;> exact h.aside rfl rfl rfl (fun c => turns_of rfl rfl rfl rfl) hspares

end Steps

/-- In every state that a task can reach, its record shows the run: the same lines; how many chapters the
courses begun so far have, and how many of them have succeeded; the courses, each counted once when it is
done with; and the latest chapters that were given up. -/
theorem record_shows_run {s : State} {task : LearningTask}
    (reached : recordRun.Reachable Machine.free (s, task)) :
    task.logs = s.logs ∧
    task.progress.get "total_chapters" = some (.int s.chapters.length) ∧
    task.progress.get "completed_chapters" = some (.int (s.chapters.countP succeeded)) ∧
    (∃ c : Tally, c.Shows task.progress ∧ c.Right) ∧
    ∃ all, all.Perm (s.chapters.filterMap failureOf) ∧
      task.failures.map described = keepLast maxTaskFailures all := by
  have hkept : Kept (s, task) := by
    refine reached.invariant (I := Kept) (fun p hstart => ?_) fun p a q hp _ taken => hp.step taken
    obtain ⟨s, task⟩ := p
    obtain ⟨⟨⟨payload, hworker⟩, hstudies, hlogs⟩, taskId, userId, now, pauseEvent, stopEvent, rfl⟩ := hstart
    dsimp only at hworker hstudies hlogs
    have hchapters : s.chapters = [] := by rw [State.chapters, hstudies, List.flatMap_nil]
    refine ⟨hlogs.symm, false, ⟨0, 0, 0, 0⟩, hworker ▸ counts_runTaskWorker payload, fun _ => hstudies, ?_⟩
    dsimp only
    rw [hchapters]
    change Displays 0 [] learningRules.defaultProgress [] _
    exact ⟨⟨by decide, by decide, by decide, by decide⟩, ⟨le_rfl, le_rfl, le_rfl, by decide, le_rfl⟩, by decide,
      by decide, ⟨[], .nil, rfl⟩, by simp⟩
  obtain ⟨begun, c, -, -, hshows⟩ := hkept.shows
  refine ⟨hkept.logs, ?_, hshows.completedChapters, ⟨c, hshows.tally, hshows.right⟩, hshows.failures⟩
  rw [hshows.totalChapters, add_zero]

/-! ### A run with one chapter -/

/-- One course with one chapter, which fails at first. -/
def oneChapterRun : List RecordAction :=
  ([.work (.answer (.controlEvents true)), .work (.write 0), .work (.write 0),
    .work (.answer (.initChaoxing (.ok ()))), .work (.answer (.login (.ok ⟨true, "", ""⟩))), .work (.write 0),
    .work (.answer (.getCourseList (.ok [⟨"1", "2", "3", "A", ""⟩]))), .work (.write 0), .work (.write 0),
    .work (.answer (.stopIsSet false)), .work (.answer (.waitForResume true)), .work (.write 0), .work (.write 0),
    .work (.write 0), .work (.answer (.getCoursePoint (.ok [⟨"9", "T", false⟩]))), .work (.write 0),
    .attempt 0 .error, .decide 0 0, .attempt 0 .success, .decide 0 0] : List Action).map (.run · ⟨0, 0⟩)

def admitted (payload : Payload) : State × LearningTask :=
  (⟨runTaskWorker payload, "retry", [], []⟩, newTask "t" "u" 0 0 1)

theorem start_admitted (payload : Payload) : recordRun.start (admitted payload) :=
  ⟨⟨⟨payload, rfl⟩, rfl, rfl⟩, "t", "u", 0, 0, 1, rfl⟩

theorem exec_oneChapterRun : (recordRun.exec (admitted ⟨"u", "p", [], "1.5", 4, []⟩) oneChapterRun).any (fun p =>
    p.1.chapters.length = 1 && p.1.chapters.countP succeeded = 1) = true := by
  decide +kernel

theorem record_shows_success : ∃ s task, recordRun.Reachable Machine.free (s, task) ∧
    s.chapters.countP succeeded = 1 ∧ task.progress.get "completed_chapters" = some (.int 1) := by
  have hexec := exec_oneChapterRun
  rw [Option.any_eq_true] at hexec
  obtain ⟨⟨s, task⟩, hexec, hthere⟩ := hexec
  rw [Bool.and_eq_true, decide_eq_true_iff, decide_eq_true_iff] at hthere
  have hreach := Machine.reachable_of_exec oneChapterRun (start_admitted _) hexec
  obtain ⟨-, -, hcompleted, -, -⟩ := record_shows_run hreach
  rw [hthere.2] at hcompleted
  exact ⟨s, task, hreach, hthere.2, hcompleted⟩

end UniversityHelper.LearningRun
