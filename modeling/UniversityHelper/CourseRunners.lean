import UniversityHelper.InlineRunner
import UniversityHelper.LearningRun
import UniversityHelper.Simulation

/-! What a task's run knows of the chapters of a course, against the two runners that study them: the
threads of `JobProcessor` and its loop on the calling thread carry out the steps of the run. -/
namespace UniversityHelper.LearningRun
set_option linter.unusedSectionVars false
open ChapterLog (chapterFailureLine)
open JobProcessor (Batch ChapterTask Ledger UnderWay machine maxTries pageAfter processTask runInline)
open LearningWorker (Work courseLabel)
open TaskAdmission (Instant)
open TaskManager (LogLine learningRules)

/-- The batch that `process_course` makes of the chapters of a course; `ending i k` is how call `k` of
`process_chapter` at chapter `i` ends. -/
def courseBatch (chapters : ℕ) (notopenAction : String) (ending : ℕ → ℕ → Ending) : Batch where
  chapters := List.range chapters
  distinct := List.nodup_range
  notopenAction := notopenAction
  attempt i k := (ending i k).attempt

/-! ### The reports -/

/-- The line about a report, which comes after the first attempt of a chapter or after the last. -/
def reportLine (batch : Batch) (titles : List String) (report : ℕ × Bool) : String × String :=
  let attempts := if report.2 = true then maxTries else 1
  (chapterFailureLine (titles.getD report.1 "") (pageAfter batch report.1 attempts).task report.2 maxTries,
    if report.2 = true then "error" else "warning")

/-- The log after some reports, where report `k` is made at `now k`. -/
def reportLog (batch : Batch) (titles : List String) (now : ℕ → Instant) (logs : List LogLine)
    (reports : List (ℕ × Bool)) : List LogLine :=
  (reports.mapIdx fun k report =>
    (⟨now k, (reportLine batch titles report).1, (reportLine batch titles report).2⟩ : LogLine)).foldl
      (fun logs line => keepLast learningRules.logLimit (logs ++ [line])) logs

variable {batch : Batch} {titles : List String} {now : ℕ → Instant} {logs : List LogLine}
  {reports : List (ℕ × Bool)} {report : ℕ × Bool} {i : ℕ}

theorem reportLog_concat : reportLog batch titles now logs (reports ++ [report]) =
    keepLast learningRules.logLimit (reportLog batch titles now logs reports ++
      [⟨now reports.length, (reportLine batch titles report).1, (reportLine batch titles report).2⟩]) := by
  rw [reportLog, reportLog, List.mapIdx_concat, List.foldl_append, List.foldl_cons, List.foldl_nil]

theorem giveUp_exhausts {task : ChapterTask} (h : (JobProcessor.afterAttempt batch task).2 = .giveUp)
    (result : task.result ≠ .pending) : maxTries ≤ task.tries + 1 := by
  unfold JobProcessor.afterAttempt at h
  cases hresult : task.result with
  | success => simp [hresult] at h
  | pending => exact absurd hresult result
  | error =>
    simp only [hresult] at h
    exact (JobProcessor.countFailure_giveUp h).2
  | notOpen =>
    simp only [hresult] at h
    split at h
    · cases h
    · exact (JobProcessor.countFailure_giveUp h).2

theorem decide_task (p : JobProcessor.Page) :
    (p.decide batch).1.task = (JobProcessor.afterAttempt batch p.task).1 := by
  unfold JobProcessor.Page.decide
  dsimp only
  split <;> rfl

/-- The record of a chapter when it is reported. -/
theorem reported_record {p : JobProcessor.Page} (h : UnderWay batch i p) {final : Bool}
    (hreport : reported (JobProcessor.afterAttempt batch (p.process batch i).task).2 = some final) :
    (JobProcessor.afterAttempt batch (p.process batch i).task).1 =
      (pageAfter batch i (if final = true then maxTries else 1)).task := by
  obtain ⟨n, rfl, hbefore⟩ := h
  have hretried := JobProcessor.retried_pageAfter n hbefore
  have hnext : (pageAfter batch i (n + 1)).task =
      (JobProcessor.afterAttempt batch ((pageAfter batch i n).process batch i).task).1 := by
    rw [pageAfter, decide_task]
  obtain ⟨htries, hresult⟩ := JobProcessor.processTask_tries (pageAfter batch i n).task
    (batch.attempt i ((pageAfter batch i n).attempts + 1))
  rw [hretried.tries] at htries
  cases hdecision : (JobProcessor.afterAttempt batch ((pageAfter batch i n).process batch i).task).2 with
  | settle =>
    rw [hdecision] at hreport
    cases hreport
  | giveUp =>
    rw [hdecision] at hreport
    cases hreport
    have hlast := giveUp_exhausts hdecision hresult
    have hleft := hretried.triesLeft
    have hn : n + 1 = maxTries := by
      rw [JobProcessor.Page.process] at hlast
      dsimp only at hlast
      omega
    rw [if_pos rfl, ← hn, hnext]
  | retry first =>
    obtain ⟨-, -, -, hfirst⟩ := JobProcessor.afterAttempt_retry hdecision
    rw [hdecision, reported] at hreport
    split at hreport
    · rename_i hf
      cases hreport
      have hn : n = 0 := by
        rw [← htries]
        exact hfirst.mp hf
      rw [if_neg (by decide), ← hnext, hn]
    · cases hreport

/-! ### The steps of the run -/

def sheet (titles : List String) (task : ℕ → ChapterTask) (phase : ℕ → Phase) : List Chapter :=
  titles.mapIdx fun i title => ⟨title, task i, phase i⟩

/-- The run, with the chapters of the course it studies on the sheet. -/
def State.studying (r : State) (label : String) (earlier : List Study) (chapters : List Chapter)
    (logs : List LogLine) : State := { r with studies := ⟨label, chapters⟩ :: earlier, logs := logs }

variable {r : State} {course : LearningWorker.Course} {points : List LearningWorker.Point}
  {next : Except String ℕ → Work} {label : String} {earlier : List Study}
  {task : ℕ → ChapterTask} {phase : ℕ → Phase}

theorem afterAttempt_course {ending : ℕ → ℕ → Ending} {chapters : ℕ}
    (hbatch : batch = courseBatch chapters r.notopenAction ending) (record : ChapterTask) :
    afterAttempt r.notopenAction record = JobProcessor.afterAttempt batch record := by
  rw [afterAttempt_batch, hbatch]
  rfl

theorem sheet_set (hi : i < titles.length) (record : ChapterTask) (next : Phase) :
    (sheet titles task phase).set i ⟨titles[i], record, next⟩ =
      sheet titles (Function.update task i record) (Function.update phase i next) := by
  refine List.ext_getElem? fun j => ?_
  rw [sheet, sheet, List.getElem?_mapIdx]
  by_cases hij : i = j
  · subst hij
    rw [List.getElem?_set_self (by rwa [List.length_mapIdx]), List.getElem?_eq_getElem hi]
    simp
  · rw [List.getElem?_set_ne hij, List.getElem?_mapIdx]
    simp [Ne.symm hij]

theorem chapter_studying (worker : r.worker = .run course points next) (hi : i < titles.length) :
    (r.studying label earlier (sheet titles task phase) logs).chapter i =
      some ⟨titles[i], task i, phase i⟩ := by
  rw [State.chapter, State.studying]
  simp [worker, sheet, List.getElem?_eq_getElem hi]

theorem studying_setChapter (hi : i < titles.length) (record : ChapterTask) (next : Phase) :
    (r.studying label earlier (sheet titles task phase) logs).setChapter i ⟨titles[i], record, next⟩ =
      r.studying label earlier
        (sheet titles (Function.update task i record) (Function.update phase i next)) logs := by
  rw [← sheet_set hi]
  rfl

/-- An attempt, whichever runner makes it. -/
theorem attempt_run (label : String) (earlier : List Study) (task : ℕ → ChapterTask) (phase : ℕ → Phase)
    (logs : List LogLine) (worker : r.worker = .run course points next) (hi : i < titles.length)
    (hphase : phase i = .waiting) (ending : Ending) :
    learningRun.Run Machine.free (r.studying label earlier (sheet titles task phase) logs)
      (r.studying label earlier (sheet titles
        (Function.update task i (processTask (task i) ending.attempt))
        (Function.update phase i .attempted)) logs) := by
  refine Machine.Run.single (b := .attempt i ending) trivial ?_
  simp only [learningRun, step, attemptStep, chapter_studying worker hi, Option.bind_some, hphase,
    if_true]
  rw [← studying_setChapter hi]

/-- The decision after it. -/
theorem decide_run (label : String) (earlier : List Study) (task : ℕ → ChapterTask) (phase : ℕ → Phase)
    (logs : List LogLine) (worker : r.worker = .run course points next) (hi : i < titles.length)
    (hphase : phase i = .attempted) (time : Instant) :
    learningRun.Run Machine.free (r.studying label earlier (sheet titles task phase) logs)
      (r.studying label earlier (sheet titles
        (Function.update task i (afterAttempt r.notopenAction (task i)).1)
        (Function.update phase i (.after (afterAttempt r.notopenAction (task i)).2)))
        (match reported (afterAttempt r.notopenAction (task i)).2 with
        | none => logs
        | some final => keepLast learningRules.logLimit (logs ++
            [⟨time, chapterFailureLine titles[i] (afterAttempt r.notopenAction (task i)).1 final maxTries,
              if final = true then "error" else "warning"⟩]))) := by
  refine Machine.Run.single (b := .decide i time) trivial ?_
  have haction : (r.studying label earlier (sheet titles task phase) logs).notopenAction =
      r.notopenAction := rfl
  simp only [learningRun, step, decideStep, chapter_studying worker hi, Option.bind_some, hphase,
    if_true, haction, studying_setChapter hi]
  cases reported (afterAttempt r.notopenAction (task i)).2 with
  | none => rfl
  | some final => rfl

/-! ### Both runners -/

/-- The phase of a chapter by its page, between an attempt and the next. -/
def pagePhase (batch : Batch) (p : JobProcessor.Page) : Phase :=
  match p.ending batch with
  | none => .waiting
  | some .givenUp => .givenUp
  | some _ => .settled

theorem pagePhase_underWay {p : JobProcessor.Page} (h : UnderWay batch i p) :
    pagePhase batch p = .waiting := by
  rw [pagePhase, h.ending]

theorem pagePhase_decide {p : JobProcessor.Page} (h : UnderWay batch i p) :
    pagePhase batch ((p.process batch i).decide batch).1 =
      .after (JobProcessor.afterAttempt batch (p.process batch i).task).2 := by
  have hfailures : (p.process batch i).failures = 0 := by
    obtain ⟨n, rfl, hbefore⟩ := h
    exact (JobProcessor.retried_pageAfter n hbefore).failures
  have hattempt := h.attempt
  generalize p.process batch i = q at hattempt hfailures ⊢
  unfold JobProcessor.Page.decide at hattempt ⊢
  dsimp only at hattempt ⊢
  cases hdecision : (JobProcessor.afterAttempt batch q.task).2 with
  | settle =>
    obtain ⟨hsame, hresult⟩ := JobProcessor.afterAttempt_settle hdecision
    rw [pagePhase, JobProcessor.Page.ending, hsame, if_neg (by simp [hfailures])]
    rcases hresult with h | ⟨h, hcontinue⟩
    · simp [h, Phase.after]
    · simp [h, hcontinue, Phase.after]
  | giveUp => simp [pagePhase, JobProcessor.Page.ending, Phase.after]
  | retry first =>
    simp only [hdecision] at hattempt ⊢
    exact pagePhase_underWay hattempt

/-- The reports that a decision adds. -/
def reportsOf (i : ℕ) (decision : JobProcessor.Decision) : List (ℕ × Bool) :=
  (reported decision).toList.map fun final => (i, final)

theorem reportLog_decided {p : JobProcessor.Page} (h : UnderWay batch i p) (hi : i < titles.length)
    {record : ChapterTask} (hrecord : (p.process batch i).task = record) :
    (match reported (JobProcessor.afterAttempt batch record).2 with
      | none => reportLog batch titles now logs reports
      | some final => keepLast learningRules.logLimit (reportLog batch titles now logs reports ++
          [⟨now reports.length,
            chapterFailureLine titles[i] (JobProcessor.afterAttempt batch record).1 final maxTries,
            if final = true then "error" else "warning"⟩])) =
      reportLog batch titles now logs
        (reports ++ reportsOf i (JobProcessor.afterAttempt batch record).2) := by
  subst hrecord
  cases hreport : reported (JobProcessor.afterAttempt batch (p.process batch i).task).2 with
  | none => simp [reportsOf, hreport]
  | some final =>
    have hlist : reportsOf i (JobProcessor.afterAttempt batch (p.process batch i).task).2 =
        [(i, final)] := by simp [reportsOf, hreport]
    rw [hlist, reportLog_concat, reported_record h hreport]
    simp [reportLine, List.getElem?_eq_getElem hi]

/-! ### The threads -/

section Threads
variable {W : Type*} [DecidableEq W] [Fintype W] {s t : JobProcessor.State W} {w : W}

/-- Where the threads have a chapter. -/
def phaseOf (batch : Batch) (s : JobProcessor.State W) (i : ℕ) : Phase :=
  if ∃ w, s.worker w = .deciding i then .attempted else pagePhase batch (s.ledger.page i)

/-- The run, as the threads have its course. -/
def State.threaded (r : State) (label : String) (earlier : List Study) (batch : Batch)
    (titles : List String) (now : ℕ → Instant) (s : JobProcessor.State W) : State :=
  r.studying label earlier (sheet titles s.task (phaseOf batch s))
    (reportLog batch titles now r.logs s.failureReports)

theorem deciding_reports (phase : s.worker w = .deciding i)
    (taken : JobProcessor.workerStep batch s w = some t) :
    t.task = Function.update s.task i (JobProcessor.afterAttempt batch (s.task i)).1 ∧
      t.failureReports =
        s.failureReports ++ reportsOf i (JobProcessor.afterAttempt batch (s.task i)).2 := by
  simp only [JobProcessor.workerStep, phase] at taken
  cases hdecision : (JobProcessor.afterAttempt batch (s.task i)).2 with
  | settle =>
    simp only [hdecision] at taken
    cases taken
    exact ⟨rfl, by simp [reportsOf, reported, JobProcessor.State.goto]⟩
  | giveUp =>
    simp only [hdecision] at taken
    cases taken
    exact ⟨rfl, by simp [reportsOf, reported]⟩
  | retry first =>
    simp only [hdecision] at taken
    cases taken
    refine ⟨rfl, ?_⟩
    cases first with
    | true => simp [reportsOf, reported]
    | false => simp [reportsOf, reported]

theorem phaseOf_free (free : ∀ w, s.worker w ≠ .deciding i) :
    phaseOf batch s i = pagePhase batch (s.ledger.page i) := by
  rw [phaseOf, if_neg]
  rintro ⟨w, hw⟩
  exact free w hw

theorem phaseOf_deciding (batch : Batch) (phase : s.worker w = .deciding i) : phaseOf batch s i = .attempted := by
  rw [phaseOf, if_pos ⟨w, phase⟩]

theorem free_of_held (nodup : s.inPlay.Nodup) (held : i ∈ (s.worker w).held)
    (other : s.worker w ≠ .deciding i) (v : W) : s.worker v ≠ .deciding i := by
  intro hv
  have hvw := JobProcessor.holder_unique nodup held (v := v)
    (by rw [hv]; exact Multiset.mem_singleton_self i)
  exact other (hvw ▸ hv)

/-- A worker that moves changes the phase of the chapter it holds, by the pages alone. -/
theorem phaseOf_other {j : ℕ} {before after : JobProcessor.WorkerPhase} (phase : s.worker w = before)
    (worker : t.worker = Function.update s.worker w after) (hbefore : before ≠ .deciding j)
    (hafter : after ≠ .deciding j) (page : t.ledger.page j = s.ledger.page j) :
    phaseOf batch t j = phaseOf batch s j := by
  have hdeciding : (∃ v, t.worker v = .deciding j) ↔ ∃ v, s.worker v = .deciding j := by
    refine exists_congr fun v => ?_
    rw [worker]
    by_cases hv : v = w
    · subst hv
      rw [Function.update_self, phase]
      exact iff_of_false hafter hbefore
    · rw [Function.update_of_ne hv]
  simp only [phaseOf, hdeciding, page]

variable {ending : ℕ → ℕ → Ending}

/-- A worker attempts the chapter it has got. -/
theorem threaded_attempt (worker : r.worker = .run course points next)
    (hbatch : batch = courseBatch titles.length r.notopenAction ending)
    (recorded : JobProcessor.Recorded batch s) (nodup : s.inPlay.Nodup)
    (within : ∀ i ∈ s.inPlay, i < titles.length) (hprocessing : s.worker w = .processing i)
    (taken : JobProcessor.workerStep batch s w = some t) :
    learningRun.Run Machine.free (r.threaded label earlier batch titles now s)
      (r.threaded label earlier batch titles now t) := by
  have hheld : i ∈ (s.worker w).held := by rw [hprocessing]; exact Multiset.mem_singleton_self i
  have hplay := JobProcessor.mem_inPlay_of_held hheld
  have hfree := free_of_held nodup hheld (by rw [hprocessing]; exact nofun)
  have hwaiting : phaseOf batch s i = .waiting := by
    rw [phaseOf_free hfree]
    exact pagePhase_underWay (recorded.inPlay i hplay hfree)
  obtain ⟨hworker, -, -, hothers⟩ := JobProcessor.processing_page hprocessing taken
  have hnext : phaseOf batch t = Function.update (phaseOf batch s) i .attempted := by
    funext j
    by_cases hj : j = i
    · subst hj
      rw [Function.update_self]
      exact phaseOf_deciding batch (w := w) (by rw [hworker, Function.update_self])
    · rw [Function.update_of_ne hj]
      exact phaseOf_other hprocessing hworker nofun (by simpa using Ne.symm hj) (hothers j hj)
  have hledger : t.task = Function.update s.task i
      (processTask (s.task i) (ending i (s.attempts i + 1)).attempt) ∧
      t.failureReports = s.failureReports := by
    simp only [JobProcessor.workerStep, hprocessing] at taken
    cases taken
    exact ⟨by rw [hbatch]; rfl, rfl⟩
  rw [State.threaded, State.threaded, hnext, hledger.1, hledger.2]
  exact attempt_run _ _ _ _ _ worker (within i hplay) hwaiting _

/-- The worker decides what becomes of it, and reports it where it must. -/
theorem threaded_decide (worker : r.worker = .run course points next)
    (hbatch : batch = courseBatch titles.length r.notopenAction ending)
    (recorded : JobProcessor.Recorded batch s) (nodup : s.inPlay.Nodup)
    (within : ∀ i ∈ s.inPlay, i < titles.length) (hdeciding : s.worker w = .deciding i)
    (taken : JobProcessor.workerStep batch s w = some t) :
    learningRun.Run Machine.free (r.threaded label earlier batch titles now s)
      (r.threaded label earlier batch titles now t) := by
  have hheld : i ∈ (s.worker w).held := by rw [hdeciding]; exact Multiset.mem_singleton_self i
  have hlt := within i (JobProcessor.mem_inPlay_of_held hheld)
  obtain ⟨p, hunder, hprocessed⟩ := recorded.deciding w i hdeciding
  have hrecord : (p.process batch i).task = s.task i := by
    rw [← hprocessed]
    rfl
  obtain ⟨hpage, hothers, hmove⟩ := JobProcessor.deciding_page hdeciding taken
  obtain ⟨htask, hreports⟩ := deciding_reports hdeciding taken
  have hworker : ∃ after, t.worker = Function.update s.worker w after ∧ ∀ j, after ≠ .deciding j := by
    split at hmove
    · exact ⟨_, hmove.1, nofun⟩
    · exact ⟨_, hmove.1, nofun⟩
  obtain ⟨after, hworker, hafter⟩ := hworker
  have hfree : ∀ v, t.worker v ≠ .deciding i := by
    intro v hv
    rw [hworker] at hv
    by_cases hvw : v = w
    · rw [hvw, Function.update_self] at hv
      exact hafter i hv
    · rw [Function.update_of_ne hvw] at hv
      exact hvw (JobProcessor.holder_unique nodup hheld
        (by rw [hv]; exact Multiset.mem_singleton_self i))
  have hnext : phaseOf batch t = Function.update (phaseOf batch s) i
      (.after (JobProcessor.afterAttempt batch (s.task i)).2) := by
    funext j
    by_cases hj : j = i
    · subst hj
      rw [Function.update_self, phaseOf_free hfree, hpage, hprocessed, pagePhase_decide hunder, hrecord]
    · rw [Function.update_of_ne hj]
      exact phaseOf_other hdeciding hworker (by simpa using Ne.symm hj) (hafter j) (hothers j hj)
  have hdecided := decide_run label earlier s.task (phaseOf batch s)
    (reportLog batch titles now r.logs s.failureReports) worker hlt
    (phaseOf_deciding batch hdeciding) (now s.failureReports.length)
  rw [afterAttempt_course hbatch, reportLog_decided hunder hlt hrecord] at hdecided
  rw [State.threaded, State.threaded, hnext, htask, hreports]
  exact hdecided

/-- One step of the threads is a run of the task, mostly an empty one. -/
theorem threaded_step {a : JobProcessor.Action W} (worker : r.worker = .run course points next)
    (hbatch : batch = courseBatch titles.length r.notopenAction ending)
    (reached : (machine W batch).Reachable Machine.free s)
    (taken : (machine W batch).step s a = some t) :
    learningRun.Run Machine.free (r.threaded label earlier batch titles now s)
      (r.threaded label earlier batch titles now t) := by
  have haccounted := JobProcessor.Accounted.of_reachable reached
  have hrecorded := JobProcessor.Recorded.of_reachable reached
  have hwithin : ∀ i ∈ s.inPlay, i < titles.length := by
    intro i hi
    obtain ⟨settled, hsplit, -⟩ := haccounted
    have hmem : i ∈ (batch.chapters : Multiset ℕ) := by
      rw [← hsplit]
      exact Multiset.mem_add.mpr (.inl hi)
    rw [hbatch] at hmem
    exact List.mem_range.mp hmem
  by_cases hquiet : ∀ w i, a = .work w → s.worker w ≠ .processing i ∧ s.worker w ≠ .deciding i
  · obtain ⟨hledger, hdeciding⟩ := JobProcessor.step_quiet taken hquiet
    have htask : t.task = s.task := congrArg Ledger.task hledger
    have hreports : t.failureReports = s.failureReports := congrArg Ledger.failureReports hledger
    have hphase : phaseOf batch t = phaseOf batch s := by
      funext i
      simp only [phaseOf, hdeciding, hledger]
    refine Machine.Run.of_eq ?_
    rw [State.threaded, State.threaded, htask, hreports, hphase]
  · push Not at hquiet
    obtain ⟨w, i, rfl, hphase⟩ := hquiet
    by_cases hprocessing : s.worker w = .processing i
    · exact threaded_attempt worker hbatch hrecorded haccounted.nodup hwithin hprocessing taken
    · exact threaded_decide worker hbatch hrecorded haccounted.nodup hwithin (hphase hprocessing) taken

end Threads

/-! ### The loop on the calling thread -/

/-- The run, as a ledger has its course between two attempts. -/
def State.recorded (r : State) (label : String) (earlier : List Study) (batch : Batch)
    (titles : List String) (now : ℕ → Instant) (l : Ledger) : State :=
  r.studying label earlier (sheet titles l.task fun i => pagePhase batch (l.page i))
    (reportLog batch titles now r.logs l.failureReports)

section Inline
variable {l : Ledger} {ending : ℕ → ℕ → Ending}

theorem inlineAttempt_reports (batch : Batch) (i : ℕ) (l : Ledger) :
    (JobProcessor.inlineAttempt batch i l).1.task = Function.update l.task i
        (JobProcessor.afterAttempt batch ((l.page i).process batch i).task).1 ∧
      (JobProcessor.inlineAttempt batch i l).1.failureReports = l.failureReports ++
        reportsOf i (JobProcessor.afterAttempt batch ((l.page i).process batch i).task).2 := by
  have hrecord : ((l.page i).process batch i).task =
      processTask (l.task i) (batch.attempt i (l.attempts i + 1)) := rfl
  rw [hrecord]
  unfold JobProcessor.inlineAttempt
  dsimp only
  cases (JobProcessor.afterAttempt batch (processTask (l.task i) (batch.attempt i (l.attempts i + 1)))).2 with
  | settle => exact ⟨rfl, by simp [reportsOf, reported]⟩
  | giveUp => exact ⟨rfl, by simp [reportsOf, reported]⟩
  | retry first =>
    refine ⟨rfl, ?_⟩
    cases first with
    | true => simp [reportsOf, reported]
    | false => simp [reportsOf, reported]

/-- One pass of the loop is an attempt and its decision. -/
theorem inlineAttempt_run (worker : r.worker = .run course points next)
    (hbatch : batch = courseBatch titles.length r.notopenAction ending) (hi : i < titles.length)
    (h : UnderWay batch i (l.page i)) :
    learningRun.Run Machine.free (r.recorded label earlier batch titles now l)
      (r.recorded label earlier batch titles now (JobProcessor.inlineAttempt batch i l).1) := by
  obtain ⟨hpage, hothers⟩ := JobProcessor.inlineAttempt_page batch i l
  obtain ⟨htask, hreports⟩ := inlineAttempt_reports batch i l
  have hphase : (fun j => pagePhase batch ((JobProcessor.inlineAttempt batch i l).1.page j)) =
      Function.update (fun j => pagePhase batch (l.page j)) i
        (.after (JobProcessor.afterAttempt batch ((l.page i).process batch i).task).2) := by
    funext j
    by_cases hj : j = i
    · subst hj
      rw [Function.update_self, ← pagePhase_decide h, ← hpage]
    · rw [Function.update_of_ne hj, hothers j hj]
  have hrecord : ((l.page i).process batch i).task =
      processTask (l.task i) (ending i (l.attempts i + 1)).attempt := by
    rw [hbatch]
    rfl
  have hattempt := attempt_run label earlier l.task (fun j => pagePhase batch (l.page j))
    (reportLog batch titles now r.logs l.failureReports) worker hi (pagePhase_underWay h)
    (ending i (l.attempts i + 1))
  rw [← hrecord] at hattempt
  have hdecided := decide_run label earlier
    (Function.update l.task i ((l.page i).process batch i).task)
    (Function.update (fun j => pagePhase batch (l.page j)) i .attempted)
    (reportLog batch titles now r.logs l.failureReports) worker hi (Function.update_self _ _ _)
    (now l.failureReports.length)
  rw [afterAttempt_course hbatch, Function.update_self, Function.update_idem, Function.update_idem,
    reportLog_decided h hi rfl] at hdecided
  rw [State.recorded, State.recorded, htask, hphase, hreports]
  exact hattempt.trans hdecided

theorem runChapter_run (worker : r.worker = .run course points next)
    (hbatch : batch = courseBatch titles.length r.notopenAction ending) (hi : i < titles.length)
    (h : UnderWay batch i (l.page i)) :
    learningRun.Run Machine.free (r.recorded label earlier batch titles now l)
      (r.recorded label earlier batch titles now (JobProcessor.runChapter batch i l)) := by
  induction l using JobProcessor.runChapter.induct batch i with
  | case1 l again ih =>
    have hpage := (JobProcessor.inlineAttempt_page batch i l).1
    have hattempt := h.attempt
    rw [← hpage, if_pos again] at hattempt
    rw [JobProcessor.runChapter, dif_pos again]
    exact (inlineAttempt_run worker hbatch hi h).trans (ih hattempt)
  | case2 l last =>
    rw [JobProcessor.runChapter, dif_neg last]
    exact inlineAttempt_run worker hbatch hi h

theorem foldl_runChapter_run (label : String) (earlier : List Study) (now : ℕ → Instant)
    (worker : r.worker = .run course points next)
    (hbatch : batch = courseBatch titles.length r.notopenAction ending) (chapters : List ℕ)
    (distinct : chapters.Nodup) (within : ∀ i ∈ chapters, i < titles.length)
    (h : ∀ i ∈ chapters, UnderWay batch i (l.page i)) :
    learningRun.Run Machine.free (r.recorded label earlier batch titles now l)
      (r.recorded label earlier batch titles now
        (chapters.foldl (fun l i => JobProcessor.runChapter batch i l) l)) := by
  induction chapters generalizing l with
  | nil => exact .refl
  | cons j chapters ih =>
    obtain ⟨hj, hdistinct⟩ := List.nodup_cons.mp distinct
    have hfirst := h j List.mem_cons_self
    obtain ⟨-, hothers⟩ := JobProcessor.runChapter_page batch j l hfirst
    have hrest : ∀ i ∈ chapters, UnderWay batch i ((JobProcessor.runChapter batch j l).page i) := by
      intro i hi
      rw [hothers i fun hij => hj (hij ▸ hi)]
      exact h i (List.mem_cons_of_mem j hi)
    exact (runChapter_run worker hbatch (within j List.mem_cons_self) hfirst).trans
      (ih hdistinct (fun i hi => within i (List.mem_cons_of_mem j hi)) hrest)

end Inline

/-- Where a course begins, the run can take its chapters to wherever a schedule of the threads takes
them, and to where the loop leaves them: the records, the phases and the lines are the same. -/
theorem runners_study_course (W : Type*) [DecidableEq W] [Fintype W] (r : State)
    (course : LearningWorker.Course) (points : List LearningWorker.Point)
    (next : Except String ℕ → Work) (ending : ℕ → ℕ → Ending) (now : ℕ → Instant) :
    let begun := r.moveTo (.run course points next)
    let titles := points.map LearningWorker.Point.title
    let batch := courseBatch points.length r.notopenAction ending
    (∀ s : JobProcessor.State W, (machine W batch).Reachable Machine.free s →
      learningRun.Run Machine.free begun
        (begun.threaded (courseLabel course) r.studies batch titles now s)) ∧
    learningRun.Run Machine.free begun
      (begun.recorded (courseLabel course) r.studies batch titles now (runInline batch)) := by
  intro begun titles batch
  have hbatch : batch = courseBatch titles.length begun.notopenAction ending := by
    rw [List.length_map]
    rfl
  -- both representations begin with new chapters
  have hnew : begun.studying (courseLabel course) r.studies
      (sheet titles (fun _ => {}) fun _ => .waiting) r.logs = begun := by
    have hchapters : sheet titles (fun _ => {}) (fun _ => .waiting) =
        points.map fun point => { title := point.title } := by
      rw [sheet, List.mapIdx_eq_iff]
      intro i
      rw [List.getElem?_map, List.getElem?_map, Option.map_map]
      rfl
    rw [State.studying, hchapters]
    rfl
  have hwaiting : ∀ i, pagePhase batch ⟨{}, 0, 0, []⟩ = .waiting := fun i =>
    pagePhase_underWay (JobProcessor.underWay_new batch i)
  constructor
  · intro s reached
    obtain ⟨s₀, hs₀, run⟩ := reached.mapped (begun.threaded (courseLabel course) r.studies batch titles now)
      fun s a t hs _ taken => threaded_step rfl hbatch hs taken
    obtain ⟨-, -, -, -, htask, hattempts, hfailed, hreports, hworkers, -, -⟩ := hs₀
    have hphase : phaseOf batch s₀ = fun _ => .waiting := by
      funext i
      rw [phaseOf_free (by simp [hworkers])]
      simpa [JobProcessor.State.ledger, Ledger.page, htask, hattempts, hfailed, hreports] using hwaiting i
    have hstart : begun.threaded (courseLabel course) r.studies batch titles now s₀ = begun := by
      rw [State.threaded, hphase, hreports, funext htask]
      exact hnew
    rwa [hstart] at run
  · have hstart : begun.recorded (courseLabel course) r.studies batch titles now Ledger.new = begun := by
      rw [State.recorded]
      simp only [Ledger.new, Ledger.page, List.count_nil, List.filter_nil, List.map_nil]
      exact hnew
    have hperm := List.perm_insertionSort (· ≤ ·) batch.chapters
    have hwithin : ∀ i ∈ batch.chapters.insertionSort (· ≤ ·), i < titles.length := by
      intro i hi
      have hmem := hperm.mem_iff.mp hi
      rw [hbatch] at hmem
      exact List.mem_range.mp hmem
    have hrun := foldl_runChapter_run (r := begun) (courseLabel course) r.studies now rfl hbatch _
      (hperm.nodup_iff.mpr batch.distinct) hwithin
      fun i _ => JobProcessor.underWay_new batch i
    rw [hstart] at hrun
    exact hrun

/-! ### A chapter that succeeds at its second attempt -/

def secondTry : ℕ → ℕ → Ending := fun _ k => if k = 1 then .error else .success

def algebra : LearningWorker.Course := ⟨"1", "2", "3", "Algebra", ""⟩

def beforeAlgebra : State := ⟨.finished, "retry", [], []⟩

def algebraThreads : JobProcessor.State Unit :=
  { JobProcessor.newRun with
    taskQueue := (courseBatch 1 "retry" secondTry).chapters.foldl JobProcessor.PriorityQueue.put ⟨[], 0⟩ }

/-- The retry thread puts the chapter back. -/
def secondTryThreads : List (JobProcessor.Action Unit) :=
  [.startWorker (), .startRetry, .control, .work (), .work (), .work (), .work (), .work (), .work (),
    .work (), .retry, .retry, .retry, .retry, .retry, .work (), .work (), .work (), .work ()]

theorem runners_study_course_secondTry :
    let begun := beforeAlgebra.moveTo (.run algebra [⟨"9", "Rings", false⟩] fun _ => .finished)
    let batch := courseBatch 1 "retry" secondTry
    ∃ s, (machine Unit batch).exec algebraThreads secondTryThreads = some s ∧
      s.attempts 0 = 2 ∧ s.failureReports = [(0, false)] ∧
      learningRun.Run Machine.free begun
        (begun.threaded (courseLabel algebra) [] batch ["Rings"] (fun _ => 0) s) ∧
      learningRun.Run Machine.free begun
        (begun.recorded (courseLabel algebra) [] batch ["Rings"] (fun _ => 0) (runInline batch)) := by
  intro begun batch
  have hstart : (machine Unit batch).start algebraThreads :=
    ⟨rfl, rfl, rfl, rfl, fun _ => rfl, fun _ => rfl, rfl, rfl, fun _ => rfl, rfl, rfl⟩
  obtain ⟨hthreads, hinline⟩ := runners_study_course Unit beforeAlgebra algebra [⟨"9", "Rings", false⟩]
    (fun _ => .finished) secondTry fun _ => 0
  exact ⟨_, rfl, rfl, rfl, hthreads _ (Machine.reachable_of_exec secondTryThreads hstart rfl), hinline⟩

end UniversityHelper.LearningRun
