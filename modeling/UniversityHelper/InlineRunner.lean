import UniversityHelper.JobProcessorSafety

/-! `_run_inline`, the loop that runs a batch on the calling thread when no worker can be started,
against the threaded run: what either does with a chapter depends on the results of its attempts
alone. -/
namespace UniversityHelper.JobProcessor
set_option linter.unusedSectionVars false

/-- What a runner keeps about its chapters. -/
structure Ledger where
  task : ℕ → ChapterTask
  attempts : ℕ → ℕ
  failedTasks : List ℕ
  failureReports : List (ℕ × Bool)

def Ledger.new : Ledger := ⟨fun _ => {}, fun _ => 0, [], []⟩

/-- One pass of the `while` loop, and whether the loop goes on with the chapter. -/
def inlineAttempt (batch : Batch) (i : ℕ) (l : Ledger) : Ledger × Bool :=
  let task := processTask (l.task i) (batch.attempt i (l.attempts i + 1))
  let l := { l with
    task := Function.update l.task i (afterAttempt batch task).1
    attempts := Function.update l.attempts i (l.attempts i + 1) }
  match (afterAttempt batch task).2 with
  | .settle => (l, false)
  | .giveUp =>
    ({ l with
      failedTasks := l.failedTasks ++ [i]
      failureReports := l.failureReports ++ [(i, true)] }, false)
  | .retry report =>
    ({ l with
      failureReports := if report then l.failureReports ++ [(i, false)] else l.failureReports }, true)

theorem countFailure_retry {task : ChapterTask} {report : Bool}
    (h : (countFailure task).2 = .retry report) :
    (countFailure task).1 = { task with tries := task.tries + 1 } ∧ task.tries + 1 < maxTries ∧
      (report = true ↔ task.tries = 0) := by
  unfold countFailure at h ⊢
  dsimp only at h ⊢
  split at h
  · cases h
  · rename_i hmore
    rw [if_neg hmore]
    cases h
    exact ⟨rfl, by omega, by simp⟩

theorem countFailure_giveUp {task : ChapterTask} (h : (countFailure task).2 = .giveUp) :
    (countFailure task).1 = { task with tries := task.tries + 1 } ∧ maxTries ≤ task.tries + 1 := by
  unfold countFailure at h ⊢
  dsimp only at h ⊢
  split at h
  · rename_i hlast
    rw [if_pos hlast]
    exact ⟨rfl, hlast⟩
  · cases h

/-- A chapter is retried after a failure, while it has tries left. -/
theorem afterAttempt_retry {batch : Batch} {task : ChapterTask} {report : Bool}
    (h : (afterAttempt batch task).2 = .retry report) :
    (task.result = .error ∨ task.result = .notOpen ∧ batch.notopenAction ≠ "continue") ∧
      (afterAttempt batch task).1 = { task with tries := task.tries + 1 } ∧
      task.tries + 1 < maxTries ∧ (report = true ↔ task.tries = 0) := by
  unfold afterAttempt at h ⊢
  cases hresult : task.result with
  | success => simp [hresult] at h
  | pending => simp [hresult] at h
  | error =>
    simp only [hresult] at h ⊢
    have hcount := countFailure_retry h
    rw [hresult] at hcount
    exact ⟨Or.inl trivial, hcount⟩
  | notOpen =>
    simp only [hresult] at h ⊢
    split at h
    · cases h
    · rename_i hcontinue
      have hcount := countFailure_retry h
      rw [hresult] at hcount
      rw [if_neg hcontinue]
      exact ⟨Or.inr ⟨trivial, hcontinue⟩, hcount⟩

theorem inlineAttempt_again {batch : Batch} {i : ℕ} {l : Ledger}
    (h : (inlineAttempt batch i l).2 = true) :
    ((inlineAttempt batch i l).1.task i).tries = (l.task i).tries + 1 ∧
      (l.task i).tries + 1 < maxTries := by
  have htries : (processTask (l.task i) (batch.attempt i (l.attempts i + 1))).tries =
      (l.task i).tries := by
    cases batch.attempt i (l.attempts i + 1) <;> rfl
  unfold inlineAttempt at h ⊢
  dsimp only at h ⊢
  split at h
  · cases h
  · cases h
  · rename_i report hdecision
    obtain ⟨-, htask, hless, -⟩ := afterAttempt_retry hdecision
    rw [htries] at htask hless
    simp only [Function.update_self, htask]
    exact ⟨trivial, hless⟩

/-- The `while` loop of one chapter: every pass that goes on has used up one try. -/
def runChapter (batch : Batch) (i : ℕ) (l : Ledger) : Ledger :=
  if _again : (inlineAttempt batch i l).2 = true then runChapter batch i (inlineAttempt batch i l).1
  else (inlineAttempt batch i l).1
termination_by maxTries - (l.task i).tries
decreasing_by
  obtain ⟨htries, hless⟩ := inlineAttempt_again _again
  rw [htries]
  omega

def runInline (batch : Batch) : Ledger :=
  (batch.chapters.insertionSort (· ≤ ·)).foldl (fun l i => runChapter batch i l) .new

/-- What a ledger says about one chapter. -/
structure Page where
  task : ChapterTask
  attempts : ℕ
  failures : ℕ
  reports : List Bool

def Ledger.page (l : Ledger) (i : ℕ) : Page :=
  ⟨l.task i, l.attempts i, l.failedTasks.count i,
    (l.failureReports.filter fun report => report.1 = i).map Prod.snd⟩

/-- `_process_task`. -/
def Page.process (batch : Batch) (i : ℕ) (p : Page) : Page :=
  { p with
    task := processTask p.task (batch.attempt i (p.attempts + 1))
    attempts := p.attempts + 1 }

/-- The match on the result, and whether the chapter is attempted again. -/
def Page.decide (batch : Batch) (p : Page) : Page × Bool :=
  let next := { p with task := (afterAttempt batch p.task).1 }
  match (afterAttempt batch p.task).2 with
  | .settle => (next, false)
  | .giveUp => ({ next with failures := p.failures + 1, reports := p.reports ++ [true] }, false)
  | .retry report => ({ next with reports := if report then p.reports ++ [false] else p.reports }, true)

/-- The page of a chapter after `n` attempts, each followed by its decision. -/
def pageAfter (batch : Batch) (i : ℕ) : ℕ → Page
  | 0 => ⟨{}, 0, 0, []⟩
  | n + 1 => (((pageAfter batch i n).process batch i).decide batch).1

/-- The attempt after the first `n` is not the last one. -/
def goesOn (batch : Batch) (i n : ℕ) : Bool := (((pageAfter batch i n).process batch i).decide batch).2

def UnderWay (batch : Batch) (i : ℕ) (p : Page) : Prop :=
  ∃ n, p = pageAfter batch i n ∧ ∀ m < n, goesOn batch i m = true

def Over (batch : Batch) (i : ℕ) (p : Page) : Prop :=
  ∃ n, p = pageAfter batch i (n + 1) ∧ (∀ m < n, goesOn batch i m = true) ∧ goesOn batch i n = false

variable {batch : Batch} {i : ℕ} {p q : Page} {l : Ledger}

theorem underWay_new (batch : Batch) (i : ℕ) : UnderWay batch i (Ledger.new.page i) :=
  ⟨0, rfl, by simp⟩

/-- One more attempt of a chapter under way. -/
theorem UnderWay.attempt (h : UnderWay batch i p) :
    if ((p.process batch i).decide batch).2 = true
    then UnderWay batch i ((p.process batch i).decide batch).1
    else Over batch i ((p.process batch i).decide batch).1 := by
  obtain ⟨n, rfl, hbefore⟩ := h
  split
  · rename_i hagain
    refine ⟨n + 1, rfl, fun m hm => ?_⟩
    rcases Nat.lt_succ_iff_lt_or_eq.mp hm with hm | rfl
    · exact hbefore m hm
    · exact hagain
  · rename_i hlast
    exact ⟨n, rfl, hbefore, by simpa [goesOn] using hlast⟩

/-- The results of a chapter's attempts decide what is on its page in the end. -/
theorem Over.unique (hp : Over batch i p) (hq : Over batch i q) : p = q := by
  obtain ⟨n, rfl, hn, hlast⟩ := hp
  obtain ⟨m, rfl, hm, hlast'⟩ := hq
  rcases lt_trichotomy n m with h | rfl | h
  · rw [hm n h] at hlast
    cases hlast
  · rfl
  · rw [hn m h] at hlast'
    cases hlast'

/-- What is on the page of a chapter that has been retried after each of its attempts. -/
structure Retried (batch : Batch) (n : ℕ) (p : Page) : Prop where
  attempts : p.attempts = n
  tries : p.task.tries = n
  triesLeft : n < maxTries
  failures : p.failures = 0
  reports : p.reports = if n = 0 then [] else [false]
  result : p.task.result = .pending ∨ p.task.result = .error ∨
    p.task.result = .notOpen ∧ batch.notopenAction ≠ "continue"

theorem processTask_tries (task : ChapterTask) (result : Attempt) :
    (processTask task result).tries = task.tries ∧ (processTask task result).result ≠ .pending := by
  cases result with
  | success => exact ⟨rfl, by simp [processTask]⟩
  | notOpen => exact ⟨rfl, by simp [processTask]⟩
  | error => exact ⟨rfl, by simp [processTask]⟩
  | raised => exact ⟨rfl, by simp [processTask]⟩

theorem retried_pageAfter (n : ℕ) (h : ∀ m < n, goesOn batch i m = true) :
    Retried batch n (pageAfter batch i n) := by
  induction n with
  | zero => exact ⟨rfl, rfl, by decide, rfl, rfl, Or.inl rfl⟩
  | succ n ih =>
    have hprior := ih fun m hm => h m (by omega)
    have hagain := h n (by omega)
    obtain ⟨htries, -⟩ := processTask_tries (pageAfter batch i n).task
      (batch.attempt i ((pageAfter batch i n).attempts + 1))
    rw [hprior.tries] at htries
    rw [goesOn] at hagain
    rw [pageAfter]
    unfold Page.decide at hagain ⊢
    dsimp only at hagain ⊢
    split at hagain
    · cases hagain
    · cases hagain
    · rename_i report hdecision
      obtain ⟨hresult, htask, hless, hreport⟩ := afterAttempt_retry hdecision
      simp only [Page.process] at hresult htask hless hreport ⊢
      rw [htries] at htask hless hreport
      have hreports := hprior.reports
      refine ⟨by simp [hprior.attempts], by rw [htask], hless, hprior.failures, ?_, ?_⟩
      · rw [hreports]
        by_cases hn : n = 0
        · simp [hn, hreport]
        · simp [hn, hreport]
      · rw [htask]
        exact Or.inr hresult

/-- How a runner is done with a chapter. -/
inductive Ending
  | succeeded
  | skipped
  | givenUp
  deriving DecidableEq

def Page.ending (batch : Batch) (p : Page) : Option Ending :=
  if 0 < p.failures then some .givenUp
  else match p.task.result with
    | .success => some .succeeded
    | .notOpen => if batch.notopenAction = "continue" then some .skipped else none
    | .error => none
    | .pending => none

theorem UnderWay.ending (h : UnderWay batch i p) : p.ending batch = none := by
  obtain ⟨n, rfl, hbefore⟩ := h
  have hretried := retried_pageAfter n hbefore
  unfold Page.ending
  rw [if_neg (by rw [hretried.failures]; omega)]
  rcases hretried.result with h | h | ⟨h, hcontinue⟩
  · simp [h]
  · simp [h]
  · simp [h, hcontinue]

/-- What is on the page of a chapter that a runner is done with. -/
structure Closed (batch : Batch) (p : Page) : Prop where
  attempts : p.attempts ≤ maxTries
  ended : (p.ending batch).isSome
  failures : p.failures = if p.ending batch = some .givenUp then 1 else 0
  finalReports : p.reports.count true = if p.ending batch = some .givenUp then 1 else 0
  otherReports : p.reports.count false ≤ 1

theorem Over.closed (h : Over batch i p) : Closed batch p := by
  obtain ⟨n, rfl, hbefore, hlast⟩ := h
  have hprior := retried_pageAfter n hbefore
  have hfailures := hprior.failures
  have hreports := hprior.reports
  have hattempts : ((pageAfter batch i n).process batch i).attempts ≤ maxTries := by
    have := hprior.attempts
    have := hprior.triesLeft
    simp only [Page.process]
    omega
  have hresult : ((pageAfter batch i n).process batch i).task.result ≠ .pending :=
    (processTask_tries _ _).2
  rw [goesOn] at hlast
  rw [pageAfter]
  generalize hp : (pageAfter batch i n).process batch i = p at *
  have hpf : p.failures = 0 := by rw [← hp]; exact hfailures
  have hpr : p.reports = if n = 0 then [] else [false] := by rw [← hp]; exact hreports
  have hcount : p.reports.count true = 0 ∧ p.reports.count false ≤ 1 := by
    rw [hpr]
    split
    · simp
    · simp
  unfold Page.decide at hlast ⊢
  dsimp only at hlast ⊢
  split at hlast
  · rename_i hdecision
    obtain ⟨hsame, hsettled⟩ := afterAttempt_settle hdecision
    have hending : (Page.ending batch { p with task := (afterAttempt batch p.task).1 }).isSome ∧
        Page.ending batch { p with task := (afterAttempt batch p.task).1 } ≠ some .givenUp := by
      unfold Page.ending
      rw [if_neg (by simp [hpf]), hsame]
      rcases hsettled with h | ⟨h, hcontinue⟩
      · simp [h]
      · simp [h, hcontinue]
    refine ⟨hattempts, hending.1, ?_, ?_, hcount.2⟩
    · rw [if_neg hending.2]
      exact hpf
    · rw [if_neg hending.2]
      exact hcount.1
  · have hending : Page.ending batch { p with
        task := (afterAttempt batch p.task).1
        failures := p.failures + 1
        reports := p.reports ++ [true] } = some .givenUp := by
      simp [Page.ending]
    refine ⟨hattempts, by rw [hending]; rfl, ?_, ?_, ?_⟩
    · rw [if_pos hending, hpf]
    · rw [if_pos hending, List.count_append, hcount.1]
      rfl
    · rw [List.count_append]
      simpa using hcount.2
  · cases hlast

theorem page_reports (l : Ledger) (i : ℕ) (final : Bool) :
    (l.page i).reports.count final = l.failureReports.count (i, final) := by
  simp only [Ledger.page]
  induction l.failureReports with
  | nil => rfl
  | cons report reports ih =>
    obtain ⟨j, b⟩ := report
    by_cases hj : j = i
    · subst hj
      simp only [List.filter_cons, decide_true, if_true, List.map_cons, List.count_cons, ih]
      by_cases hb : b = final
      · simp [hb]
      · simp [hb]
    · simp [hj, ih]

/-- One pass of the loop turns the page of its chapter, and no other. -/
theorem inlineAttempt_page (batch : Batch) (i : ℕ) (l : Ledger) :
    ((inlineAttempt batch i l).1.page i, (inlineAttempt batch i l).2) =
        ((l.page i).process batch i).decide batch ∧
      ∀ j, j ≠ i → (inlineAttempt batch i l).1.page j = l.page j := by
  have hother : ∀ j, j ≠ i → ∀ b, ((l.failureReports ++ [(i, b)]).filter fun report =>
      report.1 = j) = l.failureReports.filter fun report => report.1 = j := by
    intro j hj b
    simp [hj.symm]
  unfold inlineAttempt Page.decide Page.process
  simp only [Ledger.page]
  constructor
  · split
    · simp
    · simp
    · rename_i report _
      cases report with
      | true => simp
      | false => simp
  · intro j hj
    split
    · simp [hj]
    · simp [hj, hother j hj, hj.symm]
    · rename_i report _
      cases report with
      | true => simp [hj, hother j hj]
      | false => simp [hj]

theorem runChapter_page (batch : Batch) (i : ℕ) (l : Ledger) (h : UnderWay batch i (l.page i)) :
    Over batch i ((runChapter batch i l).page i) ∧
      ∀ j, j ≠ i → (runChapter batch i l).page j = l.page j := by
  induction l using runChapter.induct batch i with
  | case1 l again ih =>
    obtain ⟨hpage, hothers⟩ := inlineAttempt_page batch i l
    have hattempt := h.attempt
    rw [← hpage, if_pos again] at hattempt
    obtain ⟨hover, hrest⟩ := ih hattempt
    rw [runChapter, dif_pos again]
    exact ⟨hover, fun j hj => (hrest j hj).trans (hothers j hj)⟩
  | case2 l last =>
    obtain ⟨hpage, hothers⟩ := inlineAttempt_page batch i l
    have hattempt := h.attempt
    rw [← hpage, if_neg last] at hattempt
    rw [runChapter, dif_neg last]
    exact ⟨hattempt, hothers⟩

theorem foldl_runChapter (batch : Batch) (chapters : List ℕ) (distinct : chapters.Nodup)
    (l : Ledger) (h : ∀ i ∈ chapters, UnderWay batch i (l.page i)) :
    (∀ i ∈ chapters, Over batch i ((chapters.foldl (fun l i => runChapter batch i l) l).page i)) ∧
      ∀ i ∉ chapters, (chapters.foldl (fun l i => runChapter batch i l) l).page i = l.page i := by
  induction chapters generalizing l with
  | nil => simp
  | cons j chapters ih =>
    obtain ⟨hj, hdistinct⟩ := List.nodup_cons.mp distinct
    obtain ⟨hover, hothers⟩ := runChapter_page batch j l (h j (by simp))
    have hne : ∀ i ∈ chapters, i ≠ j := by
      rintro i hi rfl
      exact hj hi
    obtain ⟨hrest, hout⟩ := ih hdistinct (runChapter batch j l) fun i hi => by
      rw [hothers i (hne i hi)]
      exact h i (by simp [hi])
    rw [List.foldl_cons]
    constructor
    · intro i hi
      rcases List.mem_cons.mp hi with rfl | hi
      · rw [hout i hj]
        exact hover
      · exact hrest i hi
    · intro i hi
      simp only [List.mem_cons, not_or] at hi
      obtain ⟨hij, hi⟩ := hi
      rw [hout i hi, hothers i hij]

theorem runInline_over (batch : Batch) (i : ℕ) (hi : i ∈ batch.chapters) :
    Over batch i ((runInline batch).page i) := by
  have hperm := List.perm_insertionSort (· ≤ ·) batch.chapters
  obtain ⟨hover, -⟩ := foldl_runChapter batch (batch.chapters.insertionSort (· ≤ ·))
    (hperm.nodup_iff.mpr batch.distinct) .new fun i _ => underWay_new batch i
  exact hover i (hperm.mem_iff.mpr hi)

variable {W : Type*} [DecidableEq W] [Fintype W] {s t : State W} {w v : W}

def State.ledger (s : State W) : Ledger := ⟨s.task, s.attempts, s.failedTasks, s.failureReports⟩

theorem holder_unique (nodup : s.inPlay.Nodup) (hw : i ∈ (s.worker w).held)
    (hv : i ∈ (s.worker v).held) : v = w := by
  by_contra hne
  have hload := held_goto s w .finishing
  have hother : i ∈ load WorkerPhase.held (Function.update s.worker w .finishing) := by
    have hle := Finset.single_le_sum_of_canonicallyOrdered
      (f := fun u => (Function.update s.worker w .finishing u).held) (Finset.mem_univ v)
    refine Multiset.mem_of_le hle ?_
    rw [Function.update_of_ne hne]
    exact hv
  have hfree : WorkerPhase.finishing.held = 0 := rfl
  rw [hfree, add_zero] at hload
  have hsub : load WorkerPhase.held s.worker ≤ s.inPlay := by
    simp only [State.inPlay]
    exact Multiset.le_iff_exists_add.mpr
      ⟨s.taskQueue.items + s.retryQueue.items + s.retry.held + s.controller.held, by abel⟩
  have hnodup := Multiset.nodup_of_le hsub nodup
  rw [← hload] at hnodup
  exact Multiset.disjoint_left.mp (Multiset.disjoint_of_nodup_add hnodup) hother hw

theorem processing_page (phase : s.worker w = .processing i)
    (taken : workerStep batch s w = some t) :
    t.worker = Function.update s.worker w (.deciding i) ∧ t.inPlay = s.inPlay ∧
      t.ledger.page i = (s.ledger.page i).process batch i ∧
      ∀ j, j ≠ i → t.ledger.page j = s.ledger.page j := by
  simp only [workerStep, phase] at taken
  cases taken
  refine ⟨rfl, ?_, ?_, fun j hj => ?_⟩
  · simp only [State.inPlay, State.goto]
    rw [load_update_of_eq (by rw [phase]; rfl)]
  · simp [State.ledger, State.goto, Ledger.page, Page.process]
  · simp [State.ledger, State.goto, Ledger.page, hj]

theorem deciding_page (phase : s.worker w = .deciding i) (taken : workerStep batch s w = some t) :
    t.ledger.page i = ((s.ledger.page i).decide batch).1 ∧
      (∀ j, j ≠ i → t.ledger.page j = s.ledger.page j) ∧
      if ((s.ledger.page i).decide batch).2 = true
      then t.worker = Function.update s.worker w (.retrying i) ∧ t.inPlay = s.inPlay
      else t.worker = Function.update s.worker w .finishing ∧ s.inPlay = i ::ₘ t.inPlay := by
  have hrest : s.inPlay = i ::ₘ (s.goto w .finishing).inPlay := inPlay_finishing (by rw [phase]; rfl)
  simp only [workerStep, phase] at taken
  split at taken
  · rename_i hdecision
    cases taken
    refine ⟨?_, fun j hj => ?_, ?_⟩
    · simp [State.ledger, State.goto, Ledger.page, Page.decide, hdecision]
    · simp [State.ledger, State.goto, Ledger.page, hj]
    · simp only [State.ledger, Ledger.page, Page.decide, hdecision]
      exact ⟨rfl, hrest⟩
  · rename_i hdecision
    cases taken
    refine ⟨?_, fun j hj => ?_, ?_⟩
    · simp [State.ledger, State.goto, Ledger.page, Page.decide, hdecision]
    · simp [State.ledger, State.goto, Ledger.page, hj, hj.symm]
    · simp only [State.ledger, Ledger.page, Page.decide, hdecision]
      exact ⟨rfl, hrest⟩
  · rename_i report hdecision
    cases taken
    refine ⟨?_, fun j hj => ?_, ?_⟩
    · cases report with
      | true => simp [State.ledger, State.goto, Ledger.page, Page.decide, hdecision]
      | false => simp [State.ledger, State.goto, Ledger.page, Page.decide, hdecision]
    · cases report with
      | true => simp [State.ledger, State.goto, Ledger.page, hj, hj.symm]
      | false => simp [State.ledger, State.goto, Ledger.page, hj]
    · simp only [State.ledger, Ledger.page, Page.decide, hdecision]
      refine ⟨rfl, ?_⟩
      simp only [State.inPlay, State.goto]
      rw [load_update_of_eq (by rw [phase]; rfl)]

theorem deciding_update {phase next : WorkerPhase} (h : s.worker w = phase)
    (before : ∀ i, phase ≠ .deciding i) (after : ∀ i, next ≠ .deciding i) (v : W) (i : ℕ) :
    Function.update s.worker w next v = .deciding i ↔ s.worker v = .deciding i := by
  by_cases hv : v = w
  · subst hv
    rw [Function.update_self, h]
    exact iff_of_false (after i) (before i)
  · rw [Function.update_of_ne hv]

/-- Every other step leaves all pages as they are. -/
theorem step_quiet {a : Action W} (taken : step batch s a = some t)
    (other : ∀ w i, a = .work w → s.worker w ≠ .processing i ∧ s.worker w ≠ .deciding i) :
    t.ledger = s.ledger ∧ ∀ v i, t.worker v = .deciding i ↔ s.worker v = .deciding i := by
  cases a with
  | startWorker w =>
    simp only [step] at taken
    split at taken
    · rename_i h
      cases taken
      exact ⟨rfl, deciding_update h.2 (by simp) (by simp)⟩
    · cases taken
  | startRetry =>
    simp only [step] at taken
    split at taken
    · cases taken
      exact ⟨rfl, fun _ _ => Iff.rfl⟩
    · cases taken
  | work w =>
    simp only [step] at taken
    cases phase : s.worker w with
    | unstarted => simp [workerStep, phase] at taken
    | processing i => exact absurd phase (other w i rfl).1
    | deciding i => exact absurd phase (other w i rfl).2
    | getting | retrying i =>
      simp only [workerStep, phase] at taken
      split at taken
      · cases taken
      · cases taken
        exact ⟨rfl, deciding_update phase (by simp) (by simp)⟩
    | enlisting i | putting i | unlocking | finishing =>
      simp only [workerStep, phase] at taken
      cases taken
      exact ⟨rfl, deciding_update phase (by simp) (by simp)⟩
  | retry =>
    simp only [step, retryStep] at taken
    split at taken
    case h_2 | h_3 =>
      split at taken
      · cases taken
      · cases taken
        exact ⟨rfl, fun _ _ => Iff.rfl⟩
    all_goals
      cases taken
      try exact ⟨rfl, fun _ _ => Iff.rfl⟩
  | control =>
    simp only [step, controllerStep] at taken
    split at taken
    case h_1 | h_2 | h_3 | h_9 =>
      split at taken
      all_goals
        cases taken
        try exact ⟨rfl, fun _ _ => Iff.rfl⟩
    all_goals
      cases taken
      try exact ⟨rfl, fun _ _ => Iff.rfl⟩

/-- Every chapter of the batch is under way or over, by what is on its page. -/
structure Recorded (batch : Batch) (s : State W) : Prop where
  deciding : ∀ w i, s.worker w = .deciding i →
    ∃ p, UnderWay batch i p ∧ s.ledger.page i = p.process batch i
  inPlay : ∀ i ∈ s.inPlay, (∀ w, s.worker w ≠ .deciding i) → UnderWay batch i (s.ledger.page i)
  settled : ∀ i ∈ batch.chapters, i ∉ s.inPlay → Over batch i (s.ledger.page i)

theorem recorded_start (h : (machine W batch).start s) : Recorded batch s := by
  have hplay := accounted_start h
  obtain ⟨settled, hsplit, hsettled⟩ := hplay
  obtain ⟨-, -, -, -, htask, hattempts, hfailed, hreports, hworkers, -, -⟩ := h
  have hpage : ∀ i, UnderWay batch i (s.ledger.page i) := by
    intro i
    have hnew : s.ledger.page i = Ledger.new.page i := by
      simp [State.ledger, Ledger.page, Ledger.new, htask, hattempts, hfailed, hreports]
    rw [hnew]
    exact underWay_new batch i
  refine ⟨fun w i hw => ?_, fun i _ _ => hpage i, fun i hi hout => ?_⟩
  · rw [hworkers w] at hw
    cases hw
  · have hmem : i ∈ s.inPlay + settled := by rw [hsplit]; exact hi
    rcases Multiset.mem_add.mp hmem with hplay | hmem
    · exact absurd hplay hout
    · rcases hsettled i hmem with h | ⟨h, -⟩ | h
      · rw [htask] at h
        cases h
      · rw [htask] at h
        cases h
      · rw [hfailed] at h
        cases h

/-- A chapter under way is not settled. -/
theorem UnderWay.not_settled (h : UnderWay batch i (s.ledger.page i)) : ¬ Settled batch s i := by
  have hending := h.ending
  simp only [Page.ending, State.ledger, Ledger.page] at hending
  rintro (hs | ⟨hs, hcontinue⟩ | hs)
  · simp only [hs] at hending
    split at hending
    · cases hending
    · cases hending
  · simp only [hs, hcontinue] at hending
    split at hending
    · cases hending
    · cases hending
  · simp [List.count_pos_iff.mpr hs] at hending

theorem Recorded.processing (h : Recorded batch s) (nodup : s.inPlay.Nodup)
    (phase : s.worker w = .processing i) (taken : workerStep batch s w = some t) :
    Recorded batch t := by
  obtain ⟨hworker, hplay, hpage, hothers⟩ := processing_page phase taken
  have hheld : i ∈ (s.worker w).held := by rw [phase]; exact Multiset.mem_singleton_self i
  have hnone : ∀ v, s.worker v ≠ .deciding i := by
    intro v hv
    have hvw := holder_unique nodup hheld (v := v) (by rw [hv]; exact Multiset.mem_singleton_self i)
    rw [hvw, phase] at hv
    cases hv
  have hmem := mem_inPlay_of_held hheld
  refine ⟨fun v j hv => ?_, fun j hj hfree => ?_, fun j hj hout => ?_⟩
  · rw [hworker] at hv
    by_cases hvw : v = w
    · rw [hvw, Function.update_self] at hv
      cases hv
      exact ⟨s.ledger.page i, h.inPlay i hmem hnone, hpage⟩
    · rw [Function.update_of_ne hvw] at hv
      rw [hothers j fun hji => hnone v (hji ▸ hv)]
      exact h.deciding v j hv
  · have hji : j ≠ i := by
      rintro rfl
      exact hfree w (by rw [hworker, Function.update_self])
    rw [hothers j hji]
    refine h.inPlay j (hplay ▸ hj) fun v hv => hfree v ?_
    rw [hworker, Function.update_of_ne (fun hvw => by rw [hvw, phase] at hv; cases hv)]
    exact hv
  · rw [hplay] at hout
    have hji : j ≠ i := by
      rintro rfl
      exact hout hmem
    rw [hothers j hji]
    exact h.settled j hj hout

theorem Recorded.decided (h : Recorded batch s) (nodup : s.inPlay.Nodup)
    (phase : s.worker w = .deciding i) (taken : workerStep batch s w = some t) :
    Recorded batch t := by
  obtain ⟨hpage, hothers, hmove⟩ := deciding_page phase taken
  obtain ⟨p, hunder, hprocessed⟩ := h.deciding w i phase
  have hattempt := hunder.attempt
  rw [← hprocessed, ← hpage] at hattempt
  have hheld : i ∈ (s.worker w).held := by rw [phase]; exact Multiset.mem_singleton_self i
  have hother : ∀ v j, v ≠ w → s.worker v = .deciding j → j ≠ i := by
    rintro v j hvw hv rfl
    exact hvw (holder_unique nodup hheld (by rw [hv]; exact Multiset.mem_singleton_self j))
  split at hattempt
  · rename_i hagain
    rw [if_pos hagain] at hmove
    obtain ⟨hworker, hplay⟩ := hmove
    have hdeciding : ∀ v j, t.worker v = .deciding j → v ≠ w ∧ s.worker v = .deciding j := by
      intro v j hv
      rw [hworker] at hv
      by_cases hvw : v = w
      · rw [hvw, Function.update_self] at hv
        cases hv
      · rw [Function.update_of_ne hvw] at hv
        exact ⟨hvw, hv⟩
    refine ⟨fun v j hv => ?_, fun j hj hfree => ?_, fun j hj hout => ?_⟩
    · obtain ⟨hvw, hv⟩ := hdeciding v j hv
      rw [hothers j (hother v j hvw hv)]
      exact h.deciding v j hv
    · by_cases hji : j = i
      · rw [hji]
        exact hattempt
      · rw [hothers j hji]
        refine h.inPlay j (hplay ▸ hj) fun v hv => hfree v ?_
        rw [hworker, Function.update_of_ne (fun hvw => by rw [hvw, phase] at hv; cases hv; exact hji rfl)]
        exact hv
    · have hji : j ≠ i := by
        rintro rfl
        exact hout (hplay ▸ mem_inPlay_of_held hheld)
      rw [hothers j hji]
      exact h.settled j hj (hplay ▸ hout)
  · rename_i hlast
    rw [if_neg hlast] at hmove
    obtain ⟨hworker, hplay⟩ := hmove
    have hleft : i ∉ t.inPlay := by
      rw [hplay] at nodup
      exact (Multiset.nodup_cons.mp nodup).1
    refine ⟨fun v j hv => ?_, fun j hj hfree => ?_, fun j hj hout => ?_⟩
    · rw [hworker] at hv
      by_cases hvw : v = w
      · rw [hvw, Function.update_self] at hv
        cases hv
      · rw [Function.update_of_ne hvw] at hv
        rw [hothers j (hother v j hvw hv)]
        exact h.deciding v j hv
    · have hji : j ≠ i := by
        rintro rfl
        exact hleft hj
      rw [hothers j hji]
      refine h.inPlay j (by rw [hplay]; exact Multiset.mem_cons_of_mem hj) fun v hv => hfree v ?_
      rw [hworker, Function.update_of_ne (fun hvw => by rw [hvw, phase] at hv; cases hv; exact hji rfl)]
      exact hv
    · by_cases hji : j = i
      · rw [hji]
        exact hattempt
      · rw [hothers j hji]
        refine h.settled j hj fun hplayed => ?_
        rw [hplay] at hplayed
        exact hout ((Multiset.mem_cons.mp hplayed).resolve_left hji)

theorem Accounted.nodup (h : Accounted batch s) : s.inPlay.Nodup := by
  obtain ⟨settled, hsplit, -⟩ := h
  have hnodup : (s.inPlay + settled).Nodup := by
    rw [hsplit]
    exact Multiset.coe_nodup.mpr batch.distinct
  exact Multiset.nodup_of_le (Multiset.le_add_right _ _) hnodup

theorem Recorded.quiet (h : Recorded batch s) (ledger : t.ledger = s.ledger)
    (deciding : ∀ v i, t.worker v = .deciding i ↔ s.worker v = .deciding i)
    (nodup : s.inPlay.Nodup) (effect : Effect batch s t) : Recorded batch t := by
  have hplay : t.inPlay = s.inPlay := by
    cases effect with
    | moved same _ _ => exact same
    | settled i rest _ _ done =>
      have hmem : i ∈ s.inPlay := by simp [rest]
      have hdone : Settled batch s i := by
        have htask := congrArg Ledger.task ledger
        have hfailed := congrArg Ledger.failedTasks ledger
        simp only [State.ledger] at htask hfailed
        rw [Settled, htask, hfailed] at done
        exact done
      refine absurd hdone (h.inPlay i hmem fun w hw => ?_).not_settled
      rw [rest] at nodup
      refine (Multiset.nodup_cons.mp nodup).1 (mem_inPlay_of_held (w := w) ?_)
      rw [(deciding w i).mpr hw]
      exact Multiset.mem_singleton_self i
  refine ⟨fun v j hv => ?_, fun j hj hfree => ?_, fun j hj hout => ?_⟩
  · rw [ledger]
    exact h.deciding v j ((deciding v j).mp hv)
  · rw [ledger]
    exact h.inPlay j (hplay ▸ hj) fun v hv => hfree v ((deciding v j).mpr hv)
  · rw [ledger]
    exact h.settled j hj (hplay ▸ hout)

theorem Recorded.preserved {a : Action W} (accounted : Accounted batch s) (h : Recorded batch s)
    (taken : step batch s a = some t) : Recorded batch t := by
  by_cases hquiet : ∀ w i, a = .work w → s.worker w ≠ .processing i ∧ s.worker w ≠ .deciding i
  · obtain ⟨hledger, hdeciding⟩ := step_quiet taken hquiet
    exact h.quiet hledger hdeciding accounted.nodup (step_effect taken)
  · push Not at hquiet
    obtain ⟨w, i, rfl, hphase⟩ := hquiet
    by_cases hprocessing : s.worker w = .processing i
    · exact h.processing accounted.nodup hprocessing taken
    · exact h.decided accounted.nodup (hphase hprocessing) taken

theorem Recorded.of_reachable {ok : State W → Action W → Prop}
    (h : (machine W batch).Reachable ok s) : Recorded batch s :=
  h.invariant_under (fun _ hs => Accounted.of_reachable hs) (fun _ => recorded_start)
    fun _ _ _ haccounted hs _ taken => hs.preserved haccounted taken

/-- Once a chapter is settled its page is complete, also before the worker has put it down. -/
theorem Recorded.over (h : Recorded batch s) (hi : i ∈ batch.chapters)
    (settled : Settled batch s i) : Over batch i (s.ledger.page i) := by
  by_cases hplay : i ∈ s.inPlay
  · by_cases hfree : ∀ w, s.worker w ≠ .deciding i
    · exact absurd settled (h.inPlay i hplay hfree).not_settled
    · push Not at hfree
      obtain ⟨w, hw⟩ := hfree
      obtain ⟨p, hunder, hpage⟩ := h.deciding w i hw
      have hattempt := hunder.attempt
      rw [← hpage] at hattempt
      have hfailures : p.failures = 0 := by
        obtain ⟨n, rfl, hbefore⟩ := hunder
        exact (retried_pageAfter n hbefore).failures
      have hsame : (s.ledger.page i).decide batch = (s.ledger.page i, false) := by
        unfold Page.decide
        rcases settled with hs | ⟨hs, hcontinue⟩ | hs
        · simp [State.ledger, Ledger.page, afterAttempt, hs]
        · simp [State.ledger, Ledger.page, afterAttempt, hs, hcontinue]
        · have hcount := List.count_pos_iff.mpr hs
          have hnone : s.failedTasks.count i = 0 := (congrArg Page.failures hpage).trans hfailures
          omega
      rw [hsame] at hattempt
      exact hattempt
  · exact h.settled i hi hplay

/-- What a runner leaves behind about a chapter it is done with. -/
structure Concluded (batch : Batch) (l : Ledger) (i : ℕ) : Prop where
  attempts : l.attempts i ≤ maxTries
  ended : ((l.page i).ending batch).isSome
  failed : l.failedTasks.count i = if (l.page i).ending batch = some .givenUp then 1 else 0
  reportedFinal : l.failureReports.count (i, true) =
    if (l.page i).ending batch = some .givenUp then 1 else 0
  reportedRetry : l.failureReports.count (i, false) ≤ 1

theorem Over.concluded (h : Over batch i (l.page i)) : Concluded batch l i where
  attempts := h.closed.attempts
  ended := h.closed.ended
  failed := h.closed.failures
  reportedFinal := (page_reports l i true).symm.trans h.closed.finalReports
  reportedRetry := (page_reports l i false).symm.trans_le h.closed.otherReports

/-- Whatever the attempts meet, the loop on the calling thread and every schedule of the threads
that settles the chapters attempt each chapter equally often, are done with it in the same way and
report it alike. -/
theorem runners_agree (W : Type*) [DecidableEq W] [Fintype W] (batch : Batch) :
    (∀ i ∈ batch.chapters, Concluded batch (runInline batch) i) ∧
    ∀ s : State W, (machine W batch).Reachable Machine.free s →
      (∀ i ∈ batch.chapters, Settled batch s i) →
      ∀ i ∈ batch.chapters, Concluded batch s.ledger i ∧
        s.attempts i = (runInline batch).attempts i ∧
        (s.ledger.page i).ending batch = ((runInline batch).page i).ending batch := by
  refine ⟨fun i hi => (runInline_over batch i hi).concluded, fun s h settled i hi => ?_⟩
  have hover := (Recorded.of_reachable h).over hi (settled i hi)
  have hsame := hover.unique (runInline_over batch i hi)
  refine ⟨hover.concluded, ?_, ?_⟩
  · exact congrArg Page.attempts hsame
  · rw [hsame]

end UniversityHelper.JobProcessor
