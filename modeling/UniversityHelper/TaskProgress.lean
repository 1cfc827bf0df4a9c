import UniversityHelper.LearningManager
import UniversityHelper.LearningRun

/-! The record of a learning task while its run goes on: each step of the run goes through the critical
sections of the record that belong to it, the callbacks of `JobProcessor` and the requests among them. -/
namespace UniversityHelper.LearningRun
open ChapterLog (chapterFailureLine describeChapterFailure)
open JobProcessor (ChapterTask maxTries processTask)
open LearningManager (Changes Clock LearningTask Mutation maxTaskFailures newTask pausedChanges)
open LearningWorker (Course Point Work Payload courseLabel runTaskWorker studyCourses)
open TaskAdmission (Instant)
open TaskManager (LogLine Progress ProgressValue learningRules)

/-- The course that is being studied. -/
def State.label (s : State) : String := (s.studies.head?.map Study.label).getD ""

def workMutations (worker : Work) : LogTail.LearningInput → List Mutation
  | .write _ =>
    match worker with
    | .updateTask changes _ => [.updateTask changes]
    | .appendTaskLog message level _ => [.appendTaskLog message level]
    | .updateProgress updates _ => [.updateProgress updates]
    | .increaseProgress key delta _ => [.increaseProgress key delta]
    | _ => []
  | .wait => [.updateTask pausedChanges]
  | _ => []

/-- `chapter_failure_callback`. -/
def reportMutations (s : State) (chapter : Chapter) : List Mutation :=
  let (task, decision) := afterAttempt s.notopenAction chapter.task
  match reported decision with
  | none => []
  | some true =>
    let (reason, hint) := describeChapterFailure task
    [.appendTaskLog (chapterFailureLine chapter.title task true maxTries) "error",
      .recordFailure s.label chapter.title reason hint]
  | some false => [.appendTaskLog (chapterFailureLine chapter.title task false maxTries) "warning"]

/-- Of an attempt, `chapter_done_callback`. -/
def mutations (s : State) : Action → List Mutation
  | .work input => workMutations s.worker input
  | .attempt _ .success => [.increaseProgress "completed_chapters" 1]
  | .attempt _ _ => []
  | .decide i _ => ((s.chapter i).map (reportMutations s)).getD []
  | .request request _ => [.appendTaskLog request.line.1 request.line.2]
  | .notified notification _ => [.appendTaskLog notification.line.1 notification.line.2]

def Request.mutation : Request → Mutation
  | .pause => .pauseTask
  | .resume => .resumeTask
  | .stop => .stopTask

/-- The time of a line that the action writes. -/
def Action.time : Action → Option Instant
  | .work (.write now) => some now
  | .decide _ now => some now
  | .request _ now => some now
  | .notified _ now => some now
  | _ => none

/-- `control` is the critical section of a request before its line. -/
inductive RecordAction
  | run (action : Action) (clock : Clock)
  | startChapter (i : ℕ) (clock : Clock)
  | video (name : String) (current duration : ℚ) (clock : Clock)
  | control (request : Request) (clock : Clock)

def applyAll (clock : Clock) (ms : List Mutation) (task : LearningTask) : LearningTask :=
  ms.foldl (fun task m => (m.apply clock.now clock.monotonic task).1) task

def recordStep : State × LearningTask → RecordAction → Option (State × LearningTask)
  | (s, task), .run action clock =>
    (step s action).map fun t =>
      (t, applyAll ⟨action.time.getD clock.now, clock.monotonic⟩ (mutations s action) task)
  | (s, task), .startChapter i clock =>
    (s.chapter i).map fun chapter =>
      (s, applyAll clock [.updateProgress [("current_course", .text s.label),
        ("current_chapter", .text chapter.title)],
        .updateTask ⟨none, none, some ("chapter:" ++ chapter.title)⟩] task)
  | (s, task), .video name current duration clock =>
    some (s, applyAll clock [.updateProgress [("video_progress", .video name current duration)]] task)
  | (s, task), .control request clock => some (s, applyAll clock [request.mutation] task)

/-- A task that `start_task` has admitted, with its run. -/
def recordRun : Machine (State × LearningTask) RecordAction where
  start p := learningRun.start p.1 ∧ ∃ taskId userId now pauseEvent stopEvent,
    p.2 = newTask taskId userId now pauseEvent stopEvent
  step := recordStep

/-! ### The chapters of a run -/

/-- Every chapter with its course. -/
def State.chapters (s : State) : List (String × Chapter) :=
  s.studies.flatMap fun study => study.chapters.map fun chapter => (study.label, chapter)

def succeeded (entry : String × Chapter) : Bool := entry.2.task.result = .success

/-- What the record says about a chapter that was given up. -/
def failureOf (entry : String × Chapter) : Option (String × String × String × String) :=
  if entry.2.phase = .givenUp then
    some (entry.1, entry.2.title, describeChapterFailure entry.2.task)
  else none

variable {s t : State} {i : ℕ} {x : Chapter} {line : String × String} {now : Instant}

theorem append_chapters : (s.append now line).chapters = s.chapters := by
  rw [State.append, State.chapters, State.chapters]

theorem append_stays : (s.append now line).worker = s.worker ∧ (s.append now line).studies = s.studies := by
  rw [State.append]
  exact ⟨rfl, rfl⟩

theorem logs_append : (s.append now line).logs =
    keepLast learningRules.logLimit (s.logs ++ [⟨now, line.1, line.2⟩]) := by
  rw [State.append]

/-- A chapter is exchanged for another, whatever the place. -/
theorem chapters_exchange (h : s.chapter i = some x) (x' : Chapter) : ∃ rest,
    s.chapters.Perm ((s.label, x) :: rest) ∧ (s.setChapter i x').chapters.Perm ((s.label, x') :: rest) := by
  unfold State.chapter at h
  split at h
  · rename_i study earlier hworker hstudies
    obtain ⟨hi, rfl⟩ := List.getElem?_eq_some_iff.mp h
    have hlabel : s.label = study.label := by simp [State.label, hstudies]
    let others := (study.chapters.eraseIdx i).map fun chapter => (study.label, chapter)
    let before := earlier.flatMap fun study => study.chapters.map fun chapter => (study.label, chapter)
    refine ⟨others ++ before, ?_, ?_⟩
    · rw [State.chapters, hstudies, List.flatMap_cons, hlabel, ← List.cons_append]
      exact (((List.getElem_cons_eraseIdx_perm hi).symm.map _).append_right before)
    · rw [State.chapters, State.setChapter, hstudies, List.flatMap_cons, hlabel, ← List.cons_append]
      exact ((List.set_perm_cons_eraseIdx hi x').map _).append_right before
  · cases h

/-! ### The worker's counts -/

/-- The counts of courses. -/
structure Tally where
  total : ℤ
  completed : ℤ
  failed : ℤ
  current : ℤ

/-- Every course before the current one is counted once, the current one at most once. -/
structure Tally.Right (t : Tally) : Prop where
  completed : 0 ≤ t.completed
  failed : 0 ≤ t.failed
  behind : t.completed + t.failed ≤ t.current
  ahead : t.current ≤ t.completed + t.failed + 1
  within : t.current ≤ t.total

structure Tally.Shows (t : Tally) (progress : Progress) : Prop where
  total : progress.get "total" = some (.int t.total)
  completed : progress.get "completed" = some (.int t.completed)
  failed : progress.get "failed" = some (.int t.failed)
  current : progress.get "current" = some (.int t.current)

def Turns (t : Tally) (updates : List (String × ProgressValue)) (t' : Tally) : Prop :=
  ∀ progress : Progress, t.Shows progress → t'.Shows (progress.update updates)

/-- Updates that leave the counts of chapters as they are. -/
def Spares (updates : List (String × ProgressValue)) : Prop :=
  ∀ key ∈ ["total_chapters", "completed_chapters"], ∀ progress : Progress,
    (progress.update updates).get key = progress.get key

/-- Updates that begin the counts of chapters. -/
def Clears (updates : List (String × ProgressValue)) : Prop :=
  ∀ key ∈ ["total_chapters", "completed_chapters"], ∀ progress : Progress,
    (progress.update updates).get key = some (.int 0)

/-- The number of the chapters that a worker begins to study. -/
def entered : Work → ℤ
  | .run _ points _ => points.length
  | _ => 0

/-- With the courses counted as in `t` the worker counts them right from here on, and a course's chapters
where it begins them; `begun` says that it has set the counts. -/
def Counts : Bool → Tally → Work → Prop
  | begun, t, .controlEvents next => ∀ found, entered (next found) = 0 ∧ Counts begun t (next found)
  | begun, t, .initChaoxing next => ∀ result, entered (next result) = 0 ∧ Counts begun t (next result)
  | begun, t, .login next => ∀ result, entered (next result) = 0 ∧ Counts begun t (next result)
  | begun, t, .getCourseList next => ∀ result, entered (next result) = 0 ∧ Counts begun t (next result)
  | begun, t, .stopIsSet next => ∀ stopped, entered (next stopped) = 0 ∧ Counts begun t (next stopped)
  | begun, t, .waitForResume next => ∀ resumed, entered (next resumed) = 0 ∧ Counts begun t (next resumed)
  | begun, t, .getCoursePoint _ next => ∀ result, entered (next result) = 0 ∧ Counts begun t (next result)
  | begun, t, .run _ _ next =>
    begun = true ∧ ∀ result, entered (next result) = 0 ∧ Counts begun t (next result)
  | begun, t, .updateTask _ next => entered next = 0 ∧ Counts begun t next
  | begun, t, .appendTaskLog _ _ next => entered next = 0 ∧ Counts begun t next
  | begun, t, .updateProgress updates next =>
    ∃ t', t'.Right ∧ Turns t updates t' ∧ (if begun = true then Spares updates else Clears updates) ∧
      entered next = 0 ∧ Counts true t' next
  | begun, t, .increaseProgress key delta next =>
    begun = true ∧ key = "total_chapters" ∧ entered next = delta ∧ Counts begun t next
  | begun, t, .notify _ next => entered next = 0 ∧ Counts begun t next
  | _, _, .finished => True

variable {begun : Bool} {c : Tally} {work : Work} {message level : String}

theorem counts_failTask (message : String) : Counts begun c (LearningWorker.failTask message) :=
  ⟨rfl, rfl, trivial⟩

theorem counts_userCancelled : Counts begun c LearningWorker.userCancelled := ⟨rfl, rfl, trivial⟩

theorem counts_conclude (failed : ℕ) : Counts begun c (LearningWorker.conclude failed) := by
  intro stopped
  dsimp only
  split_ifs
  · exact ⟨rfl, counts_userCancelled⟩
  · exact ⟨rfl, rfl, rfl, rfl, trivial⟩
  · exact ⟨rfl, rfl, rfl, rfl, trivial⟩

theorem entered_lines {lines : List String} (h : entered work = 0) :
    entered (lines.foldr (fun line next => .appendTaskLog line "info" next) work) = 0 := by
  cases lines with
  | nil => exact h
  | cons line lines => rfl

theorem counts_lines {lines : List String} (h : entered work = 0) (hwork : Counts begun c work) :
    Counts begun c (lines.foldr (fun line next => .appendTaskLog line "info" next) work) := by
  induction lines with
  | nil => exact hwork
  | cons line lines ih => exact ⟨entered_lines h, ih⟩

theorem turns_of {updates : List (String × ProgressValue)} {c' : Tally}
    (total : (updates.reverse.lookup "total").or (some (.int c.total)) = some (.int c'.total))
    (completed : (updates.reverse.lookup "completed").or (some (.int c.completed)) = some (.int c'.completed))
    (failed : (updates.reverse.lookup "failed").or (some (.int c.failed)) = some (.int c'.failed))
    (current : (updates.reverse.lookup "current").or (some (.int c.current)) = some (.int c'.current)) :
    Turns c updates c' := by
  intro progress h
  refine ⟨?_, ?_, ?_, ?_⟩
  · rw [OrderedDict.get_update, h.total, total]
  · rw [OrderedDict.get_update, h.completed, completed]
  · rw [OrderedDict.get_update, h.failed, failed]
  · rw [OrderedDict.get_update, h.current, current]

theorem spares_of {updates : List (String × ProgressValue)}
    (h : ∀ key ∈ ["total_chapters", "completed_chapters"], updates.reverse.lookup key = none) :
    Spares updates := by
  intro key hkey progress
  rw [OrderedDict.get_update, h key hkey, Option.none_or]

theorem clears_of {updates : List (String × ProgressValue)}
    (h : ∀ key ∈ ["total_chapters", "completed_chapters"], updates.reverse.lookup key = some (.int 0)) :
    Clears updates := by
  intro key hkey progress
  rw [OrderedDict.get_update, h key hkey, Option.some_or]

section Counted
variable {points : List Point} {course : Course} {next : Except String ℕ → Work}

theorem entered_counted : entered (if points = [] then .run course points next
    else .increaseProgress "total_chapters" points.length (.run course points next)) = 0 := by
  split_ifs with hpoints
  · rw [hpoints]
    rfl
  · rfl

theorem counts_counted (h : ∀ result, entered (next result) = 0 ∧ Counts true c (next result)) :
    Counts true c (if points = [] then .run course points next
      else .increaseProgress "total_chapters" points.length (.run course points next)) := by
  split_ifs
  · exact ⟨rfl, h⟩
  · exact ⟨rfl, rfl, rfl, rfl, h⟩

end Counted

theorem entered_studyCourses (payload : Payload) (total index completed failed : ℕ)
    (courses : List Course) : entered (studyCourses payload total index completed failed courses) = 0 := by
  cases courses with
  | nil => rfl
  | cons course rest => rfl

theorem counts_studyCourses (payload : Payload) (total : ℕ) (courses : List Course) :
    ∀ (index completed failed : ℕ) (c : Tally), c = ⟨total, completed, failed, (completed + failed : ℕ)⟩ →
      index = completed + failed + 1 → completed + failed + courses.length = total →
      Counts true c (studyCourses payload total index completed failed courses) := by
  induction courses with
  | nil => exact fun _ _ failed _ _ _ _ => counts_conclude failed
  | cons course rest ih =>
    intro index completed failed c hc hindex htotal
    rw [List.length_cons] at htotal
    let here : Tally := ⟨total, completed, failed, index⟩
    have hhere : here.Right := by
      constructor <;> dsimp only [here] <;> omega
    -- what follows the course, counted as one that failed or as one that did not
    have hrest : ∀ completed' failed' : ℕ, completed' + failed' = completed + failed + 1 →
        (⟨total, completed', failed', index⟩ : Tally).Right ∧
          Counts true ⟨total, completed', failed', index⟩
            (studyCourses payload total (index + 1) completed' failed' rest) := by
      intro completed' failed' hsum
      refine ⟨?_, ih (index + 1) completed' failed' _ ?_ (by omega) (by omega)⟩
      · constructor <;> dsimp only <;> omega
      · rw [hindex, hsum]
    have hproceed : ∀ completed' failed' : ℕ, completed' + failed' = completed + failed + 1 →
        Counts true here (.updateProgress [("completed", .int completed'), ("failed", .int failed'),
          ("current", .int index), ("current_course", .text (courseLabel course))]
          (studyCourses payload total (index + 1) completed' failed' rest)) := by
      intro completed' failed' hsum
      obtain ⟨hright, hcounts⟩ := hrest completed' failed' hsum
      exact ⟨_, hright, turns_of rfl rfl rfl rfl, spares_of (by simp [List.lookup]),
        entered_studyCourses .., hcounts⟩
    have hskip : ∀ message, Counts true here (.appendTaskLog message "error"
        (.updateProgress [("failed", .int (failed + 1)), ("current", .int index)]
          (studyCourses payload total (index + 1) completed (failed + 1) rest))) := by
      intro message
      obtain ⟨hright, hcounts⟩ := hrest completed (failed + 1) (by omega)
      exact ⟨rfl, _, hright, turns_of rfl rfl rfl rfl, spares_of (by simp [List.lookup]),
        entered_studyCourses .., hcounts⟩
    intro stopped
    dsimp only
    split_ifs
    · exact ⟨rfl, counts_userCancelled⟩
    refine ⟨rfl, fun resumed => ?_⟩
    dsimp only
    split_ifs
    · exact ⟨rfl, counts_userCancelled⟩
    refine ⟨rfl, rfl, here, hhere, ?_, spares_of (by simp [List.lookup]), rfl, rfl, fun result => ?_⟩
    · rw [hc]
      exact turns_of rfl rfl rfl rfl
    cases result with
    | error exception => exact ⟨rfl, hskip _⟩
    | ok points =>
      dsimp only
      split
      · exact ⟨rfl, counts_failTask _⟩
      · exact ⟨rfl, hskip _⟩
      · rename_i limited lines hlimited
        refine ⟨entered_lines entered_counted,
          counts_lines entered_counted (counts_counted fun result => ?_)⟩
        cases result with
        | error exception => exact ⟨rfl, rfl, hproceed _ _ (by omega)⟩
        | ok failedTasks =>
          refine ⟨rfl, fun stopped => ?_⟩
          dsimp only
          split_ifs
          · exact ⟨rfl, counts_userCancelled⟩
          · exact ⟨rfl, rfl, hproceed _ _ (by omega)⟩
          · exact ⟨rfl, rfl, hproceed _ _ (by omega)⟩

theorem counts_runTaskWorker (payload : Payload) : Counts false c (runTaskWorker payload) := by
  unfold runTaskWorker
  split_ifs
  · exact counts_failTask _
  intro found
  dsimp only
  split_ifs
  · exact ⟨rfl, trivial⟩
  refine ⟨rfl, rfl, rfl, fun result => ?_⟩
  cases result with
  | error exception => exact ⟨rfl, counts_failTask _⟩
  | ok client =>
    refine ⟨rfl, fun result => ?_⟩
    cases result with
    | error exception => exact ⟨rfl, counts_failTask _⟩
    | ok state =>
      dsimp only
      by_cases hstatus : state.status = false
      · rw [if_pos hstatus]
        exact ⟨rfl, counts_failTask _⟩
      rw [if_neg hstatus]
      refine ⟨rfl, rfl, fun result => ?_⟩
      cases result with
      | error exception => exact ⟨rfl, counts_failTask _⟩
      | ok allCourses =>
        dsimp only
        split
        · exact ⟨rfl, counts_failTask _⟩
        · exact ⟨rfl, counts_failTask _⟩
        · rename_i courses hcourses hselected
          refine ⟨rfl, ⟨courses.length, 0, 0, 0⟩, ?_, turns_of rfl rfl rfl rfl, ?_, rfl,
            entered_studyCourses .., counts_studyCourses payload _ courses 1 0 0 _ rfl rfl (by omega)⟩
          · constructor <;> dsimp only <;> omega
          · exact clears_of (by simp [LearningWorker.initialProgress, List.lookup])

theorem Counts.answer {next : Work} {answer : LearningWorker.Answer} (h : Counts begun c work)
    (hanswer : work.answer answer = some next) : entered next = 0 ∧ Counts begun c next := by
  cases work with
  | run course points rest => cases answer <;> cases hanswer; exact h.2 _
  | controlEvents rest => cases answer <;> cases hanswer; exact h _
  | initChaoxing rest => cases answer <;> cases hanswer; exact h _
  | login rest => cases answer <;> cases hanswer; exact h _
  | getCourseList rest => cases answer <;> cases hanswer; exact h _
  | stopIsSet rest => cases answer <;> cases hanswer; exact h _
  | waitForResume rest => cases answer <;> cases hanswer; exact h _
  | getCoursePoint course rest => cases answer <;> cases hanswer; exact h _
  | updateTask changes rest => cases answer <;> cases hanswer
  | appendTaskLog message level rest => cases answer <;> cases hanswer
  | updateProgress updates rest => cases answer <;> cases hanswer
  | increaseProgress key delta rest => cases answer <;> cases hanswer
  | notify summary rest => cases answer <;> cases hanswer
  | finished => cases answer <;> cases hanswer

end UniversityHelper.LearningRun
