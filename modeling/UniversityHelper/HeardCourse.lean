import UniversityHelper.LearningRun
import UniversityHelper.TaskLines

/-! Which course the page takes the worker of a learning task to be at, while the worker writes its
own lines. -/
namespace UniversityHelper.LearningRun
open JavaScript (OneLine trim trimChars)
open LearningManager (unexpectedWorkerErrorPrefix)
open LearningWorker
open TaskInsights

/-- The course that the page is at after a line. -/
def hearing (heard message : String) : String := (started (trim message)).getD heard

/-- A line of the worker is about no chapter, except that before the first course it may look like one
about a chapter that was skipped. -/
def Harmless (studying : Bool) (message : String) : Prop :=
  ∀ entry, ChapterLog.parseChapterLog (trim message) = some entry →
    studying = false ∧ entry.kind = .skipped

/-- The line about a login that failed, where Chaoxing words it. -/
def loginFailure (state : LoginState) : String :=
  if state.msg ≠ "" then state.msg else if state.message ≠ "" then state.message else "Login failed"

/-- Chaoxing words the failure of a login like the line about a first failure of a chapter. -/
def Misleading : Except String LoginState → Prop
  | .error _ => False
  | .ok state => state.status = false ∧
    ∃ entry, ChapterLog.parseChapterLog (trim (loginFailure state)) = some entry ∧ entry.kind = .retrying

/-- With `heard` the page is at the right course whenever the worker studies one, if its name is one
line. -/
def Follows : Bool → String → Work → Prop
  | studying, heard, .controlEvents next => ∀ found, Follows studying heard (next found)
  | studying, heard, .initChaoxing next => ∀ result, Follows studying heard (next result)
  | studying, heard, .login next => ∀ result, ¬ Misleading result → Follows studying heard (next result)
  | studying, heard, .getCourseList next => ∀ result, Follows studying heard (next result)
  | studying, heard, .stopIsSet next => ∀ stopped, Follows studying heard (next stopped)
  | studying, heard, .waitForResume next => ∀ resumed, Follows studying heard (next resumed)
  | studying, heard, .getCoursePoint _ next => ∀ result, Follows studying heard (next result)
  | _, heard, .run course _ next =>
    (OneLine (trimChars (courseLabel course).toList) → heard = trim (courseLabel course)) ∧
      ∀ result, Follows true heard (next result)
  | studying, heard, .updateTask _ next => Follows studying heard next
  | studying, heard, .appendTaskLog message _ next =>
    Harmless studying message ∧ Follows studying (hearing heard message) next
  | studying, heard, .updateProgress _ next => Follows studying heard next
  | studying, heard, .increaseProgress _ _ next => Follows studying heard next
  | studying, heard, .notify _ next => Follows studying heard next
  | _, _, .finished => True

variable {studying : Bool} {heard message : String} {next : Work}

theorem Follows.line (level : String) (h : HasLead message) (hnext : Follows studying heard next) :
    Follows studying heard (.appendTaskLog message level next) := by
  have hquiet := h.quiet
  have hheard : hearing heard message = heard := by rw [hearing, hquiet.1, Option.getD_none]
  refine ⟨?_, by rwa [hheard]⟩
  intro entry hentry
  rw [hquiet.2] at hentry
  cases hentry

theorem Follows.lines {lines : List String} (h : ∀ line ∈ lines, HasLead line)
    (hnext : Follows studying heard next) :
    Follows studying heard (lines.foldr (fun line next => .appendTaskLog line "info" next) next) := by
  induction lines with
  | nil => exact hnext
  | cons line lines ih =>
    rw [List.foldr_cons]
    exact Follows.line "info" (h line List.mem_cons_self)
      (ih fun other hother => h other (List.mem_cons_of_mem _ hother))

theorem follows_finished : Follows studying heard .finished := trivial

theorem follows_failTask (h : HasLead message) : Follows studying heard (failTask message) :=
  Follows.line "error" h follows_finished

theorem follows_failureWork (exception : String) : Follows studying heard (failureWork exception) := by
  have hlead : HasLead unexpectedWorkerErrorPrefix := hasLead_of (by decide)
  exact follows_failTask ((hlead.append ": ").append exception)

theorem follows_userCancelled : Follows studying heard userCancelled :=
  Follows.line "warning" (hasLead_of (by decide)) follows_finished

theorem follows_conclude (failed : ℕ) : Follows studying heard (conclude failed) := by
  have hnotify : ∀ summary, Follows studying heard (.notify summary .finished) := fun _ => trivial
  have hlead : HasLead "Task finished with failures" := hasLead_of (by decide)
  have hlead' : HasLead "Task completed" := hasLead_of (by decide)
  have hfailures := Follows.line "warning" hlead
    (hnotify ("Task finished with failures (" ++ toString failed ++ " failed courses)"))
  have hcompleted := Follows.line "success" hlead'
    (hnotify "Task completed")
  intro stopped
  dsimp only
  split_ifs
  · exact follows_userCancelled
  · exact hfailures
  · exact hcompleted

/-! ### The courses -/

theorem follows_header (level : String) {label : String} (hnext : ∀ heard',
    (OneLine (trimChars label.toList) → heard' = trim label) → Follows studying heard' next) :
    Follows studying heard (.appendTaskLog ("Start course: " ++ label) level next) := by
  constructor
  · intro entry hentry
    have hstart : ("Start course: " ++ label).toList = 'S' :: ("tart course: " ++ label).toList := by
      have hsplit : "Start course: ".toList = 'S' :: "tart course: ".toList := by decide
      rw [String.toList_append, String.toList_append, hsplit, List.cons_append]
    rw [parseChapterLog_none rfl (by decide) hstart] at hentry
    cases hentry
  · refine hnext _ fun hline => ?_
    rw [hearing, started_header hline, Option.getD_some]

theorem hasLead_limitPoints {label : String} {points limited : List Point} {limit : Option String}
    {lines : List String} (h : limitPoints label points limit = some (limited, lines)) :
    ∀ line ∈ lines, HasLead line := by
  have hlead : HasLead "Studying " := hasLead_of (by decide)
  intro line hline
  unfold limitPoints at h
  split at h
  · cases h
    cases hline
  · split_ifs at h
    · cases h
      cases hline
    · obtain ⟨found, -, heq⟩ := Option.map_eq_some_iff.mp h
      cases heq
      rw [List.mem_singleton.mp hline]
      exact (((((((hlead.append _).append _).append _).append _).append _).append _).append _).append _

theorem follows_counted {points : List Point} {delta : ℤ} (h : Follows studying heard next) :
    Follows studying heard (if points = [] then next else .increaseProgress "total_chapters" delta next) := by
  split_ifs
  · exact h
  · exact h

theorem follows_studyCourses (payload : Payload) (total : ℕ) (courses : List Course) :
    ∀ (studying : Bool) (heard : String) (index completed failed : ℕ),
      Follows studying heard (studyCourses payload total index completed failed courses) := by
  have hfetch : HasLead "Fetch chapters failed for " := hasLead_of (by decide)
  have hchosen : HasLead "Chosen last chapter no longer exists in " := hasLead_of (by decide)
  have hfailed : HasLead "Course execution failed " := hasLead_of (by decide)
  have hfinished : HasLead "Course finished with " := hasLead_of (by decide)
  have hcompleted : HasLead "Course completed: " := hasLead_of (by decide)
  induction courses with
  | nil => exact fun studying heard _ _ failed => follows_conclude failed
  | cons course rest ih =>
    intro studying heard index completed failed
    -- what follows the course, counted as one that failed or as one that did not
    have hproceed : ∀ studying heard (completed failed : ℕ), Follows studying heard
        (.updateProgress [("completed", .int completed), ("failed", .int failed), ("current", .int index),
          ("current_course", .text (courseLabel course))]
          (studyCourses payload total (index + 1) completed failed rest)) :=
      fun studying heard completed failed => ih studying heard (index + 1) completed failed
    have hskip : ∀ studying heard message, HasLead message → Follows studying heard
        (.appendTaskLog message "error" (.updateProgress [("failed", .int (failed + 1)), ("current", .int index)]
          (studyCourses payload total (index + 1) completed (failed + 1) rest))) :=
      fun studying heard message h => Follows.line "error" h (ih studying heard (index + 1) completed (failed + 1))
    intro stopped
    dsimp only
    split_ifs
    · exact follows_userCancelled
    intro resumed
    dsimp only
    split_ifs
    · exact follows_userCancelled
    refine follows_header "info" fun heard hheard result => ?_
    cases result with
    | error exception => exact hskip _ _ _ (((hfetch.append _).append _).append _)
    | ok points =>
      dsimp only
      split
      · exact follows_failureWork indexError
      · exact hskip _ _ _ (((hchosen.append _).append _).append _)
      · rename_i limited lines hlimited
        obtain ⟨limit, -, hlines⟩ := Option.map_eq_some_iff.mp hlimited
        refine Follows.lines (hasLead_limitPoints hlines) ?_
        refine follows_counted ⟨hheard, fun result => ?_⟩
        cases result with
        | error exception =>
          exact Follows.line "error" (((hfailed.append _).append _).append _) (hproceed _ _ _ _)
        | ok failedTasks =>
          intro stopped
          dsimp only
          split_ifs
          · exact follows_userCancelled
          · exact Follows.line "warning" (((hfinished.append _).append _).append _) (hproceed _ _ _ _)
          · exact Follows.line "success" (hcompleted.append _) (hproceed _ _ _ _)

/-! ### The task -/

theorem follows_loginFailure {state : LoginState} (hstatus : state.status = false)
    (h : ¬ Misleading (.ok state)) : Follows false heard (failTask (loginFailure state)) := by
  constructor
  · intro entry hentry
    cases hkind : entry.kind with
    | retrying => exact absurd ⟨hstatus, entry, hentry, hkind⟩ h
    | skipped => exact ⟨rfl, rfl⟩
  · exact follows_finished

theorem follows_runTaskWorker (payload : Payload) : Follows false heard (runTaskWorker payload) := by
  have hmissing : HasLead "Missing username or password" := hasLead_of (by decide)
  have hstarting : HasLead "Starting login..." := hasLead_of (by decide)
  have hclient : HasLead "Initialize chaoxing client failed: " := hasLead_of (by decide)
  have hrequest : HasLead "Login request failed: " := hasLead_of (by decide)
  have hsuccessful : HasLead "Login successful" := hasLead_of (by decide)
  have hfetch : HasLead "Fetch course list failed: " := hasLead_of (by decide)
  have hnone : HasLead "No available courses after filtering" := hasLead_of (by decide)
  have hselected : HasLead "Selected " := hasLead_of (by decide)
  unfold runTaskWorker
  split_ifs
  · exact follows_failTask hmissing
  intro found
  dsimp only
  split_ifs
  · exact follows_finished
  refine Follows.line "info" hstarting fun result => ?_
  cases result with
  | error exception => exact follows_failTask (hclient.append exception)
  | ok client =>
    intro result hworded
    cases result with
    | error exception => exact follows_failTask (hrequest.append exception)
    | ok state =>
      dsimp only
      by_cases hstatus : state.status = false
      · rw [if_pos hstatus]
        exact follows_loginFailure hstatus hworded
      · rw [if_neg hstatus]
        refine Follows.line "success" hsuccessful fun result => ?_
        cases result with
        | error exception => exact follows_failTask (hfetch.append exception)
        | ok allCourses =>
          dsimp only
          split
          · exact follows_failureWork indexError
          · exact follows_failTask hnone
          · exact Follows.line "info" (((((hselected.append _).append _).append _).append _).append _)
              (follows_studyCourses payload _ _ _ _ _ _ _)

/-- The worker is studying a course. -/
def Studying (work : Work) : Prop := ∃ course points next, work = .run course points next

theorem Follows.answer {work : Work} {answer : Answer} (h : Follows studying heard work)
    (hanswer : work.answer answer = some next) (hstudying : Studying work → studying = true)
    (hworded : ∀ result, answer = .login result → ¬ Misleading result) : Follows studying heard next := by
  cases work with
  | run course points rest =>
    obtain rfl := hstudying ⟨course, points, rest, rfl⟩
    cases answer <;> cases hanswer
    exact h.2 _
  | login rest =>
    cases answer <;> cases hanswer
    exact h _ (hworded _ rfl)
  | controlEvents rest => cases answer <;> cases hanswer; exact h _
  | initChaoxing rest => cases answer <;> cases hanswer; exact h _
  | getCourseList rest => cases answer <;> cases hanswer; exact h _
  | stopIsSet rest => cases answer <;> cases hanswer; exact h _
  | waitForResume rest => cases answer <;> cases hanswer; exact h _
  | getCoursePoint course rest => cases answer <;> cases hanswer; exact h _
  | updateTask changes rest => cases answer <;> cases hanswer
  | appendTaskLog message level rest => cases answer <;> cases hanswer
  | updateProgress updates rest => cases answer <;> cases hanswer
  | increaseProgress key delta rest => cases answer <;> cases hanswer
  | notify summary rest => cases answer <;> cases hanswer
  | finished => cases answer <;> cases hanswer

end UniversityHelper.LearningRun
