import UniversityHelper.Machine
import UniversityHelper.PythonText

/-! `ChaoxingVideoService.study_video`: one step is an iteration of its loop, with what the server,
the clock and the random numbers give there. Positions and times are exact. -/
namespace UniversityHelper.VideoStudy

def maxForbiddenRetry : ℕ := 2
def maxReportsWhileSaturated : ℕ := 10

inductive StudyResult
  | success | forbidden | error | timeout | cancelled
  deriving DecidableEq, Repr

/-- `playTime` is what `int` makes of it, in milliseconds. -/
structure Job where
  playTime : ℤ
  rt : String
  otherinfo : String

structure VideoInfo where
  status : String
  duration : ℤ

/-- `isPassed` is `none` where the body has no such field. -/
structure Response where
  statusCode : ℕ
  isPassed : Option Bool

/-- What a report with a given `rt` is answered; `none` when the request raises. -/
abbrev Server := String → Option Response

/-- The character that `re.search(r"-rt_([1d])", otherinfo)` finds. -/
def searchRt (otherinfo : String) : Option Char :=
  otherinfo.toList.tails.findSome? fun
    | '-' :: 'r' :: 't' :: '_' :: c :: _ => if c = '1' ∨ c = 'd' then some c else none
    | _ => none

def Job.rate (job : Job) : Option String :=
  if job.rt ≠ "" then some job.rt
  else (searchRt job.otherinfo).map fun c => if c = 'd' then "0.9" else "1"

def Response.state (resp : Response) : Option (Bool × ℕ) :=
  if resp.statusCode = 200 then resp.isPassed.map fun passed => (passed, 200)
  else some (false, resp.statusCode)

/-- The answer to a report; `none` when it raises. -/
def videoProgressLog (job : Job) (server : Server) : Option (Bool × ℕ) :=
  if contains job.otherinfo "courseId" = true then none
  else
    match job.rate with
    | some rt => (server rt).bind Response.state
    | none => (server "0.9").bind fun resp =>
        if resp.statusCode = 403 then (server "1").bind Response.state else resp.state

/-- `int(x)`. -/
def truncate (x : ℚ) : ℤ := if 0 ≤ x then ⌊x⌋ else ⌈x⌉

/-- A value of `random.random()`. -/
structure Draw where
  value : ℚ
  nonneg : 0 ≤ value
  lt_one : value < 1

/-- `random.uniform(a, b)`. -/
def uniform (a b : ℚ) (draw : Draw) : ℚ := a + (b - a) * draw.value

/-- The wait time drawn for a video of that duration. -/
def drawWaitTime (duration : ℤ) (draw : Draw) : ℤ :=
  if duration < 180 then truncate (uniform 20 40 draw)
  else if duration < 600 then truncate (uniform 30 60 draw)
  else truncate (uniform 30 90 draw)

/-- The fields of refreshed metadata: a duration that is missing or that `int` refuses is `none`, a
position that is no number is `some none`. -/
structure Meta where
  duration : Option ℤ
  playTime : Option (Option ℚ)

/-- A call of `video_progress_log`. -/
structure Report where
  position : ℚ
  duration : ℤ
  deriving DecidableEq, Repr

def Report.playingTime (r : Report) : ℤ := truncate r.position

/-- The variables of the loop. -/
structure Loop where
  duration : ℤ
  playTime : Option ℚ
  lastLogTime : ℚ
  waitTime : ℤ
  lastIter : ℚ
  forbiddenRetry : ℕ
  saturatedReports : ℕ

inductive Outcome
  | going (loop : Loop)
  | returned (result : StudyResult)
  | raised

/-- What an iteration meets: `now` and `later` are the two readings of the clock. -/
structure Turn where
  shouldStop : Bool
  server : Server
  refreshed : Option Meta
  draw : Draw
  now : ℚ
  later : ℚ

def noDraw : Draw := ⟨0, le_rfl, one_pos⟩

/-- A turn in which nothing is received. -/
def lostTurn (now : ℚ) : Turn := ⟨false, fun _ => none, none, noDraw, now, now⟩

section Iteration
variable (job : Job) (speed : ℚ) (s : Loop) (position : ℚ) (t : Turn)

def Loop.due : Prop := s.waitTime ≤ position - s.lastLogTime ∨ position = s.duration

instance : Decidable (s.due position) := inferInstanceAs (Decidable (_ ∨ _))

/-- The end of an iteration. -/
def Loop.advance : Loop :=
  { s with
    playTime := some (min s.duration (position + (t.now - s.lastIter) * speed))
    lastIter := t.later }

/-- The end of an iteration with a report. -/
def Loop.log : Loop :=
  Loop.advance speed { s with waitTime := drawWaitTime s.duration t.draw, lastLogTime := position }
    position t

def Loop.refresh (refreshed : Meta) : Loop :=
  { s with
    duration := refreshed.duration.getD s.duration
    playTime := refreshed.playTime.getD (some position)
    saturatedReports := 0 }

/-- The iteration after the answer to its report. -/
def Loop.answered (passed : Bool) (state : ℕ) : Outcome :=
  if state = 403 then
    if maxForbiddenRetry ≤ s.forbiddenRetry then .returned .forbidden
    else
      let s := { s with forbiddenRetry := s.forbiddenRetry + 1 }
      match t.refreshed with
      | some refreshed => .going (s.refresh position refreshed)
      | none => .going (s.log speed position t)
  else if passed = true then .returned .success
  else if state ≠ 200 then .returned .error
  else if s.duration ≤ position then
    if maxReportsWhileSaturated ≤ s.saturatedReports + 1 then .returned .timeout
    else .going (Loop.log speed { s with saturatedReports := s.saturatedReports + 1 } position t)
  else .going (s.log speed position t)

/-- An iteration: the report that it makes, and how it ends. -/
def Loop.iterate : Option Report × Outcome :=
  if t.shouldStop = true then (none, .returned .cancelled)
  else
    match s.playTime with
    | none => (none, .raised)
    | some position =>
      if s.due position then
        (some ⟨position, s.duration⟩,
          match videoProgressLog job t.server with
          | none => .raised
          | some (passed, state) => s.answered speed position t passed state)
      else (none, .going (s.advance speed position t))

/-- What an iteration after which the loop goes on can do. -/
inductive Goes : Option Report → Loop → Prop
  | rests (idle : ¬ s.due position) : Goes none (s.advance speed position t)
  | refreshes (due : s.due position) (left : s.forbiddenRetry < maxForbiddenRetry)
      (refreshed : Meta) (got : t.refreshed = some refreshed)
      (refused : ∃ passed, videoProgressLog job t.server = some (passed, 403)) :
      Goes (some ⟨position, s.duration⟩)
        (Loop.refresh { s with forbiddenRetry := s.forbiddenRetry + 1 } position refreshed)
  | retries (due : s.due position) (left : s.forbiddenRetry < maxForbiddenRetry) :
      Goes (some ⟨position, s.duration⟩)
        (Loop.log speed { s with forbiddenRetry := s.forbiddenRetry + 1 } position t)
  | saturates (due : s.due position) (full : s.duration ≤ position)
      (left : s.saturatedReports + 1 < maxReportsWhileSaturated) :
      Goes (some ⟨position, s.duration⟩)
        (Loop.log speed { s with saturatedReports := s.saturatedReports + 1 } position t)
  | logs (due : s.due position) (part : position < s.duration) :
      Goes (some ⟨position, s.duration⟩) (s.log speed position t)

variable {job speed s position t}

theorem answered_goes {passed : Bool} {state : ℕ} {next : Loop} (due : s.due position)
    (answer : videoProgressLog job t.server = some (passed, state))
    (h : s.answered speed position t passed state = .going next) :
    Goes job speed s position t (some ⟨position, s.duration⟩) next := by
  rw [Loop.answered] at h
  split_ifs at h with hforbidden hretry hpassed hstate hfull hsaturated
  · subst hforbidden
    simp only at h
    cases hrefreshed : t.refreshed with
    | some refreshed =>
      rw [hrefreshed] at h
      cases h
      exact .refreshes due (by omega) refreshed hrefreshed ⟨passed, answer⟩
    | none =>
      rw [hrefreshed] at h
      cases h
      exact .retries due (by omega)
  · cases h
    exact .saturates due hfull (by omega)
  · cases h
    exact .logs due (not_le.mp hfull)

theorem iterate_goes {next : Loop} (h : (s.iterate job speed t).2 = .going next) :
    t.shouldStop = false ∧ ∃ position, s.playTime = some position ∧
      Goes job speed s position t (s.iterate job speed t).1 next := by
  rw [Loop.iterate] at h ⊢
  by_cases hstop : t.shouldStop = true
  · rw [if_pos hstop] at h
    cases h
  rw [if_neg hstop] at h ⊢
  refine ⟨by simpa using hstop, ?_⟩
  cases hposition : s.playTime with
  | none =>
    rw [hposition] at h
    cases h
  | some position =>
    rw [hposition] at h
    refine ⟨position, rfl, ?_⟩
    by_cases hdue : s.due position
    · simp only [if_pos hdue] at h ⊢
      cases hanswer : videoProgressLog job t.server with
      | none =>
        rw [hanswer] at h
        cases h
      | some answer =>
        rw [hanswer] at h
        exact answered_goes hdue hanswer h
    · simp only [if_neg hdue] at h ⊢
      cases h
      exact .rests hdue

theorem iterate_report {r : Report} (h : (s.iterate job speed t).1 = some r) :
    ∃ position, s.playTime = some position ∧ s.due position ∧ r = ⟨position, s.duration⟩ := by
  rw [Loop.iterate] at h
  split_ifs at h
  cases hposition : s.playTime with
  | none =>
    rw [hposition] at h
    cases h
  | some position =>
    simp only [hposition] at h
    split_ifs at h with hdue
    cases h
    exact ⟨position, rfl, hdue, rfl⟩

end Iteration

structure State where
  outcome : Outcome
  /-- every report so far, the first one made before the loop -/
  reports : List Report

def step (job : Job) (speed : ℚ) (s : State) (t : Turn) : Option State :=
  match s.outcome with
  | .going loop =>
    let (report, outcome) := loop.iterate job speed t
    some ⟨outcome, s.reports ++ report.toList⟩
  | _ => none

/-- The call up to its loop; `info` is `none` when the request for it fails. -/
def studyVideo (job : Job) (info : Option VideoInfo) (server : Server) (draw : Draw) (now : ℚ) : State :=
  match info with
  | none => ⟨.returned .error, []⟩
  | some info =>
    if info.status ≠ "success" then ⟨.returned .error, []⟩
    else
      let position : ℚ := (job.playTime / 1000 : ℤ)
      ⟨match videoProgressLog job server with
        | none => .raised
        | some (true, _) => .returned .success
        | some (false, _) => .going ⟨info.duration, some position, 0,
            drawWaitTime info.duration draw, now, 0, 0⟩,
        [⟨position, info.duration⟩]⟩

def machine (job : Job) (speed : ℚ) (info : Option VideoInfo) : Machine State Turn where
  start s := ∃ server draw now, s = studyVideo job info server draw now
  step := step job speed

variable {job : Job} {speed : ℚ} {s s' : State} {t : Turn}

theorem step_of_going {loop : Loop} (hgoing : s.outcome = .going loop) :
    step job speed s t = some ⟨(loop.iterate job speed t).2,
      s.reports ++ (loop.iterate job speed t).1.toList⟩ := by
  rw [step, hgoing]

theorem step_going (taken : step job speed s t = some s') : ∃ loop, s.outcome = .going loop ∧
    s'.outcome = (loop.iterate job speed t).2 ∧
    s'.reports = s.reports ++ (loop.iterate job speed t).1.toList := by
  rw [step] at taken
  cases houtcome : s.outcome with
  | going loop =>
    rw [houtcome] at taken
    cases taken
    exact ⟨loop, rfl, rfl, rfl⟩
  | returned result =>
    rw [houtcome] at taken
    cases taken
  | raised =>
    rw [houtcome] at taken
    cases taken

end UniversityHelper.VideoStudy
