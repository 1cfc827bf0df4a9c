import UniversityHelper.PythonText

/-! `ZhihuishuLearning.watch_video` as a program of requests, sleeps and calls of
`_wait_for_playback`, which is where the worker asks whether its task was cancelled. -/
namespace UniversityHelper.Zhihuishu

structure Point where
  timeSec : ℚ
  questionIds : List String

/-- The signed requests of `watch_video`, with the arguments its caller computes. -/
inductive Request
  | prelearningNote
  | loadVideoPointerInfo
  | lessonPopupExam (questionId : String)
  | saveLessonPopupExamSaveAnswer (questionId : String) (answer : List String)
  | saveDatabaseIntervalTimeV2 (played lastSubmit : ℚ) (studyTotalTime : ℤ)
  deriving DecidableEq

/-- What the caller gets from an answer it accepts; any other answer is a failing request. -/
def Request.Answer : Request → Type
  | .prelearningNote => Option ℤ × Option ℤ
  | .loadVideoPointerInfo => List Point
  | .lessonPopupExam _ => List String
  | .saveLessonPopupExamSaveAnswer _ _ => Unit
  | .saveDatabaseIntervalTimeV2 _ _ _ => Bool

/-- `gate` is `if not self._wait_for_playback(...): return False`. -/
inductive Watch
  | finish (ok : Bool)
  | raise (message : String)
  | gate (pass : Watch)
  | sleep (next : Watch)
  | request (r : Request) (next : r.Answer → Watch)

structure Video where
  id : String
  title : String
  videoSec : ℤ
  watchState : ℤ
  learnTimeSec : ℤ
  studyTotalTime : ℤ
  answeredPopupQuestions : List String

def dbReportInterval : ℕ := 30

def effSpeed (speed : ℚ) : ℚ := min (max speed (1 / 2)) 2

/-- `text.isdigit()`. -/
def digits (text : String) : Bool := text ≠ "" && text.toList.all isDigit

/-- `_answer_popup_checkpoint`, over the question ids it has not looked at yet; `wrap` is what
the caller does to the message of an exception. -/
def answerPopupCheckpoint (wrap : String → String) (done : List String → Watch)
    (answered : List String) : List String → Watch
  | [] => done answered
  | questionId :: rest =>
    .gate <|
      if questionId ∈ answered then answerPopupCheckpoint wrap done answered rest
      else .request (.lessonPopupExam questionId) fun (correct : List String) =>
        if correct = [] ∨ correct.all digits = false then
          .raise (wrap "Zhihuishu popup response has no correct option IDs")
        else .gate <| .request (.saveLessonPopupExamSaveAnswer questionId correct) fun _ =>
          answerPopupCheckpoint wrap done (answered ++ [questionId]) rest

def watchFailure (message : String) : String := "Failed to watch video: " ++ message

/-- `while point_index < len(points) and points[point_index]["timeSec"] <= played`. -/
def passCheckpoints (played : ℚ) (done : List Point → List String → Watch)
    (answered : List String) : List Point → Watch
  | [] => done [] answered
  | point :: rest =>
    if point.timeSec ≤ played then
      answerPopupCheckpoint watchFailure (fun answered => passCheckpoints played done answered rest)
        answered point.questionIds
    else done (point :: rest) answered

/-- The variables of the playback loop; `points` are those from `point_index` on. -/
structure Playback where
  played : ℚ
  lastSubmit : ℚ
  elapsed : ℕ
  points : List Point
  answered : List String
  studyTotalTime : ℤ

/-- The playback loop, which goes on as `spent` after `fuel` iterations. -/
def playback (videoSec : ℤ) (speed : ℚ) (spent : Playback → Watch) : ℕ → Playback → Watch
  | 0, s => spent s
  | fuel + 1, s =>
    if s.played < videoSec then
      .gate <| passCheckpoints s.played (fun points answered =>
        .sleep <| .gate <|
          let elapsed := s.elapsed + 1
          let nextPoint : ℚ := (points.head?.map Point.timeSec).getD videoSec
          let played := min (min (s.played + speed) videoSec) nextPoint
          let reachedPoint := points ≠ [] ∧ nextPoint ≤ played
          passCheckpoints played (fun points answered =>
            let s : Playback := { s with
              played := played
              elapsed := elapsed
              points := points
              answered := answered }
            if elapsed % dbReportInterval = 0 ∨ videoSec ≤ played ∨ reachedPoint then
              .gate <| .request (.saveDatabaseIntervalTimeV2 played s.lastSubmit s.studyTotalTime)
                fun (accepted : Bool) =>
                  if accepted = true then
                    playback videoSec speed spent fuel { s with
                      studyTotalTime := s.studyTotalTime + ⌊played - s.lastSubmit⌋
                      lastSubmit := played }
                  else .finish false
            else playback videoSec speed spent fuel s) answered points) s.answered s.points
    else .finish true

/-- The checkpoints of a video whose playback is already at its end. -/
def passRemaining (done : Watch) (answered : List String) : List Point → Watch
  | [] => done
  | point :: rest =>
    answerPopupCheckpoint id (fun answered => passRemaining done answered rest) answered
      point.questionIds

/-- From the checkpoints of the video on. -/
def watchFrom (video : Video) (speed : ℚ) (played : ℚ) (studyTotal : ℤ) (points : List Point) :
    Watch :=
  if points.any (fun p => (video.videoSec : ℚ) < p.timeSec) then
    .raise "Zhihuishu popup checkpoint exceeds video duration"
  else
    let points := points.filter fun p => played ≤ p.timeSec
    if video.videoSec ≤ played then
      passRemaining (.gate <| .request (.saveDatabaseIntervalTimeV2 played played studyTotal)
        fun (accepted : Bool) => .finish accepted) video.answeredPopupQuestions points
    else
      playback video.videoSec speed (fun _ => .raise (watchFailure "out of fuel"))
        ((2 * video.videoSec).toNat + points.length + 1)
        ⟨played, played, 0, points, video.answeredPopupQuestions, studyTotal⟩

def watchVideo (video : Video) (speed : ℚ) (autoAnswer : Bool) : Watch :=
  if video.videoSec ≤ 0 then
    .raise ("video " ++ video.id ++ " has no usable duration (" ++ toString video.videoSec ++ ")")
  else if video.watchState = 1 then .finish true
  else .gate <| .request .prelearningNote fun (note : Option ℤ × Option ℤ) =>
    let studyTotal := max (note.2.getD video.studyTotalTime) 0
    let played : ℚ := ((max 0 (min (note.1.getD video.learnTimeSec) video.videoSec) : ℤ) : ℚ)
    .gate <|
      if autoAnswer = true then
        .request .loadVideoPointerInfo fun (points : List Point) =>
          if points.all (fun p => 0 ≤ p.timeSec && p.questionIds.all digits) then
            watchFrom video (effSpeed speed) played studyTotal
              (points.insertionSort fun p q => p.timeSec ≤ q.timeSec)
          else .raise "Zhihuishu popup checkpoint has invalid timeSec/questionIds"
      else watchFrom video (effSpeed speed) played studyTotal []

/-- Before every request there is a gate after the request before it; `passed` says whether one
has been passed since the last request. -/
def Watch.Gated : Bool → Watch → Prop
  | _, .finish _ => True
  | _, .raise _ => True
  | _, .gate pass => pass.Gated true
  | passed, .sleep next => next.Gated passed
  | passed, .request _ next => passed = true ∧ ∀ answer, (next answer).Gated false

theorem Watch.Gated.mono {w : Watch} (h : w.Gated false) : w.Gated true := by
  induction w with
  | finish ok => trivial
  | raise message => trivial
  | gate pass ih => exact h
  | sleep next ih => exact ih h
  | request r next ih => exact absurd h.1 Bool.false_ne_true

theorem answerPopupCheckpoint_gated {wrap : String → String} {done : List String → Watch}
    (hdone : ∀ answered, (done answered).Gated false) (questionIds : List String) :
    ∀ answered, (answerPopupCheckpoint wrap done answered questionIds).Gated false := by
  induction questionIds with
  | nil => exact hdone
  | cons questionId rest ih =>
    intro answered
    simp only [answerPopupCheckpoint, Watch.Gated]
    split_ifs with hknown
    · exact (ih answered).mono
    · refine ⟨rfl, fun (correct : List String) => ?_⟩
      dsimp only
      split_ifs
      · trivial
      · exact ⟨rfl, fun _ => ih _⟩

theorem passCheckpoints_gated {played : ℚ} {done : List Point → List String → Watch}
    (hdone : ∀ points answered, (done points answered).Gated false) (points : List Point) :
    ∀ answered, (passCheckpoints played done answered points).Gated false := by
  induction points with
  | nil => exact hdone []
  | cons point rest ih =>
    intro answered
    simp only [passCheckpoints]
    split_ifs
    · exact answerPopupCheckpoint_gated ih _ _
    · exact hdone _ _

theorem passRemaining_gated {done : Watch} (hdone : done.Gated false) (points : List Point) :
    ∀ answered, (passRemaining done answered points).Gated false := by
  induction points with
  | nil => exact fun _ => hdone
  | cons point rest ih => exact fun answered => answerPopupCheckpoint_gated ih _ _

theorem playback_gated (videoSec : ℤ) (speed : ℚ) {spent : Playback → Watch}
    (hspent : ∀ s, (spent s).Gated false) (fuel : ℕ) :
    ∀ s, (playback videoSec speed spent fuel s).Gated false := by
  induction fuel with
  | zero => exact hspent
  | succ fuel ih =>
    intro s
    rw [playback]
    split_ifs
    · refine Watch.Gated.mono (passCheckpoints_gated (fun points answered => ?_) _ _)
      refine Watch.Gated.mono (passCheckpoints_gated (fun points' answered' => ?_) _ _)
      dsimp only
      split_ifs
      · refine ⟨rfl, fun (accepted : Bool) => ?_⟩
        dsimp only
        split_ifs
        · exact ih _
        · trivial
      · exact ih _
    · trivial

theorem watchFrom_gated (video : Video) (speed played : ℚ) (studyTotal : ℤ) (points : List Point) :
    (watchFrom video speed played studyTotal points).Gated false := by
  rw [watchFrom]
  dsimp only
  split_ifs
  · trivial
  · apply passRemaining_gated
    exact ⟨rfl, fun _ => trivial⟩
  · apply playback_gated
    exact fun _ => trivial

/-- Any two requests of `watch_video` are separated by a passed `_wait_for_playback`. -/
theorem watchVideo_gated (video : Video) (speed : ℚ) (autoAnswer : Bool) :
    (watchVideo video speed autoAnswer).Gated false := by
  rw [watchVideo]
  by_cases hsec : video.videoSec ≤ 0
  · rw [if_pos hsec]
    trivial
  rw [if_neg hsec]
  by_cases hwatched : video.watchState = 1
  · rw [if_pos hwatched]
    trivial
  rw [if_neg hwatched]
  refine ⟨rfl, fun (note : Option ℤ × Option ℤ) => ?_⟩
  dsimp only [Watch.Gated]
  cases autoAnswer with
  | false =>
    rw [if_neg Bool.false_ne_true]
    exact (watchFrom_gated _ _ _ _ _).mono
  | true =>
    rw [if_pos rfl]
    refine ⟨rfl, fun (points : List Point) => ?_⟩
    dsimp only
    split_ifs
    · exact watchFrom_gated _ _ _ _ _
    · trivial

end UniversityHelper.Zhihuishu
