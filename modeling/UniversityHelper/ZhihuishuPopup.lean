import UniversityHelper.ZhihuishuPlayback

/-! The popup checkpoints of a video gate its playback: a position is reported only when the
questions of the checkpoints up to it are done. -/
namespace UniversityHelper.Zhihuishu

/-- A request that was answered. -/
structure Answered where
  request : Request
  answer : request.Answer

/-- The runs of a call: pauses end or the task is cancelled, requests are answered or fail. -/
inductive Watch.Run : Watch → List Answered → Watch → Prop
  | refl (w : Watch) : Run w [] w
  | gate {pass w : Watch} {trace : List Answered} (passed : Run pass trace w) :
      Run (.gate pass) trace w
  | cancel {pass w : Watch} {trace : List Answered} (left : Run (.finish false) trace w) :
      Run (.gate pass) trace w
  | sleep {next w : Watch} {trace : List Answered} (slept : Run next trace w) :
      Run (.sleep next) trace w
  | answer {r : Request} {next : r.Answer → Watch} {w : Watch} {trace : List Answered}
      (answer : r.Answer) (answered : Run (next answer) trace w) :
      Run (.request r next) (⟨r, answer⟩ :: trace) w
  | fail {r : Request} {next : r.Answer → Watch} {w : Watch} {trace : List Answered}
      (message : String) (left : Run (.raise message) trace w) : Run (.request r next) trace w

/-- Of every run: `asks` holds at each request with what was answered before it, and `ends` where
the call returns true. -/
def Watch.Keeps (asks : List Answered → Request → Prop) (ends : List Answered → Prop) :
    List Answered → Watch → Prop
  | past, .finish ok => ok = true → ends past
  | _, .raise _ => True
  | past, .gate pass => pass.Keeps asks ends past
  | past, .sleep next => next.Keeps asks ends past
  | past, .request r next =>
    asks past r ∧ ∀ answer, (next answer).Keeps asks ends (past ++ [⟨r, answer⟩])

variable {asks : List Answered → Request → Prop} {ends : List Answered → Prop}

theorem Watch.Keeps.run {past trace : List Answered} {v w : Watch} (h : v.Keeps asks ends past)
    (run : v.Run trace w) : w.Keeps asks ends (past ++ trace) := by
  induction run generalizing past with
  | refl v => rwa [List.append_nil]
  | gate _ ih => exact ih h
  | cancel _ ih => exact ih (fun hfalse => absurd hfalse Bool.false_ne_true)
  | sleep _ ih => exact ih h
  | answer answer _ ih =>
    have hrest := ih (h.2 answer)
    rwa [List.append_assoc, List.singleton_append] at hrest
  | fail message _ ih => exact ih trivial

/-- The question ids whose answers were acknowledged, in the order of the submissions. -/
def submissions : List Answered → List String
  | [] => []
  | ⟨.saveLessonPopupExamSaveAnswer questionId _, _⟩ :: rest => questionId :: submissions rest
  | _ :: rest => submissions rest

theorem submissions_append (first rest : List Answered) :
    submissions (first ++ rest) = submissions first ++ submissions rest := by
  induction first with
  | nil => rfl
  | cons event first ih =>
    obtain ⟨request, answer⟩ := event
    cases request <;> simp [submissions, ih]

theorem mem_fresh {known ids : List String} {questionId : String} :
    questionId ∈ fresh known ids ↔ questionId ∈ ids ∧ questionId ∉ known := by
  induction ids generalizing known with
  | nil => simp [fresh]
  | cons first rest ih =>
    rw [fresh]
    split_ifs with hknown
    · rw [ih, List.mem_cons]
      constructor
      · exact fun h => ⟨.inr h.1, h.2⟩
      · rintro ⟨rfl | hrest, hnew⟩
        · exact absurd hknown hnew
        · exact ⟨hrest, hnew⟩
    · rw [List.mem_cons, ih, List.mem_cons]
      by_cases heq : questionId = first
      · subst heq
        simp [hknown]
      · simp [heq]

theorem fresh_nodup (known ids : List String) : (fresh known ids).Nodup := by
  induction ids generalizing known with
  | nil => simp [fresh]
  | cons first rest ih =>
    rw [fresh]
    split_ifs with hknown
    · exact ih known
    · refine List.nodup_cons.mpr ⟨fun hmem => ?_, ih _⟩
      exact (mem_fresh.mp hmem).2 (List.mem_append_right _ (List.mem_singleton_self _))

def questions (points : List Point) : List String := points.flatMap Point.questionIds

theorem questions_snoc (points : List Point) (point : Point) :
    questions (points ++ [point]) = questions points ++ point.questionIds := by
  simp [questions]

theorem questions_prefix (first rest : List Point) : questions first <+: questions (first ++ rest) := by
  rw [questions, questions, List.flatMap_append]
  exact List.prefix_append _ _

/-- What the checkpoints of a video demand of a request: a question is the next fresh one, and a
report comes when exactly the checkpoints up to its position are done. -/
def Gates (known : List String) (points : List Point) (past : List Answered) : Request → Prop
  | .lessonPopupExam questionId | .saveLessonPopupExamSaveAnswer questionId _ =>
    submissions past ++ [questionId] <+: fresh known (questions points)
  | .saveDatabaseIntervalTimeV2 played _ _ =>
    submissions past = fresh known (questions (points.filter fun p => p.timeSec ≤ played))
  | .prelearningNote | .loadVideoPointerInfo => True

/-- The last answer acknowledges a report at the end of the video, with all checkpoints done. -/
def Watched (known : List String) (points : List Point) (videoSec : ℚ) (past : List Answered) : Prop :=
  submissions past = fresh known (questions points) ∧
    ∃ lastSubmit studyTotalTime,
      past.getLast? = some ⟨.saveDatabaseIntervalTimeV2 videoSec lastSubmit studyTotalTime, true⟩

theorem fresh_prefix (known first rest : List String) :
    fresh known first <+: fresh known (first ++ rest) := by
  rw [fresh_append]
  exact List.prefix_append _ _

theorem fresh_snoc_of_mem {known before : List String} {questionId : String}
    (h : questionId ∈ known ++ fresh known before) :
    fresh known (before ++ [questionId]) = fresh known before := by
  rw [fresh_append, fresh, if_pos h, fresh, List.append_nil]

theorem fresh_snoc_of_not_mem {known before : List String} {questionId : String}
    (h : questionId ∉ known ++ fresh known before) :
    fresh known (before ++ [questionId]) = fresh known before ++ [questionId] := by
  rw [fresh_append, fresh, if_neg h, fresh]

section Checkpoints
variable {known : List String} {points : List Point}

/-- A checkpoint is handled after those whose questions are `before`. -/
theorem keeps_answerPopupCheckpoint (wrap : String → String) {done : List String → Watch}
    (ids : List String) :
    ∀ before past, before ++ ids <+: questions points → submissions past = fresh known before →
      (∀ later, submissions later = fresh known (before ++ ids) →
        (done (known ++ fresh known (before ++ ids))).Keeps (Gates known points) ends later) →
      (answerPopupCheckpoint wrap done (known ++ fresh known before) ids).Keeps (Gates known points)
        ends past := by
  induction ids with
  | nil =>
    intro before past _ hpast hdone
    rw [List.append_nil] at hdone
    exact hdone past hpast
  | cons questionId rest ih =>
    intro before past hwithin hpast hdone
    have hsplit : before ++ questionId :: rest = (before ++ [questionId]) ++ rest := by simp
    rw [hsplit] at hwithin hdone
    rw [answerPopupCheckpoint]
    split_ifs with hknown
    · have hrest := ih (before ++ [questionId]) past hwithin
      rw [fresh_snoc_of_mem hknown] at hrest
      exact hrest hpast hdone
    · have hnext := fresh_snoc_of_not_mem hknown
      have hturn : submissions past ++ [questionId] <+: fresh known (questions points) := by
        obtain ⟨tail, htail⟩ := hwithin
        rw [hpast, ← hnext, ← htail, List.append_assoc]
        exact fresh_prefix _ _ _
      refine ⟨hturn, fun (correct : List String) => ?_⟩
      beta_reduce
      split_ifs
      · trivial
      · have hasked : submissions (past ++ [⟨.lessonPopupExam questionId, correct⟩]) =
            submissions past := by
          rw [submissions_append]
          exact List.append_nil _
        refine ⟨by rwa [Gates, hasked], fun answer => ?_⟩
        have hrest := ih (before ++ [questionId])
          (past ++ [⟨.lessonPopupExam questionId, correct⟩] ++
            [⟨.saveLessonPopupExamSaveAnswer questionId correct, answer⟩]) hwithin
        rw [hnext, submissions_append, hasked, hpast] at hrest
        rw [List.append_assoc known]
        exact hrest rfl hdone

theorem filter_of_sorted {played : ℚ} {handled rest : List Point} {point : Point}
    (hsorted : (handled ++ point :: rest).Pairwise fun p q => p.timeSec ≤ q.timeSec)
    (hbehind : ∀ p ∈ handled, p.timeSec ≤ played) (hfront : played < point.timeSec) :
    (handled ++ point :: rest).filter (fun p => p.timeSec ≤ played) = handled := by
  have hrest : ∀ p ∈ point :: rest, ¬ p.timeSec ≤ played := by
    intro p hp
    rw [not_le]
    rcases List.mem_cons.mp hp with rfl | hlater
    · exact hfront
    · have hpair := (List.pairwise_append.mp hsorted).2.1
      exact hfront.trans_le (List.rel_of_pairwise_cons hpair hlater)
  rw [List.filter_append, List.filter_eq_self.mpr (by simpa using hbehind),
    List.filter_eq_nil_iff.mpr (by simpa using hrest), List.append_nil]

/-- The checkpoints up to the position are handled after those that already are. -/
theorem keeps_passCheckpoints {played : ℚ} {done : List Point → List String → Watch}
    (hsorted : points.Pairwise fun p q => p.timeSec ≤ q.timeSec)
    (hdone : ∀ rest later, points.filter (fun p => p.timeSec ≤ played) ++ rest = points →
      (∀ p, rest.head? = some p → played < p.timeSec) →
      submissions later = fresh known (questions (points.filter fun p => p.timeSec ≤ played)) →
      (done rest (known ++ fresh known (questions (points.filter fun p => p.timeSec ≤ played)))).Keeps
        (Gates known points) ends later)
    (rest : List Point) :
    ∀ handled past, handled ++ rest = points → (∀ p ∈ handled, p.timeSec ≤ played) →
      submissions past = fresh known (questions handled) →
      (passCheckpoints played done (known ++ fresh known (questions handled)) rest).Keeps
        (Gates known points) ends past := by
  induction rest with
  | nil =>
    intro handled past hsplit hbehind hpast
    obtain rfl : handled = points := by simpa using hsplit
    have hall : handled.filter (fun p => p.timeSec ≤ played) = handled :=
      List.filter_eq_self.mpr (by simpa using hbehind)
    rw [hall] at hdone
    exact hdone [] past (List.append_nil _) nofun hpast
  | cons point rest ih =>
    intro handled past hsplit hbehind hpast
    rw [passCheckpoints]
    by_cases hreached : point.timeSec ≤ played
    · rw [if_pos hreached]
      have hsplit' : (handled ++ [point]) ++ rest = points := by simpa using hsplit
      have hids := (questions_snoc handled point).symm
      apply keeps_answerPopupCheckpoint
      · rw [hids, ← hsplit']
        exact questions_prefix _ _
      · exact hpast
      · intro later hlater
        rw [hids] at hlater ⊢
        refine ih (handled ++ [point]) later hsplit' (fun p hp => ?_) hlater
        rcases List.mem_append.mp hp with hold | hnew
        · exact hbehind p hold
        · exact (List.mem_singleton.mp hnew) ▸ hreached
    · rw [if_neg hreached]
      have hfilter : points.filter (fun p => p.timeSec ≤ played) = handled := by
        rw [← hsplit]
        exact filter_of_sorted (hsplit ▸ hsorted) hbehind (not_le.mp hreached)
      rw [hfilter] at hdone
      refine hdone (point :: rest) past hsplit (fun p hp => ?_) hpast
      cases hp
      exact not_le.mp hreached

theorem keeps_passRemaining {done : Watch} (rest : List Point)
    (hdone : ∀ later, submissions later = fresh known (questions points) →
      done.Keeps (Gates known points) ends later) :
    ∀ handled past, handled ++ rest = points → submissions past = fresh known (questions handled) →
      (passRemaining done (known ++ fresh known (questions handled)) rest).Keeps
        (Gates known points) ends past := by
  induction rest with
  | nil =>
    intro handled past hsplit hpast
    obtain rfl : handled = points := by simpa using hsplit
    exact hdone past hpast
  | cons point rest ih =>
    intro handled past hsplit hpast
    have hsplit' : (handled ++ [point]) ++ rest = points := by simpa using hsplit
    have hids := (questions_snoc handled point).symm
    rw [passRemaining]
    apply keeps_answerPopupCheckpoint
    · rw [hids, ← hsplit']
      exact questions_prefix _ _
    · exact hpast
    · intro later hlater
      rw [hids] at hlater ⊢
      exact ih (handled ++ [point]) later hsplit' hlater

/-- The invariant at the head of the playback loop, `handled` being the checkpoints it is done with. -/
structure Loop (known : List String) (points : List Point) (videoSec : ℤ) (handled : List Point)
    (s : Playback) (past : List Answered) : Prop where
  split : handled ++ s.points = points
  behind : ∀ p ∈ handled, p.timeSec ≤ s.played
  answered : s.answered = known ++ fresh known (questions handled)
  submitted : submissions past = fresh known (questions handled)
  open_or_watched : s.played < videoSec ∨ s.played = videoSec ∧ Watched known points videoSec past

theorem submissions_report (past : List Answered) (played lastSubmit : ℚ) (total : ℤ) (accepted : Bool) :
    submissions (past ++ [⟨.saveDatabaseIntervalTimeV2 played lastSubmit total, accepted⟩]) =
      submissions past := by
  rw [submissions_append]
  exact List.append_nil _

theorem keeps_playback {videoSec : ℤ} {speed : ℚ} (hspeed : 0 ≤ speed)
    (hsorted : points.Pairwise fun p q => p.timeSec ≤ q.timeSec)
    (hwithin : ∀ p ∈ points, p.timeSec ≤ videoSec) (fuel : ℕ) :
    ∀ handled s past, Loop known points videoSec handled s past →
      (playback videoSec speed (fun _ => .raise (watchFailure "out of fuel")) fuel s).Keeps (Gates known points) (Watched known points videoSec)
        past := by
  induction fuel with
  | zero => exact fun _ _ _ _ => trivial
  | succ fuel ih =>
    intro handled s past h
    rw [playback]
    split_ifs with hbefore
    · change Watch.Keeps _ _ past (passCheckpoints _ _ s.answered s.points)
      rw [h.answered]
      refine keeps_passCheckpoints hsorted (fun ahead later hsplit hfront hlater => ?_) s.points
        handled past h.split h.behind h.submitted
      -- the position moves on, but not past the first checkpoint ahead
      obtain ⟨nextPoint, hnext⟩ : ∃ nextPoint : ℚ,
          nextPoint = (ahead.head?.map Point.timeSec).getD videoSec := ⟨_, rfl⟩
      obtain ⟨played, hplayed⟩ : ∃ played : ℚ,
          played = min (min (s.played + speed) videoSec) nextPoint := ⟨_, rfl⟩
      have hend : played ≤ videoSec := by
        rw [hplayed]
        exact (min_le_left _ _).trans (min_le_right _ _)
      have hgrows : s.played ≤ played := by
        have hpoint : s.played ≤ nextPoint := by
          rw [hnext]
          cases hhead : ahead.head? with
          | none => exact hbefore.le
          | some point => exact (hfront point hhead).le
        rw [hplayed]
        exact le_min (le_min (by linarith) hbefore.le) hpoint
      change Watch.Keeps _ _ later (passCheckpoints _ _ _ ahead)
      rw [← hnext, ← hplayed]
      refine keeps_passCheckpoints hsorted (fun rest after hsplit' _ hafter => ?_) ahead _ later
        hsplit (fun p hp => ?_) hlater
      · have hbehind : ∀ p ∈ points.filter (fun p => p.timeSec ≤ played), p.timeSec ≤ played := by
          intro p hp
          simpa using (List.mem_filter.mp hp).2
        dsimp only
        split_ifs with hreport
        · refine ⟨hafter, fun (accepted : Bool) => ?_⟩
          beta_reduce
          split_ifs with haccepted
          · refine ih _ _ _ ⟨hsplit', hbehind, rfl, ?_, ?_⟩
            · rw [submissions_report]
              exact hafter
            · rcases hend.lt_or_eq with hlt | heq
              · exact .inl hlt
              · have hall : points.filter (fun p => p.timeSec ≤ played) = points := by
                  rw [List.filter_eq_self, heq]
                  simpa using hwithin
                refine .inr ⟨heq, ?_, ?_⟩
                · rw [submissions_report, hafter, hall]
                · refine ⟨s.lastSubmit, s.studyTotalTime, ?_⟩
                  rw [List.getLast?_concat, heq, haccepted]
          · exact fun hfalse => absurd hfalse Bool.false_ne_true
        · have hlt : played < videoSec := by
            rw [not_or, not_or, not_le] at hreport
            exact hreport.2.1
          exact ih _ _ _ ⟨hsplit', hbehind, rfl, hafter, .inl hlt⟩
      · have hp' : p.timeSec ≤ s.played := by simpa using (List.mem_filter.mp hp).2
        exact hp'.trans hgrows
    · intro _
      rcases h.open_or_watched with hlt | ⟨-, hwatched⟩
      · exact absurd hlt hbefore
      · exact hwatched

end Checkpoints

theorem keeps_watchFrom (video : Video) {speed played : ℚ} (hspeed : 0 ≤ speed)
    (hplayed : played ≤ video.videoSec) (studyTotal : ℤ) {points : List Point}
    (hsorted : points.Pairwise fun p q => p.timeSec ≤ q.timeSec) :
    (watchFrom video speed played studyTotal points).Keeps
      (Gates video.answeredPopupQuestions (points.filter fun p => played ≤ p.timeSec))
      (Watched video.answeredPopupQuestions (points.filter fun p => played ≤ p.timeSec)
        video.videoSec) [] := by
  rw [watchFrom]
  split_ifs with hbeyond hover
  · trivial
  · have hwithin : ∀ p ∈ points.filter (fun p => played ≤ p.timeSec), p.timeSec ≤ played := by
      intro p hp
      have hle : ∀ q ∈ points, q.timeSec ≤ video.videoSec := by simpa using hbeyond
      exact (hle p (List.mem_filter.mp hp).1).trans hover
    have hall : (points.filter fun p => played ≤ p.timeSec).filter (fun p => p.timeSec ≤ played) =
        points.filter fun p => played ≤ p.timeSec := by
      rw [List.filter_eq_self]
      simpa using hwithin
    have hstart : submissions [] = fresh video.answeredPopupQuestions (questions []) := rfl
    have hreport : ∀ later, submissions later = fresh video.answeredPopupQuestions
          (questions (points.filter fun p => played ≤ p.timeSec)) →
        Watch.Keeps
          (Gates video.answeredPopupQuestions (points.filter fun p => played ≤ p.timeSec))
          (Watched video.answeredPopupQuestions (points.filter fun p => played ≤ p.timeSec)
            video.videoSec) later
          (.gate <| .request (.saveDatabaseIntervalTimeV2 played played studyTotal)
            fun (accepted : Bool) => .finish accepted) := by
      intro later hlater
      refine ⟨?_, fun (accepted : Bool) haccepted => ⟨?_, ?_⟩⟩
      · rw [Gates, hall]
        exact hlater
      · rw [submissions_report]
        exact hlater
      · refine ⟨played, studyTotal, ?_⟩
        rw [List.getLast?_concat, haccepted, hplayed.antisymm hover]
    have hremaining := keeps_passRemaining (points.filter fun p => played ≤ p.timeSec) hreport
      [] [] rfl hstart
    have hfirst : video.answeredPopupQuestions ++ fresh video.answeredPopupQuestions (questions []) =
        video.answeredPopupQuestions := List.append_nil _
    rwa [hfirst] at hremaining
  · have hwithin : ∀ p ∈ points.filter (fun p => played ≤ p.timeSec), p.timeSec ≤ video.videoSec := by
      intro p hp
      have hle : ∀ q ∈ points, q.timeSec ≤ video.videoSec := by simpa using hbeyond
      exact hle p (List.mem_filter.mp hp).1
    apply keeps_playback hspeed (hsorted.sublist List.filter_sublist) hwithin _ []
    exact ⟨rfl, by simp, (List.append_nil _).symm, rfl, .inl (not_le.mp hover)⟩

/-- What holds of a program after some answers holds of it after more. -/
theorem Watch.Keeps.after {asks' : List Answered → Request → Prop} {ends' : List Answered → Prop}
    (first : List Answered) (hasks : ∀ past r, asks past r → asks' (first ++ past) r)
    (hends : ∀ past, ends past → ends' (first ++ past)) {w : Watch} :
    ∀ {past}, w.Keeps asks ends past → w.Keeps asks' ends' (first ++ past) := by
  induction w with
  | finish ok => exact fun h hok => hends _ (h hok)
  | raise message => exact fun _ => trivial
  | gate pass ih => exact fun h => ih h
  | sleep next ih => exact fun h => ih h
  | request r next ih =>
    intro past h
    refine ⟨hasks past r h.1, fun answer => ?_⟩
    rw [List.append_assoc]
    exact ih answer (h.2 answer)

def startPosition (video : Video) (note : Option ℤ × Option ℤ) : ℚ :=
  ((max 0 (min (note.1.getD video.learnTimeSec) video.videoSec) : ℤ) : ℚ)

/-- The checkpoints from the start position on, as the first two requests of a call tell them. -/
def checkpoints (video : Video) : List Answered → List Point
  | ⟨.prelearningNote, note⟩ :: ⟨.loadVideoPointerInfo, points⟩ :: _ =>
    (List.insertionSort (fun p q : Point => p.timeSec ≤ q.timeSec) points).filter
      fun p => startPosition video note ≤ p.timeSec
  | _ => []

theorem keeps_watchVideo (video : Video) (speed : ℚ) :
    (watchVideo video speed true).Keeps
      (fun past => Gates video.answeredPopupQuestions (checkpoints video past) past)
      (fun past => video.watchState ≠ 1 →
        Watched video.answeredPopupQuestions (checkpoints video past) video.videoSec past) [] := by
  rw [watchVideo]
  split_ifs with hduration hwatched hanswer
  · trivial
  · exact fun _ hne => absurd hwatched hne
  · refine ⟨trivial, fun (note : Option ℤ × Option ℤ) => ⟨trivial, fun (points : List Point) => ?_⟩⟩
    beta_reduce
    split_ifs with hvalid
    · have hstart : startPosition video note ≤ video.videoSec := by
        rw [startPosition, Int.cast_le]
        exact max_le (not_le.mp hduration).le (min_le_right _ _)
      have hspeed : 0 ≤ effSpeed speed := le_trans (by norm_num) (half_le_effSpeed speed)
      have hsorted : (List.insertionSort (fun p q : Point => p.timeSec ≤ q.timeSec) points).Pairwise
          fun p q => p.timeSec ≤ q.timeSec := List.pairwise_insertionSort _ _
      have hkeeps := keeps_watchFrom video hspeed hstart (max (note.2.getD video.studyTotalTime) 0) hsorted
      refine hkeeps.after [⟨.prelearningNote, note⟩, ⟨.loadVideoPointerInfo, points⟩] ?_ ?_
      · intro past r hr
        cases r <;> exact hr
      · rintro past ⟨hdone, lastSubmit, total, hlast⟩ -
        refine ⟨hdone, lastSubmit, total, ?_⟩
        rw [List.getLast?_append, hlast]
        rfl
    · trivial
  · exact absurd rfl hanswer

/-- What the checkpoints mean for a call of `watch_video` that has come to `w`. -/
structure GatesPlayback (video : Video) (trace : List Answered) (w : Watch) : Prop where
  ordered : (checkpoints video trace).Pairwise fun p q => p.timeSec ≤ q.timeSec
  asked : ∀ questionId next, w = .request (.lessonPopupExam questionId) next →
    submissions trace ++ [questionId] <+:
      fresh video.answeredPopupQuestions (questions (checkpoints video trace))
  submitted : ∀ questionId correct next,
    w = .request (.saveLessonPopupExamSaveAnswer questionId correct) next →
      questionId ∉ video.answeredPopupQuestions ∧ questionId ∉ submissions trace ∧
        submissions trace ++ [questionId] <+:
          fresh video.answeredPopupQuestions (questions (checkpoints video trace))
  reported : ∀ played lastSubmit total next,
    w = .request (.saveDatabaseIntervalTimeV2 played lastSubmit total) next →
      ∀ point ∈ checkpoints video trace, point.timeSec ≤ played →
        ∀ questionId ∈ point.questionIds,
          questionId ∈ video.answeredPopupQuestions ∨ questionId ∈ submissions trace

/-- What it means that the call has returned true. -/
def Completed (video : Video) (trace : List Answered) : Prop :=
  (∀ point ∈ checkpoints video trace, ∀ questionId ∈ point.questionIds,
    questionId ∈ video.answeredPopupQuestions ∨ questionId ∈ submissions trace) ∧
  ∃ lastSubmit total,
    trace.getLast? = some ⟨.saveDatabaseIntervalTimeV2 video.videoSec lastSubmit total, true⟩

theorem checkpoints_pairwise (video : Video) (trace : List Answered) :
    (checkpoints video trace).Pairwise fun p q => p.timeSec ≤ q.timeSec := by
  unfold checkpoints
  split
  · exact (List.pairwise_insertionSort _ _).sublist List.filter_sublist
  · exact .nil

theorem known_or_fresh {known : List String} {points : List Point} {point : Point}
    (hpoint : point ∈ points) {questionId : String} (hquestion : questionId ∈ point.questionIds) :
    questionId ∈ known ∨ questionId ∈ fresh known (questions points) := by
  by_cases hknown : questionId ∈ known
  · exact .inl hknown
  · exact .inr (mem_fresh.mpr ⟨List.mem_flatMap.mpr ⟨point, hpoint, hquestion⟩, hknown⟩)

/-- The checkpoints gate the playback in every run of a call, and a call that returns true for a
video not marked as watched has come through all of them to an acknowledged end. -/
theorem checkpoints_gate_playback (video : Video) (speed : ℚ) {trace : List Answered} {w : Watch}
    (h : (watchVideo video speed true).Run trace w) :
    GatesPlayback video trace w ∧ (w = .finish true → video.watchState ≠ 1 → Completed video trace) := by
  have hkeeps := (keeps_watchVideo video speed).run h
  rw [List.nil_append] at hkeeps
  have hnew : ∀ {questionId : String}, submissions trace ++ [questionId] <+:
      fresh video.answeredPopupQuestions (questions (checkpoints video trace)) →
        questionId ∉ video.answeredPopupQuestions ∧ questionId ∉ submissions trace := by
    intro questionId hturn
    have hmem := hturn.subset (List.mem_append_right _ (List.mem_singleton_self questionId))
    have hnodup := hturn.sublist.nodup (fresh_nodup _ _)
    refine ⟨(mem_fresh.mp hmem).2, fun hold => ?_⟩
    exact (List.disjoint_of_nodup_append hnodup) hold (List.mem_singleton_self _)
  refine ⟨⟨checkpoints_pairwise video trace, ?_, ?_, ?_⟩, ?_⟩
  · rintro questionId next rfl
    exact hkeeps.1
  · rintro questionId correct next rfl
    exact ⟨(hnew hkeeps.1).1, (hnew hkeeps.1).2, hkeeps.1⟩
  · rintro played lastSubmit total next rfl point hpoint hbehind questionId hquestion
    have hdone : submissions trace = _ := hkeeps.1
    rw [hdone]
    exact known_or_fresh (List.mem_filter.mpr ⟨hpoint, by simpa using hbehind⟩) hquestion
  · rintro rfl hstate
    obtain ⟨hdone, hlast⟩ := hkeeps rfl hstate
    refine ⟨fun point hpoint questionId hquestion => ?_, hlast⟩
    rw [hdone]
    exact known_or_fresh hpoint hquestion

/-- A video whose playback was interrupted at its end, before its last question. -/
def interrupted : Video := ⟨"1", "Introduction", 3, 0, 3, 0, []⟩

def lastQuestion : List Answered :=
  [⟨.prelearningNote, ((none, none) : Option ℤ × Option ℤ)⟩,
    ⟨.loadVideoPointerInfo, ([⟨3, ["7"]⟩] : List Point)⟩,
    ⟨.lessonPopupExam "7", (["2"] : List String)⟩,
    ⟨.saveLessonPopupExamSaveAnswer "7" ["2"], ()⟩,
    ⟨.saveDatabaseIntervalTimeV2 3 3 0, true⟩]

theorem run_interrupted : (watchVideo interrupted 1 true).Run lastQuestion (.finish true) := by
  have hvalid : ([⟨3, ["7"]⟩] : List Point).all
      (fun p => 0 ≤ p.timeSec && p.questionIds.all digits) = true := by decide
  have hcorrect : ¬ (["2"] = [] ∨ ["2"].all digits = false) := by decide
  have hfrom : watchFrom interrupted (effSpeed 1) 3 0 [⟨3, ["7"]⟩] =
      passRemaining (.gate <| .request (.saveDatabaseIntervalTimeV2 3 3 0)
        fun (accepted : Bool) => .finish accepted) [] [⟨3, ["7"]⟩] := by
    simp [watchFrom, interrupted]
  rw [watchVideo, if_neg (by decide), if_neg (by decide)]
  refine .gate (.answer _ (.gate ?_))
  rw [if_pos rfl]
  refine .answer _ ?_
  rw [if_pos hvalid]
  change Watch.Run (watchFrom interrupted (effSpeed 1) 3 0 [⟨3, ["7"]⟩]) _ _
  rw [hfrom, passRemaining, answerPopupCheckpoint, if_neg (List.not_mem_nil)]
  refine .gate (.answer _ ?_)
  rw [if_neg hcorrect]
  exact .gate (.answer _ (.gate (.answer _ (.refl _))))

theorem last_question_gates_playback :
    GatesPlayback interrupted lastQuestion (.finish true) ∧ Completed interrupted lastQuestion := by
  have h := checkpoints_gate_playback interrupted 1 run_interrupted
  exact ⟨h.1, h.2 rfl (by decide)⟩

/-- A video marked as watched is passed over, checkpoints and report and all. -/
theorem watched_video_not_completed :
    ¬ ∀ (video : Video) (speed : ℚ) (trace : List Answered), 0 < video.videoSec →
      (watchVideo video speed true).Run trace (.finish true) → Completed video trace := by
  intro h
  obtain ⟨-, _, _, hlast⟩ := h ⟨"1", "Introduction", 3, 1, 0, 0, []⟩ 1 [] (by decide) (.refl _)
  cases hlast

end UniversityHelper.Zhihuishu
