import UniversityHelper.ZhihuishuWatch

/-! The playback loop of `watch_video` when nothing disturbs it: every iteration moves the position
on, and after finitely many of them it stands at the duration of the video. -/
namespace UniversityHelper.Zhihuishu

/-- The answers that a request counts as done with. -/
def Request.Succeeds : (r : Request) → r.Answer → Prop
  | .lessonPopupExam _ => fun (correct : List String) => correct ≠ [] ∧ correct.all digits = true
  | .saveDatabaseIntervalTimeV2 _ _ _ => fun (accepted : Bool) => accepted = true
  | .prelearningNote | .loadVideoPointerInfo | .saveLessonPopupExamSaveAnswer _ _ => fun _ => True

/-- Every run in which the task is never paused or cancelled and every request succeeds comes to
`goal`. -/
inductive Watch.Leads (goal : Watch → Prop) : Watch → Prop
  | here {w : Watch} (reached : goal w) : Leads goal w
  | gate {pass : Watch} (passed : Leads goal pass) : Leads goal (.gate pass)
  | sleep {next : Watch} (slept : Leads goal next) : Leads goal (.sleep next)
  | request {r : Request} {next : r.Answer → Watch}
      (answered : ∀ answer, r.Succeeds answer → Leads goal (next answer)) :
      Leads goal (.request r next)

theorem Watch.Leads.trans {mid goal : Watch → Prop} {w : Watch} (h : w.Leads mid)
    (hmid : ∀ v, mid v → v.Leads goal) : w.Leads goal := by
  induction h with
  | here reached => exact hmid _ reached
  | gate _ ih => exact .gate ih
  | sleep _ ih => exact .sleep ih
  | request _ ih => exact .request ih

/-- The questions of a list that are not known yet, each once. -/
def fresh (known : List String) : List String → List String
  | [] => []
  | questionId :: rest =>
    if questionId ∈ known then fresh known rest
    else questionId :: fresh (known ++ [questionId]) rest

/-- `answered_popup_questions` after the checkpoints that are behind the position. -/
def answeredAt (played : ℚ) (points : List Point) (answered : List String) : List String :=
  answered ++ fresh answered
    ((points.takeWhile fun p => p.timeSec ≤ played).flatMap Point.questionIds)

/-- The checkpoints from the first one on that is ahead of the position. -/
def ahead (played : ℚ) (points : List Point) : List Point :=
  points.dropWhile fun p => p.timeSec ≤ played

/-- What one iteration of the playback loop makes of its variables. -/
def advance (videoSec : ℤ) (speed : ℚ) (s : Playback) : Playback :=
  let points := ahead s.played s.points
  let answered := answeredAt s.played s.points s.answered
  let elapsed := s.elapsed + 1
  let nextPoint : ℚ := (points.head?.map Point.timeSec).getD videoSec
  let played := min (min (s.played + speed) videoSec) nextPoint
  let report := elapsed % dbReportInterval = 0 ∨ videoSec ≤ played ∨ points ≠ [] ∧ nextPoint ≤ played
  { played := played
    lastSubmit := if report then played else s.lastSubmit
    elapsed := elapsed
    points := ahead played points
    answered := answeredAt played points answered
    studyTotalTime := if report then s.studyTotalTime + ⌊played - s.lastSubmit⌋ else s.studyTotalTime }

/-- Every undisturbed run of the loop that begins at `s` is at `t` after `n` iterations, whatever follows. -/
def Iterates (videoSec : ℤ) (speed : ℚ) (n : ℕ) (s t : Playback) : Prop :=
  ∀ spent, (playback videoSec speed spent n s).Leads (· = spent t)

/-- Every undisturbed run of the loop that begins at `s` leaves it within `n` tests of its condition. -/
def Ends (videoSec : ℤ) (speed : ℚ) (n : ℕ) (s : Playback) : Prop :=
  ∀ spent, (playback videoSec speed spent n s).Leads (· = .finish true)

theorem leads_answerPopupCheckpoint {goal : Watch → Prop} (wrap : String → String)
    (done : List String → Watch) (questionIds : List String) :
    ∀ answered, (done (answered ++ fresh answered questionIds)).Leads goal →
      (answerPopupCheckpoint wrap done answered questionIds).Leads goal := by
  induction questionIds with
  | nil =>
    intro answered h
    rwa [fresh, List.append_nil] at h
  | cons questionId rest ih =>
    intro answered h
    rw [fresh] at h
    rw [answerPopupCheckpoint]
    split_ifs at h ⊢ with hknown
    · exact .gate (ih answered h)
    · refine .gate (.request fun (correct : List String) hcorrect => ?_)
      obtain ⟨hne, hdigits⟩ : correct ≠ [] ∧ correct.all digits = true := hcorrect
      have haccepted : ¬ (correct = [] ∨ correct.all digits = false) := by simp [hne, hdigits]
      rw [if_neg haccepted]
      have hrest := ih (answered ++ [questionId]) (by simpa using h)
      exact .gate (.request fun _ _ => hrest)

theorem fresh_append (known first rest : List String) :
    fresh known (first ++ rest) = fresh known first ++ fresh (known ++ fresh known first) rest := by
  induction first generalizing known with
  | nil => simp [fresh]
  | cons questionId first ih =>
    rw [List.cons_append, fresh, fresh]
    split_ifs with hknown
    · exact ih known
    · rw [ih, List.cons_append, List.append_assoc, List.singleton_append]

theorem answeredAt_cons {played : ℚ} {point : Point} (hpast : point.timeSec ≤ played)
    (rest : List Point) (answered : List String) :
    answeredAt played (point :: rest) answered =
      answeredAt played rest (answered ++ fresh answered point.questionIds) := by
  rw [answeredAt, List.takeWhile_cons_of_pos (by simpa using hpast), List.flatMap_cons, fresh_append,
    answeredAt, List.append_assoc]

theorem leads_passCheckpoints {goal : Watch → Prop} (played : ℚ)
    (done : List Point → List String → Watch) (points : List Point) :
    ∀ answered, (done (ahead played points) (answeredAt played points answered)).Leads goal →
      (passCheckpoints played done answered points).Leads goal := by
  induction points with
  | nil =>
    intro answered h
    simpa [ahead, answeredAt, fresh, passCheckpoints] using h
  | cons point rest ih =>
    intro answered h
    rw [passCheckpoints]
    by_cases hpast : point.timeSec ≤ played
    · rw [if_pos hpast]
      apply leads_answerPopupCheckpoint
      apply ih
      rw [← answeredAt_cons hpast]
      rwa [ahead, List.dropWhile_cons_of_pos (by simpa using hpast)] at h
    · rw [if_neg hpast]
      rwa [ahead, answeredAt, List.dropWhile_cons_of_neg (by simpa using hpast),
        List.takeWhile_cons_of_neg (by simpa using hpast), List.flatMap_nil, fresh,
        List.append_nil] at h

/-- What follows an iteration that begins before the end of the video. -/
theorem leads_playback_succ {videoSec : ℤ} {speed : ℚ} {spent : Playback → Watch} {fuel : ℕ} {s : Playback}
    (hbefore : s.played < videoSec) :
    (playback videoSec speed spent (fuel + 1) s).Leads
      (· = playback videoSec speed spent fuel (advance videoSec speed s)) := by
  rw [playback, if_pos hbefore]
  refine .gate (leads_passCheckpoints _ _ _ _ (.sleep (.gate (leads_passCheckpoints _ _ _ _ ?_))))
  dsimp only
  split_ifs with hreport
  · refine .gate (.request fun (accepted : Bool) haccepted => ?_)
    obtain rfl : accepted = true := haccepted
    rw [if_pos rfl]
    apply Watch.Leads.here
    simp only [advance, if_pos hreport]
  · apply Watch.Leads.here
    simp only [advance, if_neg hreport]

theorem iterates_advance {videoSec : ℤ} {speed : ℚ} {n : ℕ} {s : Playback}
    (hsteps : ∀ k < n, ((advance videoSec speed)^[k] s).played < videoSec) :
    Iterates videoSec speed n s ((advance videoSec speed)^[n] s) := by
  intro spent
  induction n generalizing s with
  | zero => exact .here rfl
  | succ n ih =>
    have hrest := ih (s := advance videoSec speed s) fun k hk => by
      rw [← Function.iterate_succ_apply]
      exact hsteps (k + 1) (by omega)
    rw [Function.iterate_succ_apply]
    exact (leads_playback_succ (hsteps 0 (Nat.succ_pos n))).trans fun _ hw => hw ▸ hrest

/-- Checkpoints in front of the position, and half-second steps to the end. -/
def remaining (videoSec : ℤ) (s : Playback) : ℕ := s.points.length + ⌈2 * (videoSec - s.played)⌉₊

theorem lt_of_mem_head_ahead {played : ℚ} {points : List Point} {point : Point}
    (h : (ahead played points).head? = some point) : played < point.timeSec := by
  have hhead := List.head?_dropWhile_not (fun p : Point => decide (p.timeSec ≤ played)) points
  rw [ahead] at h
  rw [h] at hhead
  simpa using hhead

theorem length_ahead_le (played : ℚ) (points : List Point) :
    (ahead played points).length ≤ points.length := (List.dropWhile_suffix _).length_le

theorem length_ahead_lt {played : ℚ} {points : List Point} {point : Point}
    (hhead : points.head? = some point) (hreached : point.timeSec ≤ played) :
    (ahead played points).length < points.length := by
  obtain ⟨rest, rfl⟩ := List.head?_eq_some_iff.mp hhead
  rw [ahead, List.dropWhile_cons_of_pos (by simpa using hreached), List.length_cons]
  have hle := length_ahead_le played rest
  rw [ahead] at hle
  omega

theorem ceil_lt_ceil {a b : ℚ} (hb : 0 < b) (hstep : a + 1 ≤ b) : ⌈a⌉₊ < ⌈b⌉₊ := by
  have hpos : 1 ≤ ⌈b⌉₊ := Nat.ceil_pos.mpr hb
  have hle : ⌈a⌉₊ ≤ ⌈b⌉₊ - 1 := by
    apply Nat.ceil_le.mpr
    rw [Nat.cast_sub hpos, Nat.cast_one]
    have hceil := Nat.le_ceil b
    linarith
  omega

/-- The step lemma of the loop. -/
theorem advance_progresses {videoSec : ℤ} {speed : ℚ} {s : Playback} (hspeed : 1 / 2 ≤ speed)
    (hbefore : s.played < videoSec) :
    s.played < (advance videoSec speed s).played ∧ (advance videoSec speed s).played ≤ videoSec ∧
      remaining videoSec (advance videoSec speed s) < remaining videoSec s := by
  obtain ⟨nextPoint, hnext⟩ : ∃ nextPoint : ℚ,
      nextPoint = ((ahead s.played s.points).head?.map Point.timeSec).getD videoSec := ⟨_, rfl⟩
  have hplayed : (advance videoSec speed s).played =
      min (min (s.played + speed) videoSec) nextPoint := by rw [hnext]; rfl
  have hpoints : (advance videoSec speed s).points =
      ahead (advance videoSec speed s).played (ahead s.played s.points) := rfl
  have hlength : (advance videoSec speed s).points.length ≤ s.points.length := by
    rw [hpoints]
    exact (length_ahead_le _ _).trans (length_ahead_le _ _)
  have hfuture : s.played < nextPoint := by
    rw [hnext]
    cases hhead : (ahead s.played s.points).head? with
    | none => exact hbefore
    | some point => exact lt_of_mem_head_ahead hhead
  have hgrows : s.played < (advance videoSec speed s).played := by
    rw [hplayed]
    exact lt_min (lt_min (by linarith) hbefore) hfuture
  have hend : (advance videoSec speed s).played ≤ videoSec := by
    rw [hplayed]
    exact (min_le_left _ _).trans (min_le_right _ _)
  have hceil : ⌈2 * (videoSec - (advance videoSec speed s).played)⌉₊ ≤
      ⌈2 * (videoSec - s.played)⌉₊ := Nat.ceil_mono (by linarith)
  have hpositive : 0 < 2 * (videoSec - s.played) := by linarith
  refine ⟨hgrows, hend, ?_⟩
  unfold remaining
  rcases min_choice (min (s.played + speed) (videoSec : ℚ)) nextPoint with hstep | hclipped
  · have hshorter : ⌈2 * (videoSec - (advance videoSec speed s).played)⌉₊ <
        ⌈2 * (videoSec - s.played)⌉₊ := by
      rw [hplayed, hstep]
      rcases min_choice (s.played + speed) (videoSec : ℚ) with hfull | hlast
      · rw [hfull]
        exact ceil_lt_ceil hpositive (by linarith)
      · rw [hlast, sub_self, mul_zero, Nat.ceil_zero]
        exact Nat.ceil_pos.mpr hpositive
    omega
  · rw [hclipped] at hplayed
    cases hhead : (ahead s.played s.points).head? with
    | none =>
      have hlast : nextPoint = videoSec := by rw [hnext, hhead]; rfl
      have hshorter : ⌈2 * (videoSec - (advance videoSec speed s).played)⌉₊ <
          ⌈2 * (videoSec - s.played)⌉₊ := by
        rw [hplayed, hlast, sub_self, mul_zero, Nat.ceil_zero]
        exact Nat.ceil_pos.mpr hpositive
      omega
    | some point =>
      have hreached : point.timeSec ≤ (advance videoSec speed s).played := by
        rw [hplayed, hnext, hhead]
        rfl
      have hfewer := length_ahead_lt hhead hreached
      have hle := length_ahead_le s.played s.points
      rw [hpoints]
      omega

/-- The variables with which the playback loop starts. -/
def loopStart (video : Video) (note : Option ℤ × Option ℤ) (points : List Point) : Playback :=
  let played : ℚ := ((max 0 (min (note.1.getD video.learnTimeSec) video.videoSec) : ℤ) : ℚ)
  ⟨played, played, 0, points.filter fun p => played ≤ p.timeSec, video.answeredPopupQuestions,
    max (note.2.getD video.studyTotalTime) 0⟩

/-- The run lemma of the loop. -/
theorem exists_iterations {videoSec : ℤ} {speed : ℚ} (hspeed : 1 / 2 ≤ speed) (s : Playback)
    (hbefore : s.played ≤ videoSec) :
    ∃ n ≤ remaining videoSec s, ((advance videoSec speed)^[n] s).played = videoSec ∧
      ∀ k < n, ((advance videoSec speed)^[k] s).played < videoSec := by
  induction hr : remaining videoSec s using Nat.strong_induction_on generalizing s with
  | _ r ih =>
    subst hr
    rcases hbefore.lt_or_eq with hlt | heq
    · obtain ⟨-, hend, hless⟩ := advance_progresses hspeed hlt
      obtain ⟨n, hn, hlast, hsteps⟩ := ih _ hless _ hend rfl
      refine ⟨n + 1, by omega, ?_, ?_⟩
      · rwa [Function.iterate_succ_apply]
      · intro k hk
        cases k with
        | zero => exact hlt
        | succ k =>
          rw [Function.iterate_succ_apply]
          exact hsteps k (by omega)
    · exact ⟨0, Nat.zero_le _, heq, fun k hk => absurd hk (Nat.not_lt_zero k)⟩

theorem half_le_effSpeed (speed : ℚ) : 1 / 2 ≤ effSpeed speed :=
  le_min (le_max_right _ _) (by norm_num)

theorem loopStart_played_le {video : Video} (hpos : 0 < video.videoSec)
    (note : Option ℤ × Option ℤ) (points : List Point) :
    (loopStart video note points).played ≤ video.videoSec := by
  have hle : max 0 (min (note.1.getD video.learnTimeSec) video.videoSec) ≤ video.videoSec :=
    max_le hpos.le (min_le_right _ _)
  exact Int.cast_le.mpr hle

theorem remaining_loopStart_le (video : Video) (note : Option ℤ × Option ℤ) (points : List Point) :
    remaining video.videoSec (loopStart video note points) ≤
      ⌈2 * (video.videoSec : ℚ)⌉₊ + points.length := by
  have hstart : 0 ≤ (loopStart video note points).played := Int.cast_nonneg (le_max_left _ _)
  have hlength : (loopStart video note points).points.length ≤ points.length :=
    List.length_filter_le _ _
  have hceil : ⌈2 * (video.videoSec - (loopStart video note points).played)⌉₊ ≤
      ⌈2 * (video.videoSec : ℚ)⌉₊ := Nat.ceil_mono (by linarith)
  unfold remaining
  omega

theorem ends_playback {videoSec : ℤ} {speed : ℚ} {fuel n : ℕ} {s : Playback} (henough : n < fuel)
    (hlast : ((advance videoSec speed)^[n] s).played = videoSec)
    (hsteps : ∀ k < n, ((advance videoSec speed)^[k] s).played < videoSec) : Ends videoSec speed fuel s := by
  intro spent
  induction n generalizing fuel s with
  | zero =>
    obtain ⟨fuel, rfl⟩ := Nat.exists_eq_add_of_lt henough
    have hover : ¬ s.played < videoSec := by
      rw [Function.iterate_zero, id] at hlast
      exact hlast.not_lt
    rw [Nat.zero_add, playback, if_neg hover]
    exact .here rfl
  | succ n ih =>
    obtain ⟨fuel, rfl⟩ : ∃ rest, fuel = rest + 1 := ⟨fuel - 1, by omega⟩
    have hrest : (playback videoSec speed spent fuel (advance videoSec speed s)).Leads (· = .finish true) := by
      apply ih (by omega)
      · rwa [← Function.iterate_succ_apply]
      · intro k hk
        rw [← Function.iterate_succ_apply]
        exact hsteps (k + 1) (by omega)
    exact (leads_playback_succ (hsteps 0 (Nat.succ_pos n))).trans fun _ hw => hw ▸ hrest

/-- The loop moves the position on in every iteration, and ends after at most two iterations for
each second and one for each checkpoint, with the position at the duration. -/
theorem playback_makes_progress (video : Video) (speed : ℚ) (note : Option ℤ × Option ℤ)
    (points : List Point) (hpos : 0 < video.videoSec) :
    ∃ n ≤ ⌈2 * (video.videoSec : ℚ)⌉₊ + points.length, ∃ states : ℕ → Playback,
      (∀ k ≤ n, Iterates video.videoSec (effSpeed speed) k (loopStart video note points) (states k)) ∧
      (∀ k < n, Iterates video.videoSec (effSpeed speed) 1 (states k) (states (k + 1)) ∧
        (states k).played < (states (k + 1)).played) ∧
      (states n).played = video.videoSec ∧
      Ends video.videoSec (effSpeed speed) (n + 1) (loopStart video note points) := by
  have hspeed := half_le_effSpeed speed
  obtain ⟨n, hn, hlast, hsteps⟩ :=
    exists_iterations hspeed _ (loopStart_played_le hpos note points)
  refine ⟨n, hn.trans (remaining_loopStart_le video note points),
    fun k => (advance video.videoSec (effSpeed speed))^[k] (loopStart video note points), ?_, ?_, hlast,
    ends_playback (Nat.lt_succ_self n) hlast hsteps⟩
  · exact fun k hk => iterates_advance fun j hj => hsteps j (by omega)
  · intro k hk
    dsimp only
    rw [Function.iterate_succ_apply']
    refine ⟨iterates_advance (n := 1) fun j hj => ?_, (advance_progresses hspeed (hsteps k hk)).1⟩
    rw [Nat.lt_one_iff.mp hj]
    exact hsteps k hk

/-- Three seconds with a checkpoint after the first one. -/
theorem playback_makes_progress_short : ∃ n ≤ ⌈2 * ((3 : ℤ) : ℚ)⌉₊ + 1, ∃ states : ℕ → Playback,
    (∀ k ≤ n, Iterates 3 1 k ⟨0, 0, 0, [⟨1, ["7"]⟩], [], 0⟩ (states k)) ∧
      (∀ k < n, Iterates 3 1 1 (states k) (states (k + 1)) ∧ (states k).played < (states (k + 1)).played) ∧
      (states n).played = 3 ∧ Ends 3 1 (n + 1) ⟨0, 0, 0, [⟨1, ["7"]⟩], [], 0⟩ := by
  have hstart : loopStart ⟨"1", "Introduction", 3, 0, 0, 0, []⟩ (none, none) [⟨1, ["7"]⟩] =
      ⟨0, 0, 0, [⟨1, ["7"]⟩], [], 0⟩ := by simp [loopStart]
  have hspeed : effSpeed 1 = 1 := by norm_num [effSpeed]
  have hprogress :=
    playback_makes_progress ⟨"1", "Introduction", 3, 0, 0, 0, []⟩ 1 (none, none) [⟨1, ["7"]⟩] (by decide)
  rw [hstart, hspeed] at hprogress
  exact hprogress

theorem leads_passRemaining {goal : Watch → Prop} {done : Watch} (hdone : done.Leads goal)
    (points : List Point) : ∀ answered, (passRemaining done answered points).Leads goal := by
  induction points with
  | nil => exact fun _ => hdone
  | cons point rest ih => exact fun answered => leads_answerPopupCheckpoint _ _ _ _ (ih _)

/-- The loop of the model has enough fuel: an undisturbed call comes to its end. -/
theorem watchFrom_finishes (video : Video) (speed : ℚ) (note : Option ℤ × Option ℤ)
    (points : List Point) (hpos : 0 < video.videoSec)
    (hwithin : ∀ p ∈ points, p.timeSec ≤ video.videoSec) :
    (watchFrom video (effSpeed speed) (loopStart video note points).played
      (max (note.2.getD video.studyTotalTime) 0) points).Leads (· = .finish true) := by
  have hlist : ¬ (points.any fun p => (video.videoSec : ℚ) < p.timeSec) = true := by
    simpa using hwithin
  rw [watchFrom, if_neg hlist]
  dsimp only
  split_ifs with hover
  · apply leads_passRemaining
    exact .gate (.request fun (accepted : Bool) haccepted => .here (congrArg Watch.finish haccepted))
  · obtain ⟨n, hn, hlast, hsteps⟩ := exists_iterations (half_le_effSpeed speed) _
      (loopStart_played_le hpos note points)
    refine ends_playback ?_ hlast hsteps _
    have hstart : 0 ≤ (loopStart video note points).played := Int.cast_nonneg (le_max_left _ _)
    have hceil : ⌈2 * (video.videoSec - (loopStart video note points).played)⌉₊ ≤
        (2 * video.videoSec).toNat := by
      apply Nat.ceil_le.mpr
      have hcast : ((2 * video.videoSec).toNat : ℚ) = 2 * video.videoSec := by
        rw [← Int.cast_natCast, Int.toNat_of_nonneg (by omega)]
        push_cast
        rfl
      rw [hcast]
      linarith
    unfold remaining at hn
    exact Nat.lt_succ_of_le (hn.trans (by rw [Nat.add_comm]; exact Nat.add_le_add_right hceil _))

end UniversityHelper.Zhihuishu
