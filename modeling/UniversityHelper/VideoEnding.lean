import UniversityHelper.VideoStudy

/-! The loop of `study_video` ends whatever the server says, and reports a saturated position only
so often. -/
namespace UniversityHelper.VideoStudy

def Report.saturated (r : Report) : Bool := r.duration ≤ r.position

/-- The reports of the loop at a saturated position; the first report is made before it. -/
def State.saturated (s : State) : ℕ := s.reports.tail.countP Report.saturated

section Counting
variable {job : Job} {speed : ℚ} {info : Option VideoInfo} {s s' : State} {t : Turn}

/-- The counters bound the reports made so far. -/
structure Loop.Counts (s : Loop) (saturated : ℕ) : Prop where
  retries : s.forbiddenRetry ≤ maxForbiddenRetry
  reports : s.saturatedReports < maxReportsWhileSaturated
  bound : saturated ≤ maxReportsWhileSaturated * s.forbiddenRetry + s.saturatedReports

structure State.Counts (s : State) : Prop where
  first : ∀ loop, s.outcome = .going loop → s.reports ≠ []
  loop : ∀ loop, s.outcome = .going loop → loop.Counts s.saturated
  bound : s.saturated ≤ (maxForbiddenRetry + 1) * maxReportsWhileSaturated

theorem counts_goes {loop next : Loop} {position : ℚ} {report : Option Report} {saturated : ℕ}
    (h : loop.Counts saturated) (hgoes : Goes job speed loop position t report next) :
    next.Counts (saturated + report.toList.countP Report.saturated) := by
  obtain ⟨hretries, hreports, hbound⟩ := h
  have hone : ∀ r : Report, (some r).toList.countP Report.saturated ≤ 1 := fun r =>
    List.countP_le_length
  simp only [maxForbiddenRetry, maxReportsWhileSaturated] at hretries hreports hbound
  cases hgoes with
  | rests idle => exact ⟨hretries, hreports, hbound⟩
  | refreshes due left refreshed got refused =>
    have hreport := hone ⟨position, loop.duration⟩
    exact ⟨left, Nat.succ_pos 9, by simp only [Loop.refresh, maxReportsWhileSaturated]; omega⟩
  | retries due left =>
    have hreport := hone ⟨position, loop.duration⟩
    exact ⟨left, hreports, by simp only [Loop.log, Loop.advance, maxReportsWhileSaturated]; omega⟩
  | saturates due full left =>
    have hreport := hone ⟨position, loop.duration⟩
    exact ⟨hretries, left, by simp only [Loop.log, Loop.advance, maxReportsWhileSaturated]; omega⟩
  | logs due part =>
    have hpart : (some (⟨position, loop.duration⟩ : Report)).toList.countP Report.saturated = 0 := by
      simp [Report.saturated, part]
    rw [hpart]
    exact ⟨hretries, hreports, hbound⟩

theorem State.Counts.step (h : s.Counts) (taken : step job speed s t = some s') : s'.Counts := by
  obtain ⟨loop, hgoing, houtcome, hreports⟩ := step_going taken
  have hfirst := h.first loop hgoing
  have hloop := h.loop loop hgoing
  have hsaturated : s'.saturated =
      s.saturated + (loop.iterate job speed t).1.toList.countP Report.saturated := by
    rw [State.saturated, hreports, List.tail_append_of_ne_nil hfirst, List.countP_append]
    rfl
  refine ⟨fun _ _ => ?_, fun next hnext => ?_, ?_⟩
  · rw [hreports]
    exact List.append_ne_nil_of_left_ne_nil hfirst _
  · rw [houtcome] at hnext
    obtain ⟨_, position, hposition, hgoes⟩ := iterate_goes hnext
    rw [hsaturated]
    exact counts_goes hloop hgoes
  · obtain ⟨hretries, hcounted, hbound⟩ := hloop
    have hone : (loop.iterate job speed t).1.toList.countP Report.saturated ≤ 1 :=
      List.countP_le_length.trans Option.length_toList_le
    rw [hsaturated]
    simp only [maxForbiddenRetry, maxReportsWhileSaturated] at hretries hcounted hbound ⊢
    omega

theorem start_counts (hs : (machine job speed info).start s) : s.Counts := by
  obtain ⟨server, draw, now, rfl⟩ := hs
  have hended : State.Counts ⟨.returned .error, []⟩ :=
    ⟨fun _ h => (by cases h), fun _ h => (by cases h), Nat.zero_le _⟩
  cases info with
  | none => exact hended
  | some video =>
    by_cases hstatus : video.status = "success"
    · simp only [studyVideo, hstatus, ne_eq, not_true_eq_false, if_false]
      refine ⟨fun _ _ => List.cons_ne_nil _ _, fun loop hloop => ?_, Nat.zero_le _⟩
      dsimp only at hloop
      split at hloop
      · cases hloop
      · cases hloop
      · cases hloop
        exact ⟨Nat.zero_le _, Nat.succ_pos 9, Nat.zero_le _⟩
    · simp only [studyVideo, ne_eq, hstatus, not_false_eq_true, if_true]
      exact hended

end Counting

section Ending
variable {job : Job} {speed ε d position : ℚ} {s next : Loop} {t : Turn}

/-- A bound on the iterations that bring the position to the duration, each by at least `ε`. -/
def gap (ε : ℚ) (duration : ℤ) (position : ℚ) : ℕ :=
  ⌈(duration - position) / ε⌉₊ + if duration < position then 1 else 0

theorem gap_full {duration : ℤ} (hd : 0 ≤ d) (full : duration ≤ position) :
    gap ε duration (min ↑duration (position + d)) = 0 := by
  rw [min_eq_left (full.trans (le_add_of_nonneg_right hd))]
  simp [gap]

theorem gap_lt {duration : ℤ} (hε : 0 < ε) (hd : ε ≤ d) (part : position ≠ duration) :
    gap ε duration (min ↑duration (position + d)) < gap ε duration position := by
  rcases lt_or_gt_of_ne part with hlt | hgt
  · have hpos : 0 < (duration - position) / ε := div_pos (sub_pos.mpr hlt) hε
    rcases le_total (duration : ℚ) (position + d) with hend | hmid
    · rw [min_eq_left hend]
      simp [gap, hlt.not_gt, hpos]
    · rw [min_eq_right hmid]
      have hcloser : (duration - (position + d)) / ε + 1 ≤ (duration - position) / ε := by
        rw [div_add_one hε.ne', div_le_div_iff_of_pos_right hε]
        linarith
      have hceil := Nat.ceil_lt_add_one (div_nonneg (sub_nonneg.mpr hmid) hε.le)
      have hlt' := Nat.lt_ceil.mpr (hceil.trans_le hcloser)
      simpa [gap, hlt.not_gt, hmid.not_gt] using hlt'
  · rw [gap_full (hε.le.trans hd) hgt.le]
    simp [gap, hgt]

/-- The 403 retries that are left, then what is left of the video and of the saturated reports. -/
def Loop.rank (ε : ℚ) (s : Loop) : ℕ ×ₗ ℕ :=
  toLex (maxForbiddenRetry - s.forbiddenRetry,
    s.playTime.elim 0 (gap ε s.duration) + (maxReportsWhileSaturated - s.saturatedReports))

theorem rank_lt_of_retries {ε : ℚ} (left : s.forbiddenRetry < maxForbiddenRetry)
    (h : next.forbiddenRetry = s.forbiddenRetry + 1) : next.rank ε < s.rank ε := by
  refine Prod.Lex.toLex_lt_toLex.mpr (.inl ?_)
  simp only [h]
  omega

theorem rank_goes {report : Option Report} (hε : 0 < ε) (hd : ε ≤ (t.now - s.lastIter) * speed)
    (hposition : s.playTime = some position) (hgoes : Goes job speed s position t report next) :
    next.rank ε < s.rank ε := by
  cases hgoes with
  | rests idle =>
    have hlt := gap_lt hε hd fun heq => idle (.inr heq)
    refine Prod.Lex.toLex_lt_toLex.mpr (.inr ⟨rfl, ?_⟩)
    simp only [Loop.advance, hposition, Option.elim_some]
    omega
  | refreshes due left refreshed got refused => exact rank_lt_of_retries left rfl
  | retries due left => exact rank_lt_of_retries left rfl
  | saturates due full left =>
    have hzero := gap_full (ε := ε) (hε.le.trans hd) full
    refine Prod.Lex.toLex_lt_toLex.mpr (.inr ⟨rfl, ?_⟩)
    simp only [Loop.log, Loop.advance, hposition, Option.elim_some, hzero]
    omega
  | logs due part =>
    have hlt := gap_lt hε hd part.ne
    refine Prod.Lex.toLex_lt_toLex.mpr (.inr ⟨rfl, ?_⟩)
    simp only [Loop.log, Loop.advance, hposition, Option.elim_some]
    omega

end Ending

/-- The call after `n` iterations, or as it ended before. -/
def after (job : Job) (speed : ℚ) (s : State) (turns : ℕ → Turn) : ℕ → State
  | 0 => s
  | n + 1 => (step job speed (after job speed s turns n) (turns n)).getD (after job speed s turns n)

/-- The clock goes on by at least `δ` from one iteration to the next. -/
structure Ticking (δ now : ℚ) (turns : ℕ → Turn) : Prop where
  first : now + δ ≤ (turns 0).now
  read : ∀ n, (turns n).now ≤ (turns n).later
  next : ∀ n, (turns n).later + δ ≤ (turns (n + 1)).now

/-- The last reading of the clock before iteration `n`. -/
def lastReading (now : ℚ) (turns : ℕ → Turn) : ℕ → ℚ
  | 0 => now
  | n + 1 => (turns n).later

section Ending
variable {job : Job} {speed δ now : ℚ} {s : State} {turns : ℕ → Turn}

theorem Ticking.reading (h : Ticking δ now turns) (n : ℕ) :
    lastReading now turns n + δ ≤ (turns n).now := by
  cases n with
  | zero => exact h.first
  | succ n => exact h.next n

theorem lastIter_goes {loop next : Loop} {position : ℚ} {t : Turn} {report : Option Report}
    (hgoes : Goes job speed loop position t report next) :
    next.lastIter = t.later ∨ next.lastIter = loop.lastIter := by
  cases hgoes with
  | refreshes due left refreshed got refused => exact .inr rfl
  | rests idle => exact .inl rfl
  | retries due left => exact .inl rfl
  | saturates due full left => exact .inl rfl
  | logs due part => exact .inl rfl

theorem after_going {n : ℕ} {next : Loop}
    (h : (after job speed s turns (n + 1)).outcome = .going next) :
    ∃ loop, (after job speed s turns n).outcome = .going loop ∧
      ∃ position, loop.playTime = some position ∧
        ∃ report, Goes job speed loop position (turns n) report next := by
  rw [after] at h
  cases htaken : step job speed (after job speed s turns n) (turns n) with
  | none =>
    rw [htaken, Option.getD_none] at h
    rw [step_of_going h] at htaken
    cases htaken
  | some s' =>
    rw [htaken, Option.getD_some] at h
    obtain ⟨loop, hgoing, houtcome, -⟩ := step_going htaken
    obtain ⟨-, position, hposition, hgoes⟩ := iterate_goes (houtcome ▸ h)
    exact ⟨loop, hgoing, position, hposition, _, hgoes⟩

theorem lastIter_le (hδ : 0 < δ) (ticking : Ticking δ now turns)
    (hstart : ∀ loop, s.outcome = .going loop → loop.lastIter ≤ now) (n : ℕ) :
    ∀ loop, (after job speed s turns n).outcome = .going loop →
      loop.lastIter ≤ lastReading now turns n := by
  induction n with
  | zero => exact hstart
  | succ n ih =>
    intro next hnext
    obtain ⟨loop, hgoing, position, -, report, hgoes⟩ := after_going hnext
    have hread := ticking.reading n
    have hlater := ticking.read n
    have hloop := ih loop hgoing
    change next.lastIter ≤ (turns n).later
    rcases lastIter_goes hgoes with heq | heq
    · exact heq.le
    · rw [heq]
      linarith

/-- A call whose loop goes on gets to a state in which it does not. -/
theorem after_ends (fast : 0 < speed) (hδ : 0 < δ) (ticking : Ticking δ now turns)
    (hstart : ∀ loop, s.outcome = .going loop → loop.lastIter ≤ now) :
    ∃ n, ∀ loop, (after job speed s turns n).outcome ≠ .going loop := by
  by_contra hgoing
  simp only [not_exists, not_forall, not_not] at hgoing
  choose loop hloop using hgoing
  have hdecreasing : ∀ n, (loop (n + 1)).rank (δ * speed) < (loop n).rank (δ * speed) := by
    intro n
    obtain ⟨before, hbefore, position, hposition, report, hgoes⟩ := after_going (hloop (n + 1))
    cases (hloop n).symm.trans hbefore
    have hlast := lastIter_le hδ ticking hstart n (loop n) (hloop n)
    have hread := ticking.reading n
    have hd : δ * speed ≤ ((turns n).now - (loop n).lastIter) * speed :=
      mul_le_mul_of_nonneg_right (by linarith) fast.le
    exact rank_goes (mul_pos hδ fast) hd hposition hgoes
  exact not_strictAnti_of_wellFoundedLT (fun n => (loop n).rank (δ * speed))
    (strictAnti_nat_of_succ_lt hdecreasing)

theorem studyVideo_lastIter {info : Option VideoInfo} {server : Server} {draw : Draw} :
    ∀ loop, (studyVideo job info server draw now).outcome = .going loop → loop.lastIter ≤ now := by
  intro loop hloop
  cases info with
  | none => cases hloop
  | some video =>
    by_cases hstatus : video.status = "success"
    · simp only [studyVideo, hstatus, ne_eq, not_true_eq_false, if_false] at hloop
      split at hloop
      · cases hloop
      · cases hloop
      · cases hloop
        exact le_rfl
    · simp only [studyVideo, ne_eq, hstatus, not_false_eq_true, if_true] at hloop
      cases hloop

theorem counts_after (h : s.Counts) (n : ℕ) : (after job speed s turns n).Counts := by
  induction n with
  | zero => exact h
  | succ n ih =>
    rw [after]
    cases htaken : step job speed (after job speed s turns n) (turns n) with
    | none => exact ih
    | some s' => exact ih.step htaken

end Ending

theorem study_video_ends (job : Job) (speed : ℚ) (fast : 0 < speed) (info : Option VideoInfo)
    (server : Server) (draw : Draw) (now δ : ℚ) (hδ : 0 < δ) (turns : ℕ → Turn)
    (ticking : Ticking δ now turns) :
    (∃ n, ∀ loop, (after job speed (studyVideo job info server draw now) turns n).outcome ≠
        .going loop) ∧
      ∀ n, (after job speed (studyVideo job info server draw now) turns n).saturated ≤
        (maxForbiddenRetry + 1) * maxReportsWhileSaturated := by
  have hstart : (machine job speed info).start (studyVideo job info server draw now) :=
    ⟨server, draw, now, rfl⟩
  exact ⟨after_ends fast hδ ticking studyVideo_lastIter,
    fun n => (counts_after (start_counts hstart) n).bound⟩

/-- The first report of the loop is refused, and the metadata comes anew; no later report is passed. -/
def refusedOnce (n : ℕ) : Turn :=
  if n = 0 then { lostTurn 1 with server := fun _ => some ⟨403, none⟩, refreshed := some ⟨some 90, some (some 30)⟩ }
  else { lostTurn (n + 1) with server := fun _ => some ⟨200, some false⟩ }

theorem ticking_refusedOnce : Ticking 1 0 refusedOnce := by
  have hnow : ∀ n, (refusedOnce n).now = n + 1 ∧ (refusedOnce n).later = n + 1 := by
    intro n
    rw [refusedOnce]
    split_ifs with hfirst
    · subst hfirst
      simp [lostTurn]
    · exact ⟨rfl, rfl⟩
  constructor
  · rw [(hnow 0).1]
    norm_num
  · intro n
    rw [(hnow n).1, (hnow n).2]
  · intro n
    rw [(hnow n).2, (hnow (n + 1)).1]
    push_cast
    rfl

theorem study_video_ends_refusedOnce :
    let start := studyVideo ⟨60000, "1", ""⟩ (some ⟨"success", 60⟩) (fun _ => some ⟨200, some false⟩) noDraw 0
    (∃ loop, (after ⟨60000, "1", ""⟩ 1 start refusedOnce 1).outcome = .going loop ∧ loop.forbiddenRetry = 1 ∧
      loop.duration = 90) ∧
    (∃ n, ∀ loop, (after ⟨60000, "1", ""⟩ 1 start refusedOnce n).outcome ≠ .going loop) ∧
    ∀ n, (after ⟨60000, "1", ""⟩ 1 start refusedOnce n).saturated ≤ 30 := by
  intro start
  have hplain : contains "" "courseId" = false := by decide
  have hbegun : ∃ wait reports, start = ⟨.going ⟨60, some 60, 0, wait, 0, 0, 0⟩, reports⟩ := by
    simp [start, studyVideo, videoProgressLog, hplain, Job.rate, Response.state]
  obtain ⟨wait, reports, hstart⟩ := hbegun
  have hfirst : ∃ loop, (after ⟨60000, "1", ""⟩ 1 start refusedOnce 1).outcome = .going loop ∧
      loop.forbiddenRetry = 1 ∧ loop.duration = 90 := by
    simp [after, hstart, step, Loop.iterate, Loop.due, refusedOnce, lostTurn, videoProgressLog, hplain, Job.rate,
      Response.state, Loop.answered, Loop.refresh, maxForbiddenRetry]
  refine ⟨hfirst, ?_⟩
  exact study_video_ends ⟨60000, "1", ""⟩ 1 one_pos (some ⟨"success", 60⟩) (fun _ => some ⟨200, some false⟩)
    noDraw 0 1 one_pos refusedOnce ticking_refusedOnce

end UniversityHelper.VideoStudy
