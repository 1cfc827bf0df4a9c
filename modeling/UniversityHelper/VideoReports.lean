import UniversityHelper.VideoStudy

/-! Every report of a video lies between zero and the duration sent with it, while what the server
says of the position does. -/
namespace UniversityHelper.VideoStudy

def Report.Consistent (r : Report) : Prop := 0 ≤ r.playingTime ∧ r.playingTime ≤ r.duration

def State.Consistent (s : State) : Prop := ∀ r ∈ s.reports, r.Consistent

theorem truncate_nonneg {x : ℚ} (h : 0 ≤ x) : 0 ≤ truncate x := by
  rw [truncate, if_pos h]
  exact Int.floor_nonneg.mpr h

theorem truncate_le {x : ℚ} {n : ℤ} (hn : 0 ≤ n) (h : x ≤ n) : truncate x ≤ n := by
  rw [truncate]
  split_ifs with hx
  · have hfloor : (⌊x⌋ : ℚ) ≤ n := (Int.floor_le x).trans h
    exact_mod_cast hfloor
  · have hneg : x ≤ 0 := (not_le.mp hx).le
    exact (Int.ceil_le.mpr (by exact_mod_cast hneg)).trans hn

@[simp] theorem truncate_intCast (n : ℤ) : truncate n = n := by
  simp [truncate]

theorem drawWaitTime_nonneg (duration : ℤ) (draw : Draw) : 0 ≤ drawWaitTime duration draw := by
  have hdraw := draw.nonneg
  rw [drawWaitTime]
  split_ifs <;> (apply truncate_nonneg; rw [uniform]; linarith)

/-- The position is not beyond the duration, or it is not reported before the clock is read. -/
def Loop.Fits (s : Loop) : Prop := ∀ position, s.playTime = some position →
  0 ≤ s.duration ∧ (truncate position ≤ s.duration ∨ position - s.lastLogTime < s.waitTime)

/-- The first report is made with the position of the job and the duration of the video. -/
def Opens (job : Job) (info : Option VideoInfo) : Prop := ∀ video, info = some video →
  video.status = "success" → 0 ≤ job.playTime / 1000 ∧ job.playTime / 1000 ≤ video.duration

/-- The iteration takes over what the server says after a 403. -/
structure Loop.Refreshing (s : Loop) (job : Job) (t : Turn) (position : ℚ) (refreshed : Meta) :
    Prop where
  awake : t.shouldStop = false
  playTime : s.playTime = some position
  due : s.due position
  refused : ∃ passed, videoProgressLog job t.server = some (passed, 403)
  left : s.forbiddenRetry < maxForbiddenRetry
  got : t.refreshed = some refreshed

/-- Refreshed metadata fits. -/
def Sound (job : Job) (s : State) (t : Turn) : Prop := ∀ loop, s.outcome = .going loop →
  ∀ position refreshed, loop.Refreshing job t position refreshed →
    (loop.refresh position refreshed).Fits

section Step
variable {job : Job} {speed : ℚ} {s next : Loop} {position : ℚ} {t : Turn}

/-- What holds of the variables whenever the loop begins again. -/
structure Loop.Inv (s : Loop) : Prop where
  fits : s.Fits
  lastLogTime : 0 ≤ s.lastLogTime
  waitTime : 0 ≤ s.waitTime

theorem fits_advance (h : 0 ≤ s.duration) : (s.advance speed position t).Fits := by
  rintro _ ⟨⟩
  exact ⟨h, .inl (truncate_le h (min_le_left _ _))⟩

theorem fits_log (h : 0 ≤ s.duration) : (s.log speed position t).Fits :=
  fits_advance (s := { s with waitTime := drawWaitTime s.duration t.draw, lastLogTime := position }) h

/-- A position that is due is in range. -/
theorem Loop.Inv.due (h : s.Inv) (hposition : s.playTime = some position) (due : s.due position) :
    0 ≤ position ∧ truncate position ≤ s.duration := by
  obtain ⟨hduration, hfits⟩ := h.fits position hposition
  have hlast := h.lastLogTime
  have hwait : (0 : ℚ) ≤ s.waitTime := by exact_mod_cast h.waitTime
  rcases due with hlater | hend
  · exact ⟨by linarith, hfits.resolve_right (not_lt.mpr hlater)⟩
  · subst hend
    exact ⟨by exact_mod_cast hduration, by rw [truncate_intCast]⟩

theorem inv_log (h : s.Inv) (hposition : s.playTime = some position) (due : s.due position) :
    (s.log speed position t).Inv where
  fits := fits_log (h.fits position hposition).1
  lastLogTime := (h.due hposition due).1
  waitTime := drawWaitTime_nonneg ..

theorem inv_goes {report : Option Report} (h : s.Inv) (hposition : s.playTime = some position)
    (sound : ∀ refreshed, t.refreshed = some refreshed → s.due position →
      (∃ passed, videoProgressLog job t.server = some (passed, 403)) →
      s.forbiddenRetry < maxForbiddenRetry → (s.refresh position refreshed).Fits)
    (hgoes : Goes job speed s position t report next) : next.Inv := by
  cases hgoes with
  | rests idle => exact ⟨fits_advance (h.fits position hposition).1, h.lastLogTime, h.waitTime⟩
  | refreshes due left refreshed got refused =>
    exact ⟨sound refreshed got due refused left, h.lastLogTime, h.waitTime⟩
  | retries due left =>
    have hretry : Loop.Inv { s with forbiddenRetry := s.forbiddenRetry + 1 } :=
      ⟨h.fits, h.lastLogTime, h.waitTime⟩
    exact inv_log hretry hposition due
  | saturates due full left =>
    have hfull : Loop.Inv { s with saturatedReports := s.saturatedReports + 1 } :=
      ⟨h.fits, h.lastLogTime, h.waitTime⟩
    exact inv_log hfull hposition due
  | logs due part => exact inv_log h hposition due

end Step

section Run
variable {job : Job} {speed : ℚ} {info : Option VideoInfo} {s s' : State} {t : Turn}

structure State.Inv (s : State) : Prop where
  loop : ∀ loop, s.outcome = .going loop → loop.Inv
  reports : s.Consistent

theorem State.Inv.step (h : s.Inv) (sound : Sound job s t) (taken : step job speed s t = some s') :
    s'.Inv := by
  obtain ⟨loop, hgoing, houtcome, hreports⟩ := step_going taken
  have hloop := h.loop loop hgoing
  constructor
  · intro next hnext
    rw [houtcome] at hnext
    obtain ⟨awake, position, hposition, hgoes⟩ := iterate_goes hnext
    refine inv_goes hloop hposition (fun refreshed got due refused left => ?_) hgoes
    exact sound loop hgoing position refreshed ⟨awake, hposition, due, refused, left, got⟩
  · intro r hr
    rw [hreports, List.mem_append, Option.mem_toList] at hr
    rcases hr with hr | hr
    · exact h.reports r hr
    · obtain ⟨position, hposition, due, rfl⟩ := iterate_report hr
      obtain ⟨hnonneg, hle⟩ := hloop.due hposition due
      exact ⟨truncate_nonneg hnonneg, hle⟩

theorem start_consistent_iff (hs : (machine job speed info).start s) :
    s.Consistent ↔ Opens job info := by
  obtain ⟨server, draw, now, rfl⟩ := hs
  cases info with
  | none => simp [studyVideo, State.Consistent, Opens]
  | some video =>
    by_cases hstatus : video.status = "success"
    · simp [studyVideo, State.Consistent, Opens, Report.Consistent, Report.playingTime, hstatus]
    · simp [studyVideo, State.Consistent, Opens, hstatus]

theorem start_inv (opens : Opens job info) (hs : (machine job speed info).start s) : s.Inv := by
  have hconsistent := (start_consistent_iff hs).mpr opens
  obtain ⟨server, draw, now, rfl⟩ := hs
  refine ⟨?_, hconsistent⟩
  intro loop hloop
  cases info with
  | none => cases hloop
  | some video =>
    by_cases hstatus : video.status = "success"
    · obtain ⟨hnonneg, hle⟩ := opens video rfl hstatus
      simp only [studyVideo, hstatus, ne_eq, not_true_eq_false, if_false] at hloop
      split at hloop
      · cases hloop
      · cases hloop
      · cases hloop
        refine ⟨?_, le_rfl, drawWaitTime_nonneg ..⟩
        rintro _ ⟨⟩
        exact ⟨hnonneg.trans hle, .inl (by rwa [truncate_intCast])⟩
    · simp only [studyVideo, ne_eq, hstatus, not_false_eq_true, if_true] at hloop
      cases hloop

theorem iterate_due {loop : Loop} {position now : ℚ} (hposition : loop.playTime = some position)
    (due : loop.due position) :
    (loop.iterate job speed (lostTurn now)).1 = some ⟨position, loop.duration⟩ := by
  simp [Loop.iterate, lostTurn, hposition, due]

theorem iterate_idle {loop : Loop} {position now : ℚ} (hposition : loop.playTime = some position)
    (idle : ¬ loop.due position) :
    loop.iterate job speed (lostTurn now) =
      (none, .going (loop.advance speed position (lostTurn now))) := by
  simp [Loop.iterate, lostTurn, hposition, idle]

/-- A report that is due is made by the next turn. -/
theorem report_made {loop : Loop} {position : ℚ} (hgoing : s.outcome = .going loop)
    (hposition : loop.playTime = some position) (due : loop.due position)
    (bad : ¬ (⟨position, loop.duration⟩ : Report).Consistent) :
    ∃ turns u, (machine job speed info).exec s turns = some u ∧ ¬ u.Consistent := by
  have htaken : step job speed s (lostTurn 0) =
      some ⟨(loop.iterate job speed (lostTurn 0)).2, s.reports ++ [⟨position, loop.duration⟩]⟩ := by
    rw [step_of_going hgoing, iterate_due hposition due]
    rfl
  exact ⟨[lostTurn 0], _, Machine.exec_of_step htaken rfl, fun hconsistent =>
    bad (hconsistent _ (List.mem_append_right _ List.mem_cons_self))⟩

/-- A loop whose position does not fit goes on to report it. -/
theorem misfit_reported (fast : 0 < speed) {loop : Loop} (hgoing : s.outcome = .going loop)
    (misfit : ¬ loop.Fits) :
    ∃ turns u, (machine job speed info).exec s turns = some u ∧ ¬ u.Consistent := by
  simp only [Loop.Fits, not_forall, not_and_or, not_or] at misfit
  obtain ⟨position, hposition, hmisfit⟩ := misfit
  have hbad : ∀ x, loop.duration < 0 → ¬ (⟨x, loop.duration⟩ : Report).Consistent := by
    rintro x hneg ⟨hnonneg, hle⟩
    exact absurd (hnonneg.trans hle) (not_le.mpr hneg)
  rcases hmisfit with hneg | ⟨hbeyond, hlater⟩
  · have hduration := not_le.mp hneg
    by_cases due : loop.due position
    · exact report_made hgoing hposition due (hbad position hduration)
    · -- the next turn brings the position to the duration
      let wait := max 0 ((loop.duration - position) / speed)
      let t := lostTurn (loop.lastIter + wait)
      have hreach : (loop.duration : ℚ) ≤ position + wait * speed := by
        have hle : (loop.duration - position) / speed ≤ wait := le_max_right _ _
        have hmul := (div_le_iff₀ fast).mp hle
        linarith
      have hend : (loop.advance speed position t).playTime = some (loop.duration : ℚ) := by
        have hread : t.now - loop.lastIter = wait := by
          simp [t, lostTurn]
        rw [Loop.advance, hread, min_eq_left hreach]
      have htaken : step job speed s t =
          some ⟨.going (loop.advance speed position t), s.reports ++ []⟩ := by
        rw [step_of_going hgoing, iterate_idle hposition due]
        rfl
      obtain ⟨turns, u, hexec, hu⟩ := report_made (s := ⟨.going (loop.advance speed position t),
        s.reports ++ []⟩) rfl hend (.inr rfl) (hbad _ hduration)
      exact ⟨t :: turns, u, Machine.exec_of_step htaken hexec, hu⟩
  · refine report_made hgoing hposition (.inl (not_lt.mp hlater)) fun hconsistent => ?_
    exact hbeyond hconsistent.2

theorem iterate_refreshing {loop : Loop} {position : ℚ} {refreshed : Meta}
    (h : loop.Refreshing job t position refreshed) :
    (loop.iterate job speed t).2 = .going
      (Loop.refresh { loop with forbiddenRetry := loop.forbiddenRetry + 1 } position refreshed) := by
  obtain ⟨passed, hanswer⟩ := h.refused
  have hleft : ¬ maxForbiddenRetry ≤ loop.forbiddenRetry := not_le.mpr h.left
  simp [Loop.iterate, h.awake, h.playTime, h.due, hanswer, Loop.answered, hleft, h.got]

end Run

theorem reports_consistent (job : Job) (speed : ℚ) (info : Option VideoInfo) :
    (∀ s, (machine job speed info).start s → (s.Consistent ↔ Opens job info)) ∧
      (Opens job info → ∀ s, (machine job speed info).Reachable (Sound job) s → s.Consistent) ∧
      (0 < speed → ∀ s t s', (machine job speed info).Reachable Machine.free s →
        step job speed s t = some s' → ¬ Sound job s t →
          ∃ turns u, (machine job speed info).exec s' turns = some u ∧ ¬ u.Consistent) := by
  refine ⟨fun s => start_consistent_iff, fun opens s hs => ?_, fun fast s t s' _ taken hsound => ?_⟩
  · have hinv : s.Inv := hs.invariant (fun _ => start_inv opens) fun _ _ _ h => h.step
    exact hinv.reports
  · simp only [Sound, not_forall] at hsound
    obtain ⟨loop, hgoing, position, refreshed, hrefreshing, misfit⟩ := hsound
    obtain ⟨_, hgoing', houtcome, -⟩ := step_going taken
    cases hgoing.symm.trans hgoing'
    rw [iterate_refreshing hrefreshing] at houtcome
    exact misfit_reported fast houtcome misfit

/-- A video of a minute, played to its end. -/
def playedJob : Job := ⟨60000, "1", ""⟩
def minuteVideo : VideoInfo := ⟨"success", 60⟩

def answering (statusCode : ℕ) : Server := fun _ => some ⟨statusCode, some false⟩

/-- The refreshed position is in milliseconds, as that of the job is. -/
def refreshedMeta : Meta := ⟨some 60, some (some 60000)⟩

def refusedTurn : Turn := ⟨false, answering 403, some refreshedMeta, noDraw, 1, 1⟩

def playedLoop : Loop := ⟨60, some 60, 0, 20, 0, 0, 0⟩
def refreshedLoop : Loop := ⟨60, some 60000, 0, 20, 0, 1, 0⟩

theorem studyVideo_playedJob :
    studyVideo playedJob (some minuteVideo) (answering 200) noDraw 0 =
      ⟨.going playedLoop, [⟨60, 60⟩]⟩ := by
  have hanswer : videoProgressLog playedJob (answering 200) = some (false, 200) := by decide
  have hwait : drawWaitTime 60 noDraw = 20 := by
    norm_num [drawWaitTime, truncate, uniform, noDraw]
  simp only [studyVideo, minuteVideo, hanswer, hwait, playedLoop]
  norm_num [playedJob]

theorem playedLoop_refreshing : playedLoop.Refreshing playedJob refusedTurn 60 refreshedMeta where
  awake := rfl
  playTime := rfl
  due := .inr (by simp [playedLoop])
  refused := ⟨false, by decide⟩
  left := by decide
  got := rfl

theorem milliseconds_reported : ¬ ∀ job speed info s, 0 < speed →
    (machine job speed info).Reachable Machine.free s → s.Consistent := by
  intro h
  have hstart : (machine playedJob 1 (some minuteVideo)).start ⟨.going playedLoop, [⟨60, 60⟩]⟩ :=
    ⟨answering 200, noDraw, 0, studyVideo_playedJob.symm⟩
  have hnext : (playedLoop.iterate playedJob 1 refusedTurn).2 = .going refreshedLoop :=
    iterate_refreshing playedLoop_refreshing
  have hdue : refreshedLoop.due 60000 := .inl (by norm_num [refreshedLoop])
  have hbad : ¬ (⟨60000, refreshedLoop.duration⟩ : Report).Consistent := by
    rintro ⟨-, hle⟩
    norm_num [Report.playingTime, truncate, refreshedLoop] at hle
  let next : State := ⟨.going refreshedLoop,
    [⟨60, 60⟩] ++ (playedLoop.iterate playedJob 1 refusedTurn).1.toList⟩
  have htaken : (machine playedJob 1 (some minuteVideo)).step
      ⟨.going playedLoop, [⟨60, 60⟩]⟩ refusedTurn = some next := by
    simp only [machine]
    rw [step_of_going rfl, hnext]
  obtain ⟨turns, u, hexec, hu⟩ := report_made (s := next) rfl rfl hdue hbad
  exact hu (h playedJob 1 (some minuteVideo) u one_pos
    (Machine.reachable_of_exec _ hstart (Machine.exec_of_step htaken hexec)))

end UniversityHelper.VideoStudy
