import UniversityHelper.RetryingChapters

/-! When the page names exactly the chapters that are being retried: nothing is written when a chapter
succeeds after it has failed. -/
namespace UniversityHelper.LearningRun
open JavaScript (trim)
open LearningWorker (Payload runTaskWorker)
open TaskInsights (collect key)

variable {s : State} {study : Study} {x y : Chapter} {course title : String}

/-- The chapters that the page names as being retried, each with its course. -/
def names (s : State) : List (String × String) :=
  (TaskInsights.retrying s.logs).map fun r => (r.course, r.chapter)

/-- The page names the chapters that have failed and are not settled, each of them once. -/
structure RetryingExact (s : State) : Prop where
  once : (names s).Nodup
  exact : ∀ course title, (course, title) ∈ names s ↔ ∃ study ∈ s.studies, study.course = course ∧
    ∃ chapter ∈ study.chapters, chapter.title = title ∧ chapter.Failed ∧
      ¬ (chapter.Succeeded ∨ chapter.GivenUp)

theorem mem_names (h : Tracks (collect s.logs).retrying s.studies) :
    (course, title) ∈ names s ↔ PendingIn s.studies course title := by
  rw [← h.shows]
  simp only [names, TaskInsights.retrying, List.mem_map, OrderedDict.mem_values, Prod.mk.injEq]
  constructor
  · rintro ⟨r, ⟨k, hr⟩, rfl, rfl⟩
    exact ⟨r, by rw [← h.keyed k r hr]; exact hr, rfl, rfl⟩
  · rintro ⟨r, hr, hcourse, htitle⟩
    exact ⟨r, ⟨_, hr⟩, hcourse, htitle⟩

theorem names_nodup (h : Tracks (collect s.logs).retrying s.studies) : (names s).Nodup := by
  have hkeys : (names s).map (fun name => key name.1 name.2) = (collect s.logs).retrying.keys := by
    rw [names, TaskInsights.retrying, OrderedDict.values, OrderedDict.keys, List.map_map, List.map_map]
    refine List.map_congr_left fun entry hentry => ?_
    exact (h.keyed _ _ (OrderedDict.get_eq_some.mpr hentry)).symm
  refine List.Nodup.of_map (fun name : String × String => key name.1 name.2) ?_
  rw [hkeys]
  exact (collect s.logs).retrying.distinct

/-- Two failed chapters of one name are one chapter. -/
theorem failed_unique (hscope : InScope s) (hapart : s.studies.Pairwise Apart) {other : Study}
    (hstudy : study ∈ s.studies) (hother : other ∈ s.studies) (hx : x ∈ study.chapters) (hy : y ∈ other.chapters)
    (hxfailed : x.Failed) (hyfailed : y.Failed) (hcourse : study.course = other.course) (htitle : x.title = y.title) :
    x = y := by
  by_cases hsame : study = other
  · subst hsame
    exact List.inj_on_of_nodup_map (hscope study hstudy).distinct hx hy htitle
  · have hdiffer := hapart.forall hstudy hother hsame x hx y hy hxfailed hyfailed
    rw [hcourse, htitle] at hdiffer
    exact absurd rfl hdiffer

/-- In every run whose lines can be told apart, the page names exactly the chapters that have failed and
are not settled yet, up to the first chapter that succeeds after it has failed. -/
theorem retrying_exact_iff (reached : learningRun.Reachable Legible s) (inScope : InScope s)
    (fewer : s.logs.length < 1000) :
    RetryingExact s ↔
      ∀ study ∈ s.studies, ∀ chapter ∈ study.chapters, chapter.Failed → ¬ chapter.Succeeded := by
  obtain ⟨-, htracks⟩ := known_of_reachable reached inScope fewer
  constructor
  · intro hexact study hstudy x hx hfailed hsucceeded
    have hpending : x.Pending := ⟨hfailed, fun hgiven => htracks.sound study hstudy x hx hgiven hsucceeded⟩
    have hnamed : (study.course, x.title) ∈ names s :=
      (mem_names htracks).mpr ⟨study, hstudy, rfl, x, hx, rfl, hpending⟩
    obtain ⟨other, hother, hcourse, y, hy, htitle, hyfailed, hunsettled⟩ := (hexact.exact _ _).mp hnamed
    obtain rfl : y = x :=
      failed_unique inScope htracks.apart hother hstudy hy hx hyfailed hfailed hcourse htitle
    exact hunsettled (.inl hsucceeded)
  · intro hnone
    refine ⟨names_nodup htracks, fun course title => ?_⟩
    rw [mem_names htracks]
    constructor
    · rintro ⟨study, hstudy, hcourse, x, hx, htitle, hfailed, hkept⟩
      refine ⟨study, hstudy, hcourse, x, hx, htitle, hfailed, ?_⟩
      rintro (hsucceeded | hgiven)
      · exact hnone study hstudy x hx hfailed hsucceeded
      · exact hkept hgiven
    · rintro ⟨study, hstudy, hcourse, x, hx, htitle, hfailed, hunsettled⟩
      exact ⟨study, hstudy, hcourse, x, hx, htitle, hfailed, fun hgiven => hunsettled (.inr hgiven)⟩

/-! ### A chapter that succeeds on its second attempt -/

/-- Everything a run does up to the only chapter of its only course. -/
def untilChapter : List Action :=
  [.work (.answer (.controlEvents true)), .work (.write 0), .work (.write 0),
    .work (.answer (.initChaoxing (.ok ()))), .work (.answer (.login (.ok ⟨true, "", ""⟩))), .work (.write 0),
    .work (.answer (.getCourseList (.ok [⟨"1", "2", "3", "A", ""⟩]))), .work (.write 0), .work (.write 0),
    .work (.answer (.stopIsSet false)), .work (.answer (.waitForResume true)), .work (.write 0), .work (.write 0),
    .work (.write 0), .work (.answer (.getCoursePoint (.ok [⟨"9", "T", false⟩]))), .work (.write 0)]

def onePayload : Payload := ⟨"u", "p", [], "1.5", 4, []⟩

def beforeLogin (payload : Payload) : State := ⟨runTaskWorker payload, "retry", [], []⟩

theorem start_beforeLogin (payload : Payload) : learningRun.start (beforeLogin payload) :=
  ⟨⟨payload, rfl⟩, rfl, rfl⟩

/-- The worker studies the course `A`, with its only chapter as it is here, after this many lines. -/
def studiesOne (chapter : Chapter) (lines : ℕ) (s : State) : Bool :=
  s.worker matches .run .. && s.studies = [⟨"A", [chapter]⟩] && s.notopenAction = "retry" && s.logs.length = lines

variable {chapter : Chapter} {lines : ℕ}

theorem studiesOne_iff : studiesOne chapter lines s = true ↔ Studying s.worker ∧
    s.studies = [⟨"A", [chapter]⟩] ∧ s.notopenAction = "retry" ∧ s.logs.length = lines := by
  cases hworker : s.worker <;> simp [studiesOne, Studying, hworker, and_assoc]

theorem exec_untilChapter :
    (learningRun.exec (beforeLogin onePayload) untilChapter).any (studiesOne { title := "T" } 4) = true := by
  decide +kernel

theorem legible_untilChapter : ∀ a ∈ untilChapter, ∀ s, Legible s a := by
  simp [untilChapter, Legible, Misleading]

theorem reachable_chapter : ∃ s, learningRun.Reachable Legible s ∧ studiesOne { title := "T" } 4 s = true := by
  have hexec := exec_untilChapter
  rw [Option.any_eq_true] at hexec
  obtain ⟨s, hexec, hthere⟩ := hexec
  have hrun := Machine.run_of_exec_of legible_untilChapter hexec
  exact ⟨s, ⟨_, start_beforeLogin onePayload, hrun⟩, hthere⟩

theorem chapter_zero (h : studiesOne chapter lines s = true) : s.chapter 0 = some chapter := by
  obtain ⟨⟨course, points, next, hworker⟩, hstudies, -⟩ := studiesOne_iff.mp h
  simp [State.chapter, hworker, hstudies]

theorem attempt_one (h : studiesOne chapter lines s = true) (hphase : chapter.phase = .waiting) (ending : Ending) :
    ∃ t, learningRun.step s (.attempt 0 ending) = some t ∧ studiesOne { chapter with
      task := JobProcessor.processTask chapter.task ending.attempt, phase := .attempted } lines t = true := by
  obtain ⟨hstudying, hstudies, hretry, hlogs⟩ := studiesOne_iff.mp h
  refine ⟨_, by simp [learningRun, LearningRun.step, attemptStep, chapter_zero h, hphase]; rfl, ?_⟩
  rw [studiesOne_iff, setChapter_eq hstudies]
  exact ⟨hstudying, rfl, hretry, hlogs⟩

theorem inScope_one (h : studiesOne chapter lines s = true) (htitle : chapter.title = "T") : InScope s := by
  obtain ⟨-, hstudies, -⟩ := studiesOne_iff.mp h
  intro study hstudy
  rw [hstudies, List.mem_singleton] at hstudy
  subst hstudy
  refine ⟨List.nodup_singleton _, ?_⟩
  intro other hother
  rw [List.mem_singleton.mp hother, htitle]
  exact ⟨by decide, by decide, by decide⟩

/-- The chapter after an attempt that failed. -/
def failedOnce : Chapter := ⟨"T", { result := .error, tries := 1 }, .waiting⟩

theorem decide_failed (h : studiesOne ⟨"T", { result := .error }, .attempted⟩ lines s = true)
    (hlines : lines < 1000) : Legible s (.decide 0 0) ∧
      ∃ t, learningRun.step s (.decide 0 0) = some t ∧ studiesOne failedOnce (lines + 1) t = true := by
  have hchapter := chapter_zero h
  obtain ⟨hstudying, hstudies, hretry, hlogs⟩ := studiesOne_iff.mp h
  constructor
  · intro study earlier chapter final hsame hhere _
    rw [hstudies] at hsame
    cases hsame
    cases hhere
    rw [hretry]
    refine ⟨by decide, by decide, fun _ => ?_, by simp⟩
    rintro ⟨run, -, hinside⟩
    exact absurd (List.eq_nil_of_infix_nil hinside) (List.cons_ne_nil _ _)
  · refine ⟨_, by simp only [learningRun, LearningRun.step, decideStep, hchapter, Option.bind_some, hretry]; rfl, ?_⟩
    rw [studiesOne_iff, append_worker, append_studies, length_append, setChapter_eq hstudies]
    refine ⟨hstudying, rfl, hretry, ?_⟩
    dsimp only
    omega

/-- A run up to the first failure of its only chapter. -/
theorem reachable_failed : ∃ s, learningRun.Reachable Legible s ∧ studiesOne failedOnce 5 s = true := by
  obtain ⟨s, hreach, hthere⟩ := reachable_chapter
  obtain ⟨t, hattempt, hattempted⟩ := attempt_one hthere rfl .error
  obtain ⟨hlegible, u, hdecide, hfailed⟩ := decide_failed hattempted (by decide)
  have hallowed : Legible s (.attempt 0 .error) := trivial
  have hreach := hreach.tail hallowed hattempt
  exact ⟨u, hreach.tail hlegible hdecide, hfailed⟩

theorem pendingIn_one (h : studiesOne chapter lines s = true) (htitle : chapter.title = "T")
    (hpending : chapter.Pending) : PendingIn s.studies "A" "T" := by
  obtain ⟨-, hstudies, -⟩ := studiesOne_iff.mp h
  have hcourse : trim "A" = "A" := by decide
  rw [hstudies]
  exact ⟨_, List.mem_singleton_self _, hcourse, chapter, List.mem_singleton_self _, htitle, hpending⟩

/-- After the first failure the page names the chapter. -/
theorem retrying_exact_failed : ∃ s, learningRun.Reachable Legible s ∧ InScope s ∧ s.logs.length < 1000 ∧
    RetryingExact s ∧ ("A", "T") ∈ names s := by
  obtain ⟨s, hreach, hthere⟩ := reachable_failed
  obtain ⟨-, hstudies, -, hlogs⟩ := studiesOne_iff.mp hthere
  have hscope := inScope_one hthere rfl
  have hfewer : s.logs.length < 1000 := by rw [hlogs]; decide
  have hunsucceeded : ∀ study ∈ s.studies, ∀ chapter ∈ study.chapters, chapter.Failed → ¬ chapter.Succeeded := by
    intro study hstudy other hother _
    rw [hstudies, List.mem_singleton] at hstudy
    subst hstudy
    rw [List.mem_singleton.mp hother]
    exact JobProcessor.ChapterResult.noConfusion
  have hnamed := (mem_names (known_of_reachable hreach hscope hfewer).2).mpr
    (pendingIn_one hthere rfl ⟨Nat.one_pos, Phase.noConfusion⟩)
  exact ⟨s, hreach, hscope, hfewer, (retrying_exact_iff hreach hscope hfewer).mpr hunsucceeded, hnamed⟩

/-- Nothing is written when a chapter succeeds after it has failed, so that the page goes on to name it. -/
theorem succeeded_still_named : ∃ s, learningRun.Reachable Machine.free s ∧ InScope s ∧
    (s.studies.map Study.label).Nodup ∧ s.logs.length < 1000 ∧ ¬ RetryingExact s := by
  obtain ⟨s, hreach, hthere⟩ := reachable_failed
  obtain ⟨t, hattempt, hsucceeded⟩ := attempt_one hthere rfl .success
  have hallowed : Legible s (.attempt 0 .success) := trivial
  have hreach := hreach.tail hallowed hattempt
  obtain ⟨-, hstudies, -, hlogs⟩ := studiesOne_iff.mp hsucceeded
  have hscope := inScope_one hsucceeded rfl
  have hfewer : t.logs.length < 1000 := by rw [hlogs]; decide
  refine ⟨t, hreach.free, hscope, by rw [hstudies]; decide, hfewer, fun hexact => ?_⟩
  have hnamed : ("A", "T") ∈ names t := (mem_names (known_of_reachable hreach hscope hfewer).2).mpr
    (pendingIn_one hsucceeded rfl ⟨Nat.one_pos, Phase.noConfusion⟩)
  obtain ⟨study, hstudy, -, chapter, hchapter, -, -, hunsettled⟩ := (hexact.exact _ _).mp hnamed
  rw [hstudies, List.mem_singleton] at hstudy
  subst hstudy
  rw [List.mem_singleton.mp hchapter] at hunsettled
  exact hunsettled (.inl rfl)

end UniversityHelper.LearningRun
