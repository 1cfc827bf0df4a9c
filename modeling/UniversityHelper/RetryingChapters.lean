import UniversityHelper.HeardCourse
import UniversityHelper.InlineRunner

/-! The page follows a run of a learning task whose lines it can tell apart: it is at the course that the
worker studies, and it shows the chapters that have failed and were not given up. -/
namespace UniversityHelper.LearningRun
open ChapterLog (chapterFailureLine shownError skippedDelimiter)
open JavaScript (OneLine trim trimChars)
open JobProcessor (ChapterTask maxTries)
open LearningWorker (Work courseLabel)
open TaskAdmission (Instant)
open TaskInsights
open TaskManager (LogLine learningRules)

/-! ### Chapters -/

/-- The titles of a course: distinct, not empty, on one line, and without the bracket. -/
structure Titled (study : Study) : Prop where
  distinct : (study.chapters.map Chapter.title).Nodup
  plain : ∀ chapter ∈ study.chapters, Plain chapter.title

def InScope (s : State) : Prop := ∀ study ∈ s.studies, Titled study

def Chapter.Pending (chapter : Chapter) : Prop := chapter.Failed ∧ ¬ chapter.GivenUp

def Study.Pending (study : Study) (title : String) : Prop :=
  ∃ chapter ∈ study.chapters, chapter.title = title ∧ chapter.Pending

/-- The course as the page names it. -/
def Study.course (study : Study) : String := trim study.label

def PendingIn (studies : List Study) (course title : String) : Prop :=
  ∃ study ∈ studies, study.course = course ∧ study.Pending title

/-- The keys tell the failed chapters of two courses apart. -/
def Apart (a b : Study) : Prop := ∀ x ∈ a.chapters, ∀ y ∈ b.chapters, x.Failed → y.Failed →
  key a.course x.title ≠ key b.course y.title

variable {s t : State} {study : Study} {earlier : List Study} {i : ℕ} {x x' y : Chapter} {course title : String}

instance : Std.Symm Apart where
  symm _ _ h z hz w hw hzfailed hwfailed hkey := h w hw z hz hwfailed hzfailed hkey.symm

theorem key_inj {title title' : String} (h : key course title = key course title') : title = title' := by
  have hlist := congrArg String.toList h
  simp only [key, String.toList_append] at hlist
  exact String.toList_inj.mp (List.append_cancel_left hlist)

theorem mem_set (distinct : (study.chapters.map Chapter.title).Nodup) (hx : study.chapters[i]? = some x) :
    y ∈ (study.set i x').chapters ↔ y = x' ∨ y ∈ study.chapters ∧ y.title ≠ x.title := by
  have hi : i < study.chapters.length := (List.getElem?_eq_some_iff.mp hx).1
  rw [Study.set, List.mem_iff_getElem?]
  constructor
  · rintro ⟨j, hj⟩
    by_cases hij : i = j
    · subst hij
      rw [List.getElem?_set_self hi, Option.some_inj] at hj
      exact .inl hj.symm
    · rw [List.getElem?_set_ne hij] at hj
      refine .inr ⟨List.mem_of_getElem? hj, fun hsame => hij ?_⟩
      refine (List.getElem?_inj (by rwa [List.length_map]) distinct).mp ?_
      rw [List.getElem?_map, List.getElem?_map, hx, hj, Option.map_some, Option.map_some, hsame]
  · rintro (rfl | ⟨hy, hother⟩)
    · exact ⟨i, List.getElem?_set_self hi⟩
    · obtain ⟨j, hj⟩ := List.mem_iff_getElem?.mp hy
      refine ⟨j, ?_⟩
      rwa [List.getElem?_set_ne]
      rintro rfl
      rw [hx, Option.some_inj] at hj
      exact hother (by rw [hj])

theorem titles_set (hx : study.chapters[i]? = some x) (hsame : x'.title = x.title) :
    (study.set i x').chapters.map Chapter.title = study.chapters.map Chapter.title := by
  have hi : i < study.chapters.length := (List.getElem?_eq_some_iff.mp hx).1
  rw [Study.set]
  refine List.ext_getElem? fun j => ?_
  rw [List.getElem?_map, List.getElem?_map]
  by_cases hij : i = j
  · subst hij
    rw [List.getElem?_set_self hi, hx, Option.map_some, Option.map_some, hsame]
  · rw [List.getElem?_set_ne hij]

theorem pending_set (distinct : (study.chapters.map Chapter.title).Nodup) (hx : study.chapters[i]? = some x)
    (hsame : x'.title = x.title) :
    (study.set i x').Pending title ↔ title = x.title ∧ x'.Pending ∨ title ≠ x.title ∧ study.Pending title := by
  simp only [Study.Pending, mem_set distinct hx]
  constructor
  · rintro ⟨y, rfl | ⟨hy, hother⟩, rfl, hpending⟩
    · exact .inl ⟨hsame, hpending⟩
    · exact .inr ⟨hother, y, hy, rfl, hpending⟩
  · rintro (⟨rfl, hpending⟩ | ⟨hother, y, hy, rfl, hpending⟩)
    · exact ⟨x', .inl rfl, hsame, hpending⟩
    · exact ⟨y, .inr ⟨hy, hother⟩, rfl, hpending⟩

theorem pendingIn_cons : PendingIn (study :: earlier) course title ↔
    study.course = course ∧ study.Pending title ∨ PendingIn earlier course title := by
  simp only [PendingIn, List.exists_mem_cons_iff]

/-- A chapter that is pending exactly if it was leaves the others as they are. -/
theorem pendingIn_same (distinct : (study.chapters.map Chapter.title).Nodup) (hx : study.chapters[i]? = some x)
    (hsame : x'.title = x.title) (hpending : x'.Pending ↔ x.Pending) :
    PendingIn (study.set i x' :: earlier) course title ↔ PendingIn (study :: earlier) course title := by
  have hstudy : (study.set i x').Pending title ↔ study.Pending title := by
    rw [pending_set distinct hx hsame, hpending]
    constructor
    · rintro (⟨rfl, h⟩ | ⟨-, h⟩)
      · exact ⟨x, List.mem_of_getElem? hx, rfl, h⟩
      · exact h
    · intro h
      by_cases htitle : title = x.title
      · obtain ⟨y, hy, hyx, hpending⟩ := h
        have heq : y = x := List.inj_on_of_nodup_map distinct hy (List.mem_of_getElem? hx) (hyx.trans htitle)
        exact .inl ⟨htitle, heq ▸ hpending⟩
      · exact .inr ⟨htitle, h⟩
  rw [pendingIn_cons, pendingIn_cons, hstudy]
  rfl

/-- A chapter whose key no failed chapter of an earlier course has alone decides about its key. -/
theorem pendingIn_set (distinct : (study.chapters.map Chapter.title).Nodup) (hx : study.chapters[i]? = some x)
    (hsame : x'.title = x.title) (hapart : ∀ other ∈ earlier, ∀ y ∈ other.chapters, y.Failed →
      key other.course y.title ≠ key study.course x.title) :
    PendingIn (study.set i x' :: earlier) course title ↔
      if key course title = key study.course x.title then
        course = study.course ∧ title = x.title ∧ x'.Pending
      else PendingIn (study :: earlier) course title := by
  rw [pendingIn_cons, pending_set distinct hx hsame]
  split_ifs with hkey
  · constructor
    · rintro (⟨rfl, ⟨rfl, hpending⟩ | ⟨hother, -⟩⟩ | ⟨other, hmem, rfl, y, hy, rfl, hpending⟩)
      · exact ⟨rfl, rfl, hpending⟩
      · exact absurd (key_inj hkey) hother
      · exact absurd hkey (hapart other hmem y hy hpending.1)
    · rintro ⟨rfl, rfl, hpending⟩
      exact .inl ⟨rfl, .inl ⟨rfl, hpending⟩⟩
  · rw [pendingIn_cons]
    have hstudy : study.course = course → title ≠ x.title := by
      rintro rfl rfl
      exact hkey rfl
    constructor
    · rintro (⟨hcourse, ⟨htitle, -⟩ | ⟨-, hpending⟩⟩ | h)
      · exact absurd htitle (hstudy hcourse)
      · exact .inl ⟨hcourse, hpending⟩
      · exact .inr h
    · rintro (⟨hcourse, hpending⟩ | h)
      · exact .inl ⟨hcourse, .inr ⟨hstudy hcourse, hpending⟩⟩
      · exact .inr h

/-! ### The page -/

def Shows (retrying : OrderedDict String Retrying) (course title : String) : Prop :=
  ∃ r, retrying.get (key course title) = some r ∧ r.course = course ∧ r.chapter = title

/-- The page is at the course that the worker studies. -/
structure AtCourse (heard : String) (worker : Work) (studies : List Study) : Prop where
  follows : Follows (!studies.isEmpty) heard worker
  current : ∀ course points next, worker = .run course points next →
    ∃ study earlier, studies = study :: earlier ∧ study.label = courseLabel course

/-- The page shows the chapters that are pending. -/
structure Tracks (retrying : OrderedDict String Retrying) (studies : List Study) : Prop where
  keyed : ∀ k r, retrying.get k = some r → k = key r.course r.chapter
  shows : ∀ course title, Shows retrying course title ↔ PendingIn studies course title
  apart : studies.Pairwise Apart
  sound : ∀ study ∈ studies, ∀ chapter ∈ study.chapters, chapter.GivenUp → ¬ chapter.Succeeded

variable {retrying : OrderedDict String Retrying} {studies : List Study} {heard message level : String}
  {worker next : Work} {now : Instant} {found : Collected} {r : Retrying}

theorem shows_set (hkey : r.course = study.course ∧ r.chapter = x.title) :
    Shows (retrying.set (key study.course x.title) r) course title ↔
      if key course title = key study.course x.title then course = study.course ∧ title = x.title
      else Shows retrying course title := by
  simp only [Shows, OrderedDict.get_set]
  split_ifs
  · rw [← hkey.1, ← hkey.2]
    constructor
    · rintro ⟨r', hr', rfl, rfl⟩
      cases hr'
      exact ⟨rfl, rfl⟩
    · rintro ⟨rfl, rfl⟩
      exact ⟨r, rfl, rfl, rfl⟩
  · rfl

theorem shows_erase {k : String} :
    Shows (retrying.erase k) course title ↔ key course title ≠ k ∧ Shows retrying course title := by
  simp only [Shows, OrderedDict.get_erase]
  split_ifs with hkey
  · simp [hkey]
  · simp [hkey]

/-! ### The worker's steps -/

theorem collectLine_harmless {studying : Bool} (h : Harmless studying message) :
    (collectLine found ⟨now, message, level⟩).course = hearing found.course message ∧
      ((collectLine found ⟨now, message, level⟩).retrying = found.retrying ∨
        studying = false ∧ ∃ k, (collectLine found ⟨now, message, level⟩).retrying = found.retrying.erase k) := by
  simp only [collectLine, hearing]
  cases hstarted : started (trim message) with
  | some course => exact ⟨rfl, .inl rfl⟩
  | none =>
    cases hentry : ChapterLog.parseChapterLog (trim message) with
    | none => exact ⟨rfl, .inl rfl⟩
    | some entry =>
      obtain ⟨hstudying, hkind⟩ := h entry hentry
      simp only [hkind]
      exact ⟨rfl, .inr ⟨hstudying, _, rfl⟩⟩

theorem Tracks.erase_of_nil {k : String} (h : Tracks retrying []) : Tracks (retrying.erase k) [] where
  keyed := by
    intro j r hr
    rw [OrderedDict.get_erase] at hr
    split_ifs at hr
    exact h.keyed j r hr
  shows := by
    intro course title
    rw [shows_erase, h.shows]
    simp [PendingIn]
  apart := .nil
  sound := h.sound

/-- The chapters of a course are new when it begins. -/
theorem Tracks.enter {label : String} {points : List LearningWorker.Point} (h : Tracks retrying studies) :
    Tracks retrying (⟨label, points.map fun point => { title := point.title }⟩ :: studies) := by
  have hnew : ∀ chapter : Chapter, chapter ∈ points.map (fun point => ({ title := point.title } : Chapter)) →
      ¬ chapter.Failed ∧ ¬ chapter.GivenUp := by
    intro chapter hchapter
    obtain ⟨point, -, rfl⟩ := List.mem_map.mp hchapter
    exact ⟨Nat.not_lt_zero 0, Phase.noConfusion⟩
  refine ⟨h.keyed, ?_, ?_, ?_⟩
  · intro course title
    rw [h.shows, pendingIn_cons, iff_or_self]
    rintro ⟨-, chapter, hchapter, -, hpending⟩
    exact absurd hpending.1 (hnew chapter hchapter).1
  · refine List.pairwise_cons.mpr ⟨?_, h.apart⟩
    intro other _ x hx _ _ hfailed
    exact absurd hfailed (hnew x hx).1
  · intro study hstudy
    rcases List.mem_cons.mp hstudy with rfl | hold
    · intro chapter hchapter hgiven
      exact absurd hgiven (hnew chapter hchapter).2
    · exact h.sound study hold

theorem moveTo_of_not_studying (h : ¬ Studying next) : s.moveTo next = { s with worker := next } := by
  cases next with
  | run course points rest => exact absurd ⟨course, points, rest, rfl⟩ h
  | _ => rfl

theorem AtCourse.moveTo (h : Follows (!s.studies.isEmpty) heard next) :
    AtCourse heard (s.moveTo next).worker (s.moveTo next).studies := by
  by_cases hstudying : Studying next
  · obtain ⟨course, points, rest, rfl⟩ := hstudying
    refine ⟨h, ?_⟩
    intro course' points' rest' heq
    cases heq
    exact ⟨_, _, rfl, rfl⟩
  · rw [moveTo_of_not_studying hstudying]
    exact ⟨h, fun course points rest heq => absurd ⟨course, points, rest, heq⟩ hstudying⟩

theorem Tracks.moveTo (h : Tracks retrying s.studies) : Tracks retrying (s.moveTo next).studies := by
  by_cases hstudying : Studying next
  · obtain ⟨course, points, rest, rfl⟩ := hstudying
    exact h.enter
  · rw [moveTo_of_not_studying hstudying]
    exact h

theorem InScope.of_moveTo (h : InScope (s.moveTo next)) : InScope s := by
  by_cases hstudying : Studying next
  · obtain ⟨course, points, rest, rfl⟩ := hstudying
    exact fun study hstudy => h study (List.mem_cons_of_mem _ hstudy)
  · rw [moveTo_of_not_studying hstudying] at h
    exact h

theorem moveTo_logs : (s.moveTo next).logs = s.logs := by
  by_cases hstudying : Studying next
  · obtain ⟨course, points, rest, rfl⟩ := hstudying
    rfl
  · rw [moveTo_of_not_studying hstudying]

/-- What an input does to the worker: it waits, it moves on without a line, or it writes its line. -/
inductive Moved (s : State) (input : LogTail.LearningInput) (t : State) : Prop
  | waited (same : t = s)
  | moved (next : Work) (moves : t = s.moveTo next)
      (follows : ∀ studying heard, Follows studying heard s.worker → (Studying s.worker → studying = true) →
        (∀ result, input = .answer (.login result) → ¬ Misleading result) → Follows studying heard next)
  | written (message level : String) (now : Instant) (next : Work)
      (line : s.worker = .appendTaskLog message level next)
      (moves : t = (s.append now (message, level)).moveTo next)

theorem workStep_moved {input : LogTail.LearningInput} (taken : workStep s input = some t) :
    Moved s input t := by
  cases input with
  | chapterFailed title reason hint final now => cases taken
  | wait =>
    simp only [workStep, Option.map_eq_some_iff] at taken
    obtain ⟨⟨next, write⟩, hstep, rfl⟩ := taken
    refine .waited ?_
    cases hworker : s.worker with
    | waitForResume rest =>
      simp only [hworker, LogTail.learningStep, Option.some.injEq, Prod.mk.injEq] at hstep
      obtain ⟨rfl, rfl⟩ := hstep
      rw [← hworker]
      rfl
    | run course points rest =>
      simp only [hworker, LogTail.learningStep, Option.some.injEq, Prod.mk.injEq] at hstep
      obtain ⟨rfl, rfl⟩ := hstep
      rw [← hworker]
      rfl
    | _ => simp [hworker, LogTail.learningStep] at hstep
  | answer answer =>
    simp only [workStep, LogTail.learningStep, Option.map_map, Option.map_eq_some_iff] at taken
    obtain ⟨next, hanswer, rfl⟩ := taken
    refine .moved next rfl fun studying heard hfollows hstudying hworded => ?_
    exact hfollows.answer hanswer hstudying fun result hresult => hworded result (by rw [hresult])
  | raise exception =>
    simp only [workStep, Option.map_eq_some_iff] at taken
    obtain ⟨⟨next, write⟩, hstep, rfl⟩ := taken
    simp only [LogTail.learningStep] at hstep
    split_ifs at hstep
    cases hstep
    exact .moved _ rfl fun _ _ _ _ _ => follows_failureWork exception
  | write now =>
    simp only [workStep, Option.map_eq_some_iff] at taken
    obtain ⟨⟨next, write⟩, hstep, rfl⟩ := taken
    cases hworker : s.worker with
    | appendTaskLog message level rest =>
      simp only [hworker, LogTail.learningStep, Option.some.injEq, Prod.mk.injEq] at hstep
      obtain ⟨rfl, rfl⟩ := hstep
      exact .written message level now _ hworker rfl
    | updateTask changes rest =>
      simp only [hworker, LogTail.learningStep, Option.some.injEq, Prod.mk.injEq] at hstep
      obtain ⟨rfl, rfl⟩ := hstep
      have hsame : s.write (changes.status.map .status) = s := by cases changes.status <;> rfl
      exact .moved _ (by rw [hsame]) fun _ _ hfollows _ _ => by rwa [hworker] at hfollows
    | updateProgress updates rest =>
      simp only [hworker, LogTail.learningStep, Option.some.injEq, Prod.mk.injEq] at hstep
      obtain ⟨rfl, rfl⟩ := hstep
      exact .moved _ rfl fun _ _ hfollows _ _ => by rwa [hworker] at hfollows
    | increaseProgress key delta rest =>
      simp only [hworker, LogTail.learningStep, Option.some.injEq, Prod.mk.injEq] at hstep
      obtain ⟨rfl, rfl⟩ := hstep
      exact .moved _ rfl fun _ _ hfollows _ _ => by rwa [hworker] at hfollows
    | notify summary rest =>
      simp only [hworker, LogTail.learningStep, Option.some.injEq, Prod.mk.injEq] at hstep
      obtain ⟨rfl, rfl⟩ := hstep
      exact .moved _ rfl fun _ _ hfollows _ _ => by rwa [hworker] at hfollows
    | _ => simp [hworker, LogTail.learningStep] at hstep

/-! ### The chapters' steps -/

theorem chapter_eq_some (h : s.chapter i = some x) : Studying s.worker ∧
    ∃ study earlier, s.studies = study :: earlier ∧ study.chapters[i]? = some x := by
  unfold State.chapter at h
  split at h
  · rename_i course points next study earlier hworker hstudies
    exact ⟨⟨course, points, next, hworker⟩, study, earlier, hstudies, h⟩
  · cases h

theorem setChapter_eq (hstudies : s.studies = study :: earlier) (i : ℕ) (x' : Chapter) :
    s.setChapter i x' = { s with studies := study.set i x' :: earlier } := by
  rw [State.setChapter, hstudies]

theorem titled_set (hx : study.chapters[i]? = some x) (hsame : x'.title = x.title) (h : Titled (study.set i x')) :
    Titled study := by
  have htitles := titles_set hx hsame
  refine ⟨by rw [← htitles]; exact h.distinct, ?_⟩
  intro y hy
  have hmem : y.title ∈ (study.set i x').chapters.map Chapter.title := by
    rw [htitles]
    exact List.mem_map_of_mem hy
  obtain ⟨z, hz, heq⟩ := List.mem_map.mp hmem
  rw [← heq]
  exact h.plain z hz

theorem apart_set (h : (study :: earlier).Pairwise Apart) (distinct : (study.chapters.map Chapter.title).Nodup)
    (hx : study.chapters[i]? = some x) (hsame : x'.title = x.title) (hnew : x'.Failed → ∀ other ∈ earlier,
      ∀ y ∈ other.chapters, y.Failed → key other.course y.title ≠ key study.course x.title) :
    (study.set i x' :: earlier).Pairwise Apart := by
  obtain ⟨hhead, htail⟩ := List.pairwise_cons.mp h
  refine List.pairwise_cons.mpr ⟨?_, htail⟩
  intro other hother z hz y hy hzfailed hyfailed
  rcases (mem_set distinct hx).mp hz with rfl | ⟨hold, -⟩
  · rw [hsame]
    exact (hnew hzfailed other hother y hy hyfailed).symm
  · exact hhead other hother z hold y hy hzfailed hyfailed

theorem sound_set (h : ∀ other ∈ study :: earlier, ∀ chapter ∈ other.chapters, chapter.GivenUp → ¬ chapter.Succeeded)
    (distinct : (study.chapters.map Chapter.title).Nodup) (hx : study.chapters[i]? = some x)
    (hnew : x'.GivenUp → ¬ x'.Succeeded) :
    ∀ other ∈ study.set i x' :: earlier, ∀ chapter ∈ other.chapters, chapter.GivenUp → ¬ chapter.Succeeded := by
  intro other hother y hy
  rcases List.mem_cons.mp hother with rfl | hother
  · rcases (mem_set distinct hx).mp hy with rfl | ⟨hold, -⟩
    · exact hnew
    · exact h study List.mem_cons_self y hold
  · exact h other (List.mem_cons_of_mem _ hother) y hy

/-- Nothing is written about the chapter. -/
theorem Tracks.set_silent (h : Tracks retrying (study :: earlier))
    (distinct : (study.chapters.map Chapter.title).Nodup) (hx : study.chapters[i]? = some x)
    (hsame : x'.title = x.title) (hfailed : x'.Failed ↔ x.Failed) (hkept : ¬ x.GivenUp) (hgiven : ¬ x'.GivenUp) :
    Tracks retrying (study.set i x' :: earlier) where
  keyed := h.keyed
  shows := by
    intro course title
    have hpending : x'.Pending ↔ x.Pending := by
      rw [Chapter.Pending, Chapter.Pending, hfailed, and_iff_left hkept, and_iff_left hgiven]
    rw [h.shows, pendingIn_same distinct hx hsame hpending]
  apart := by
    refine apart_set h.apart distinct hx hsame ?_
    intro hnew other hother y hy hyfailed hkey
    have hhead := (List.pairwise_cons.mp h.apart).1 other hother
    exact hhead x (List.mem_of_getElem? hx) y hy (hfailed.mp hnew) hyfailed hkey.symm
  sound := sound_set h.sound distinct hx fun hnew => absurd hnew hgiven

/-- The line about a first failure is written. -/
theorem Tracks.set_failed (h : Tracks retrying (study :: earlier))
    (distinct : (study.chapters.map Chapter.title).Nodup) (hx : study.chapters[i]? = some x)
    (hsame : x'.title = x.title) (hpending : x'.Pending)
    (hapart : ∀ other ∈ earlier, ∀ y ∈ other.chapters, y.Failed →
      key other.course y.title ≠ key study.course x.title)
    (hshown : r.course = study.course ∧ r.chapter = x.title) :
    Tracks (retrying.set (key study.course x.title) r) (study.set i x' :: earlier) where
  keyed := by
    intro k r' hr'
    rw [OrderedDict.get_set] at hr'
    split_ifs at hr' with hk
    · cases hr'
      rw [hk, hshown.1, hshown.2]
    · exact h.keyed k r' hr'
  shows := by
    intro course title
    rw [shows_set hshown, pendingIn_set distinct hx hsame hapart, h.shows, and_iff_left hpending]
  apart := apart_set h.apart distinct hx hsame fun _ => hapart
  sound := sound_set h.sound distinct hx fun hnew => absurd hnew hpending.2

/-- The line about a chapter that is given up is written. -/
theorem Tracks.set_givenUp (h : Tracks retrying (study :: earlier))
    (distinct : (study.chapters.map Chapter.title).Nodup) (hx : study.chapters[i]? = some x)
    (hsame : x'.title = x.title) (hgiven : x'.GivenUp) (hresult : ¬ x'.Succeeded)
    (hapart : ∀ other ∈ earlier, ∀ y ∈ other.chapters, y.Failed →
      key other.course y.title ≠ key study.course x.title) :
    Tracks (retrying.erase (key study.course x.title)) (study.set i x' :: earlier) where
  keyed := by
    intro k r' hr'
    rw [OrderedDict.get_erase] at hr'
    split_ifs at hr'
    exact h.keyed k r' hr'
  shows := by
    intro course title
    rw [shows_erase, pendingIn_set distinct hx hsame hapart, h.shows]
    have hpending : ¬ x'.Pending := fun hpending => hpending.2 hgiven
    split_ifs with hkey
    · simp [hkey, hpending]
    · simp [hkey]
  apart := apart_set h.apart distinct hx hsame fun _ => hapart
  sound := sound_set h.sound distinct hx fun _ => hresult

/-! ### Decisions -/

variable {notopenAction : String} {task : ChapterTask}

theorem afterAttempt_settle (h : (afterAttempt notopenAction task).2 = .settle) :
    (afterAttempt notopenAction task).1 = task := by
  have hcount : (JobProcessor.countFailure task).2 ≠ .settle := by
    unfold JobProcessor.countFailure
    dsimp only
    split_ifs <;> simp
  unfold afterAttempt at h ⊢
  split at h
  · rfl
  · split_ifs at h ⊢ with hcontinue
    · rfl
    · exact absurd h hcount
  · exact absurd h hcount
  · rfl

theorem afterAttempt_retry {report : Bool} (h : (afterAttempt notopenAction task).2 = .retry report) :
    (afterAttempt notopenAction task).1.tries = task.tries + 1 ∧ (report = true ↔ task.tries = 0) := by
  have hcount : ∀ {task : ChapterTask}, (JobProcessor.countFailure task).2 = .retry report →
      (JobProcessor.countFailure task).1.tries = task.tries + 1 ∧ (report = true ↔ task.tries = 0) := by
    intro task h
    obtain ⟨htask, -, hreport⟩ := JobProcessor.countFailure_retry h
    exact ⟨by rw [htask], hreport⟩
  unfold afterAttempt at h ⊢
  split at h
  · cases h
  · split_ifs at h ⊢ with hcontinue
    exact hcount h
  · exact hcount h
  · cases h

theorem afterAttempt_giveUp (h : (afterAttempt notopenAction task).2 = .giveUp) :
    (afterAttempt notopenAction task).1.result ≠ .success := by
  have hcount : ∀ {task : ChapterTask}, (JobProcessor.countFailure task).2 = .giveUp →
      (JobProcessor.countFailure task).1.result = task.result := by
    intro task h
    rw [(JobProcessor.countFailure_giveUp h).1]
  unfold afterAttempt at h ⊢
  split at h
  · cases h
  · rename_i hresult
    split_ifs at h ⊢ with hcontinue
    rw [hcount h, hresult]
    exact JobProcessor.ChapterResult.noConfusion
  · rename_i hresult
    rw [hcount h, hresult]
    exact JobProcessor.ChapterResult.noConfusion
  · rename_i hresult
    rw [hresult]
    exact JobProcessor.ChapterResult.noConfusion

/-- The line about a chapter says which chapter it is about, and no failed chapter of an earlier course
has its key. -/
structure LegibleReport (study : Study) (earlier : List Study) (title : String) (task : ChapterTask)
    (final : Bool) : Prop where
  name : OneLine (trimChars study.label.toList)
  error : OneLine (shownError task)
  unlike : final = false → ¬ skippedDelimiter.OccursIn (shownError task)
  apart : ∀ other ∈ earlier, ∀ chapter ∈ other.chapters, chapter.Failed →
    key other.course chapter.title ≠ key study.course title

/-- The lines that a step writes can be told apart. -/
def Legible (s : State) : Action → Prop
  | .work (.answer (.login result)) => ¬ Misleading result
  | .decide i _ => ∀ study earlier chapter final, s.studies = study :: earlier →
    study.chapters[i]? = some chapter →
    reported (afterAttempt s.notopenAction chapter.task).2 = some final →
    LegibleReport study earlier chapter.title (afterAttempt s.notopenAction chapter.task).1 final
  | _ => True

/-! ### The run -/

/-- While nothing has dropped out of the log, the page is at the right course and shows the chapters
that are pending. -/
def Known (s : State) : Prop := InScope s → s.logs.length < 1000 →
  AtCourse (collect s.logs).course s.worker s.studies ∧ Tracks (collect s.logs).retrying s.studies

theorem collect_append (logs : List LogLine) (line : LogLine) :
    collect (logs ++ [line]) = collectLine (collect logs) line := by
  simp only [collect, List.foldl_append, List.foldl_cons, List.foldl_nil]

theorem length_append {line : String × String} :
    (s.append now line).logs.length = min (s.logs.length + 1) 1000 := by
  have hlimit : learningRules.logLimit = 1000 := rfl
  simp only [State.append, keepLast, hlimit, List.length_drop, List.length_append, List.length_singleton]
  omega

theorem append_logs {line : String × String} (h : (s.append now line).logs.length < 1000) :
    s.logs.length < 1000 ∧ (s.append now line).logs = s.logs ++ [⟨now, line.1, line.2⟩] := by
  rw [length_append] at h
  have hless : s.logs.length < 1000 := by omega
  have hlimit : learningRules.logLimit = 1000 := rfl
  have hkept : (s.logs ++ [(⟨now, line.1, line.2⟩ : LogLine)]).length - 1000 = 0 := by
    rw [List.length_append, List.length_singleton]
    omega
  rw [State.append, keepLast, hlimit, hkept, List.drop_zero]
  exact ⟨hless, rfl⟩

theorem append_studies {line : String × String} : (s.append now line).studies = s.studies := by
  rw [State.append]

theorem append_worker {line : String × String} : (s.append now line).worker = s.worker := by
  rw [State.append]

theorem Known.append_quiet {line : String × String} (h : Known s) (hquiet : Quiet line.1) :
    Known (s.append now line) := by
  intro hscope hfewer
  obtain ⟨hless, hlogs⟩ := append_logs hfewer
  rw [InScope, append_studies] at hscope
  rw [hlogs, append_studies, append_worker, collect_append, collectLine_quiet hquiet]
  exact h hscope hless

theorem request_quiet (request : Request) : Quiet request.line.1 := by
  have hpaused : HasLead "Task paused" := hasLead_of (by decide)
  have hresumed : HasLead "Task resumed" := hasLead_of (by decide)
  have hrequested : HasLead "Task cancellation requested" := hasLead_of (by decide)
  cases request with
  | pause => exact hpaused.quiet
  | resume => exact hresumed.quiet
  | stop => exact hrequested.quiet

theorem notification_quiet (notification : Notification) : Quiet notification.line.1 := by
  have hunsupported : HasLead "Notification skipped: unsupported service" := hasLead_of (by decide)
  have hunvalidated : HasLead "Notification skipped: URL validation failed" := hasLead_of (by decide)
  have hrefused : HasLead "Notification skipped: URL must be a public http(s) address" := hasLead_of (by decide)
  have hsent : HasLead "Notification sent via " := hasLead_of (by decide)
  have hfailed : HasLead "Notification failed (" := hasLead_of (by decide)
  cases notification with
  | unsupported => exact hunsupported.quiet
  | unvalidated => exact hunvalidated.quiet
  | refused => exact hrefused.quiet
  | sent service => exact (hsent.append service).quiet
  | failed failureType => exact ((hfailed.append failureType).append ")").quiet

theorem Known.moveTo (h : Known s) (hfollows : ∀ heard, AtCourse heard s.worker s.studies →
    Follows (!s.studies.isEmpty) heard next) : Known (s.moveTo next) := by
  intro hscope hfewer
  rw [moveTo_logs] at hfewer ⊢
  obtain ⟨hcourse, htracks⟩ := h hscope.of_moveTo hfewer
  exact ⟨.moveTo (hfollows _ hcourse), htracks.moveTo⟩

theorem Known.written {rest : Work} (h : Known s) (hworker : s.worker = .appendTaskLog message level rest) :
    Known ((s.append now (message, level)).moveTo rest) := by
  intro hscope hfewer
  rw [moveTo_logs] at hfewer ⊢
  obtain ⟨hless, hlogs⟩ := append_logs hfewer
  have hbefore := hscope.of_moveTo
  rw [InScope, append_studies] at hbefore
  obtain ⟨hcourse, htracks⟩ := h hbefore hless
  have hfollows := hcourse.follows
  rw [hworker] at hfollows
  obtain ⟨hharmless, hrest⟩ := hfollows
  have hline : (collectLine (collect s.logs) ⟨now, message, level⟩).course =
      hearing (collect s.logs).course message ∧ _ := collectLine_harmless hharmless
  rw [hlogs, collect_append]
  refine ⟨.moveTo ?_, .moveTo ?_⟩
  · rw [append_studies, hline.1]
    exact hrest
  · rw [append_studies]
    rcases hline.2 with hsame | ⟨hnone, k, herased⟩
    · rw [hsame]
      exact htracks
    · -- no course has begun, so that no chapter is shown
      have hempty : s.studies = [] := by simpa using hnone
      rw [hempty] at htracks ⊢
      rw [herased]
      exact htracks.erase_of_nil

theorem AtCourse.set (h : AtCourse heard worker (study :: earlier)) :
    AtCourse heard worker (study.set i x' :: earlier) where
  follows := h.follows
  current := by
    intro course points next hworker
    obtain ⟨first, rest, hstudies, hlabel⟩ := h.current course points next hworker
    cases hstudies
    exact ⟨_, _, rfl, hlabel⟩

theorem AtCourse.course_eq (h : AtCourse heard worker (study :: earlier)) (hstudying : Studying worker)
    (hname : OneLine (trimChars study.label.toList)) : heard = study.course := by
  obtain ⟨course, points, next, hworker⟩ := hstudying
  obtain ⟨first, rest, hstudies, hlabel⟩ := h.current course points next hworker
  cases hstudies
  have hfollows := h.follows
  rw [hworker] at hfollows
  rw [hlabel] at hname
  rw [Study.course, hlabel]
  exact hfollows.1 hname

theorem InScope.of_setChapter (hstudies : s.studies = study :: earlier) (hx : study.chapters[i]? = some x)
    (hsame : x'.title = x.title) (h : InScope (s.setChapter i x')) : InScope s := by
  rw [InScope, setChapter_eq hstudies] at h
  intro other hother
  rw [hstudies] at hother
  rcases List.mem_cons.mp hother with rfl | hold
  · exact titled_set hx hsame (h _ List.mem_cons_self)
  · exact h other (List.mem_cons_of_mem _ hold)

/-- A chapter is attempted, or a decision is not reported. -/
theorem Known.silent (h : Known s) (hx : s.chapter i = some x) (hsame : x'.title = x.title)
    (hfailed : x'.Failed ↔ x.Failed) (hkept : ¬ x.GivenUp) (hgiven : ¬ x'.GivenUp) :
    Known (s.setChapter i x') := by
  obtain ⟨-, study, earlier, hstudies, hx⟩ := chapter_eq_some hx
  intro hscope hfewer
  have hbefore := hscope.of_setChapter hstudies hx hsame
  rw [setChapter_eq hstudies] at hfewer ⊢
  obtain ⟨hcourse, htracks⟩ := h hbefore hfewer
  rw [hstudies] at hcourse htracks
  have htitled : Titled study := hbefore study (by rw [hstudies]; exact List.mem_cons_self)
  exact ⟨hcourse.set, htracks.set_silent htitled.distinct hx hsame hfailed hkept hgiven⟩

/-- A decision is reported. -/
theorem Known.told {final : Bool} (h : Known s) (hx : s.chapter i = some x) (hsame : x'.title = x.title)
    (hlegible : ∀ study earlier, s.studies = study :: earlier → study.chapters[i]? = some x →
      LegibleReport study earlier x.title x'.task final)
    (hfirst : final = false → x'.Pending) (hlast : final = true → x'.GivenUp ∧ ¬ x'.Succeeded) :
    Known ((s.setChapter i x').append now (chapterFailureLine x.title x'.task final maxTries, level)) := by
  obtain ⟨hstudying, study, earlier, hstudies, hx⟩ := chapter_eq_some hx
  have hreport := hlegible study earlier hstudies hx
  intro hscope hfewer
  obtain ⟨hless, hlogs⟩ := append_logs hfewer
  rw [InScope, append_studies] at hscope
  have hbefore : InScope s := InScope.of_setChapter hstudies hx hsame hscope
  rw [setChapter_eq hstudies] at hless
  obtain ⟨hcourse, htracks⟩ := h hbefore hless
  rw [hstudies] at hcourse htracks
  have htitled : Titled study := hbefore study (by rw [hstudies]; exact List.mem_cons_self)
  have hplain := htitled.plain x (List.mem_of_getElem? hx)
  have hheard := hcourse.course_eq hstudying hreport.name
  have hset : AtCourse study.course s.worker (study.set i x' :: earlier) := by
    rw [← hheard]
    exact hcourse.set
  rw [hlogs, collect_append, append_studies, append_worker, setChapter_eq hstudies]
  cases final with
  | false =>
    have hreads : Reads (chapterFailureLine x.title x'.task false maxTries) .retrying x.title :=
      retryLine_reads hplain hreport.error (hreport.unlike rfl) maxTries
    obtain ⟨reason, tries, hline⟩ := collectLine_retrying hreads
    rw [hline, hheard]
    exact ⟨hset, htracks.set_failed htitled.distinct hx hsame (hfirst rfl) hreport.apart ⟨rfl, rfl⟩⟩
  | true =>
    have hreads : Reads (chapterFailureLine x.title x'.task true maxTries) .skipped x.title :=
      skippedLine_reads hplain hreport.error maxTries
    rw [collectLine_skipped hreads, hheard]
    obtain ⟨hgiven, hresult⟩ := hlast rfl
    exact ⟨hset, htracks.set_givenUp htitled.distinct hx hsame hgiven hresult hreport.apart⟩

theorem Known.attempt {ending : Ending} (h : Known s) (taken : attemptStep s i ending = some t) : Known t := by
  obtain ⟨x, hx, hattempt⟩ := Option.bind_eq_some_iff.mp taken
  split_ifs at hattempt with hphase
  cases hattempt
  have hkept : ¬ x.GivenUp := by simp [Chapter.GivenUp, hphase]
  have htries : (JobProcessor.processTask x.task ending.attempt).tries = x.task.tries := by
    cases ending <;> rfl
  refine h.silent hx rfl ?_ hkept Phase.noConfusion
  rw [Chapter.Failed, Chapter.Failed, htries]

/-- A decision about a chapter, and whether it is told. -/
inductive Decided (s : State) (i : ℕ) (now : Instant) (t : State) : Prop
  | silent (x : Chapter) (here : s.chapter i = some x) (phase : x.phase = .attempted)
      (decision : reported (afterAttempt s.notopenAction x.task).2 = none)
      (moves : t = s.setChapter i ⟨x.title, (afterAttempt s.notopenAction x.task).1,
        .after (afterAttempt s.notopenAction x.task).2⟩)
  | told (x : Chapter) (final : Bool) (level : String) (here : s.chapter i = some x)
      (phase : x.phase = .attempted)
      (decision : reported (afterAttempt s.notopenAction x.task).2 = some final)
      (moves : t = (s.setChapter i ⟨x.title, (afterAttempt s.notopenAction x.task).1,
        .after (afterAttempt s.notopenAction x.task).2⟩).append now
          (chapterFailureLine x.title (afterAttempt s.notopenAction x.task).1 final maxTries, level))

theorem decideStep_decided (taken : decideStep s i now = some t) : Decided s i now t := by
  obtain ⟨x, hx, hdecide⟩ := Option.bind_eq_some_iff.mp taken
  dsimp only at hdecide
  split_ifs at hdecide with hphase
  split at hdecide
  · rename_i hdecision
    cases hdecide
    exact .silent x hx hphase hdecision rfl
  · rename_i final hdecision
    cases hdecide
    exact .told x final _ hx hphase hdecision rfl

theorem Known.decide (h : Known s) (hlegible : Legible s (.decide i now)) (taken : decideStep s i now = some t) :
    Known t := by
  cases decideStep_decided taken with
  | silent x hx hphase hdecision moves =>
    rw [moves]
    have hkept : ¬ x.GivenUp := by simp [Chapter.GivenUp, hphase]
    cases hwhat : (afterAttempt s.notopenAction x.task).2 with
    | settle =>
      refine h.silent hx rfl ?_ hkept Phase.noConfusion
      rw [Chapter.Failed, Chapter.Failed, afterAttempt_settle hwhat]
    | giveUp => simp [hwhat, reported] at hdecision
    | retry report =>
      obtain ⟨htries, hreport⟩ := afterAttempt_retry hwhat
      refine h.silent hx rfl ?_ hkept Phase.noConfusion
      have hagain : x.task.tries ≠ 0 := by simpa [hwhat, reported, hreport] using hdecision
      rw [Chapter.Failed, Chapter.Failed, htries]
      omega
  | told x final level hx hphase hdecision moves =>
    rw [moves]
    refine h.told hx rfl (fun study earlier hstudies hhere => hlegible study earlier x final hstudies hhere hdecision) ?_ ?_
    · rintro rfl
      cases hwhat : (afterAttempt s.notopenAction x.task).2 with
      | settle => simp [hwhat, reported] at hdecision
      | giveUp => simp [hwhat, reported] at hdecision
      | retry report =>
        refine ⟨?_, Phase.noConfusion⟩
        rw [Chapter.Failed, (afterAttempt_retry hwhat).1]
        exact Nat.succ_pos _
    · rintro rfl
      cases hwhat : (afterAttempt s.notopenAction x.task).2 with
      | settle => simp [hwhat, reported] at hdecision
      | giveUp => exact ⟨rfl, afterAttempt_giveUp hwhat⟩
      | retry report => simp [hwhat, reported] at hdecision

theorem Known.work {input : LogTail.LearningInput} (h : Known s) (hlegible : Legible s (.work input))
    (taken : workStep s input = some t) : Known t := by
  cases workStep_moved taken with
  | waited same => rwa [same]
  | moved next moves follows =>
    rw [moves]
    refine h.moveTo fun heard hcourse => follows _ _ hcourse.follows ?_ ?_
    · rintro ⟨course, points, rest, hworker⟩
      obtain ⟨study, earlier, hstudies, -⟩ := hcourse.current course points rest hworker
      simp [hstudies]
    · rintro result rfl
      exact hlegible
  | written message level now next line moves =>
    rw [moves]
    exact h.written line

theorem Known.step {a : Action} (h : Known s) (hlegible : Legible s a) (taken : learningRun.step s a = some t) :
    Known t := by
  cases a with
  | work input => exact h.work hlegible taken
  | attempt i ending => exact h.attempt taken
  | decide i now => exact h.decide hlegible taken
  | request request now =>
    cases taken
    exact h.append_quiet (request_quiet request)
  | notified notification now =>
    cases hworker : s.worker with
    | notify summary rest =>
      simp only [learningRun, LearningRun.step, hworker] at taken
      cases taken
      refine (h.append_quiet (notification_quiet notification)).moveTo fun heard hcourse => ?_
      have hfollows := hcourse.follows
      rw [append_worker, hworker] at hfollows
      exact hfollows
    | _ => simp [learningRun, LearningRun.step, hworker] at taken

theorem known_of_reachable (h : learningRun.Reachable Legible s) : Known s := by
  refine h.invariant ?_ fun s a t hknown hlegible taken => hknown.step hlegible taken
  rintro s ⟨⟨payload, hworker⟩, hstudies, hlogs⟩ - -
  rw [hworker, hstudies, hlogs]
  refine ⟨⟨follows_runTaskWorker payload, ?_⟩, ⟨?_, ?_, .nil, ?_⟩⟩
  · intro course points next hrun
    unfold LearningWorker.runTaskWorker at hrun
    split_ifs at hrun
    cases hrun
  · intro k r hr
    cases hr
  · intro course title
    simp [Shows, PendingIn, collect]
  · intro study hstudy
    cases hstudy

end UniversityHelper.LearningRun
