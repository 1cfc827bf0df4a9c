import UniversityHelper.ChapterCall

/-! When one call of `process_chapter` runs every job at most once, and what it then returns and
reports. -/
namespace UniversityHelper.ChapterCall
open VideoStudy (StudyResult)

/-- Nothing asks the call to stop. -/
def Unstopped (_ : Call) : Action → Prop
  | .list stop => stop = false
  | .inline stop => stop = false
  | .wait stop _ => stop = false
  | _ => True

/-- Nothing asks the call to stop, and a start of a thread fails only while the pool has none. -/
def Allowed (s : Call) : Action → Prop
  | .submit fails => fails = true → s.threads = 0
  | .list stop => stop = false
  | .inline stop => stop = false
  | .wait stop _ => stop = false
  | _ => True

variable {n : ℕ} {s t : Call} {a : Action}

def AllDone (n : ℕ) (s : Call) : Prop := ∀ job < n, job ∈ s.succeeded

/-- A job did not succeed, and no thread is left that could still run it. -/
def Lost (n : ℕ) (s : Call) : Prop :=
  ∃ job < n, job ∉ s.succeeded ∧ (s.threads = 0 ∨ ∃ outcome, s.future job = .finished outcome)

/-- What holds at the place of the calling thread. -/
def Place (n : ℕ) (s : Call) : Prop :=
  match s.phase with
  | .starting => s.fellBack = false ∧ ∀ job, s.future job = .unsubmitted
  | .listing => s.fellBack = false ∧ ∀ job, s.future job = .unsubmitted
  | .submitting next => next ≤ n ∧ s.fellBack = false ∧ (∀ job < next, job ∈ s.pending) ∧
      ∀ job, next ≤ job → s.future job = .unsubmitted
  | .falling _ => s.fellBack = true ∧ s.started = [] ∧ s.succeeded = []
  | .inlining next => s.fellBack = true ∧ next ≤ n ∧ s.started = List.range next ∧
      s.succeeded = List.range next
  | .running job => s.fellBack = true ∧ job < n ∧ s.started = List.range (job + 1) ∧
      s.succeeded = List.range job
  | .waiting => (s.fellBack = true → s.pending = ∅) ∧ ∀ job < n, job ∈ s.pending ∨ job ∈ s.succeeded
  | .collecting done => s.fellBack = false ∧
      ∀ job < n, job ∈ s.pending ∨ job ∈ done ∨ job ∈ s.succeeded
  | .leaving result _ => s.fellBack = false ∧ result ≠ .success ∧ Lost n s
  | .draining none => AllDone n s
  | .joining none => AllDone n s
  | .draining (some ending) => ending ≠ .returned .success ∧ Lost n s
  | .joining (some ending) => ending ≠ .returned .success ∧ Lost n s
  | .reporting => AllDone n s
  | .ended ending => ending = .returned .success ∧ AllDone n s ∨
      ending ≠ .returned .success ∧ Lost n s

structure Inv (n : ℕ) (s : Call) : Prop where
  nodup : s.started.Nodup
  taken : s.fellBack = false → ∀ job, job ∈ s.started ↔ (s.future job).taken = true
  won : s.fellBack = false → ∀ job, job ∈ s.succeeded ↔ s.future job = .finished (.ends .success)
  bare : s.threads = 0 → ∀ job, (s.future job).taken = false
  fallen : s.fellBack = true → s.threads = 0
  bounded : ∀ job, s.future job ≠ .unsubmitted → job < n
  results : ∀ result ∈ s.jobResults, result = .success
  told : s.told.count .chapterDone = if s.phase = .ended (.returned .success) then 1 else 0
  place : Place n s

theorem Inv.begin : Inv n .begin where
  nodup := List.nodup_nil
  taken := by simp [Call.begin, FutureState.taken]
  won := by simp [Call.begin]
  bare := by simp [Call.begin, FutureState.taken]
  fallen := by simp [Call.begin]
  bounded := by simp [Call.begin]
  results := by simp [Call.begin]
  told := by simp [Call.begin]
  place := by simp [Call.begin, Place]

/-! ### The threads of the pool -/

theorem lost_of {job : ℕ} (h : Inv n s) (hpool : s.fellBack = false) {outcome : Outcome}
    (hfuture : s.future job = .finished outcome) (hfailed : outcome ≠ .ends .success) : Lost n s := by
  refine ⟨job, h.bounded job (by rw [hfuture]; simp), ?_, .inr ⟨outcome, hfuture⟩⟩
  rw [h.won hpool, hfuture]
  simpa using hfailed

/-- What a step of the pool leaves as it is, and what it can only add to. -/
structure PoolStep (s t : Call) : Prop where
  phase : t.phase = s.phase
  fellBack : t.fellBack = s.fellBack
  pending : t.pending = s.pending
  threads : t.threads = s.threads
  jobResults : t.jobResults = s.jobResults
  told : t.told = s.told
  unsubmitted : ∀ job, s.future job = .unsubmitted → t.future job = .unsubmitted
  finished : ∀ job outcome, s.future job = .finished outcome → t.future job = .finished outcome
  inline : s.threads = 0 → t.started = s.started ∧ t.succeeded = s.succeeded
  succeeded : ∀ job ∈ s.succeeded, job ∈ t.succeeded

theorem Lost.pool (h : Lost n s) (hinv : Inv n s) (hinv' : t.fellBack = false → ∀ job,
    job ∈ t.succeeded ↔ t.future job = .finished (.ends .success)) (hp : PoolStep s t) : Lost n t := by
  obtain ⟨job, hlt, hnot, hgone⟩ := h
  rcases hgone with hthreads | ⟨outcome, hfuture⟩
  · refine ⟨job, hlt, ?_, .inl (hp.threads.trans hthreads)⟩
    rwa [(hp.inline hthreads).2]
  · have hfuture' := hp.finished job outcome hfuture
    refine ⟨job, hlt, ?_, .inr ⟨outcome, hfuture'⟩⟩
    cases hfell : s.fellBack with
    | true => rwa [(hp.inline (hinv.fallen hfell)).2]
    | false =>
      rw [hinv' (hp.fellBack.trans hfell), hfuture', ← hfuture]
      rwa [← hinv.won hfell]

theorem Place.pool (h : Place n s) (hinv : Inv n s) (hinv' : t.fellBack = false → ∀ job,
    job ∈ t.succeeded ↔ t.future job = .finished (.ends .success)) (hp : PoolStep s t) :
    Place n t := by
  have hlost : Lost n s → Lost n t := fun h => h.pool hinv hinv' hp
  have hall : AllDone n s → AllDone n t := fun h job hjob => hp.succeeded job (h job hjob)
  unfold Place at h ⊢
  rw [hp.phase]
  cases hphase : s.phase with
  | starting =>
    simp only [hphase] at h
    exact ⟨hp.fellBack.trans h.1, fun job => hp.unsubmitted job (h.2 job)⟩
  | listing =>
    simp only [hphase] at h
    exact ⟨hp.fellBack.trans h.1, fun job => hp.unsubmitted job (h.2 job)⟩
  | submitting next =>
    simp only [hphase] at h
    obtain ⟨hle, hfell, hpending, hrest⟩ := h
    exact ⟨hle, hp.fellBack.trans hfell, fun job hjob => hp.pending ▸ hpending job hjob,
      fun job hjob => hp.unsubmitted job (hrest job hjob)⟩
  | falling rest =>
    simp only [hphase] at h
    obtain ⟨hstarted, hsucceeded⟩ := hp.inline (hinv.fallen h.1)
    exact ⟨hp.fellBack.trans h.1, hstarted.trans h.2.1, hsucceeded.trans h.2.2⟩
  | inlining next =>
    simp only [hphase] at h
    obtain ⟨hstarted, hsucceeded⟩ := hp.inline (hinv.fallen h.1)
    exact ⟨hp.fellBack.trans h.1, h.2.1, hstarted.trans h.2.2.1, hsucceeded.trans h.2.2.2⟩
  | running job =>
    simp only [hphase] at h
    obtain ⟨hstarted, hsucceeded⟩ := hp.inline (hinv.fallen h.1)
    exact ⟨hp.fellBack.trans h.1, h.2.1, hstarted.trans h.2.2.1, hsucceeded.trans h.2.2.2⟩
  | waiting =>
    simp only [hphase] at h
    refine ⟨fun hfell => hp.pending.trans (h.1 (hp.fellBack.symm.trans hfell)), fun job hjob => ?_⟩
    rw [hp.pending]
    exact (h.2 job hjob).imp_right (hp.succeeded job)
  | collecting done =>
    simp only [hphase] at h
    refine ⟨hp.fellBack.trans h.1, fun job hjob => ?_⟩
    rw [hp.pending]
    exact (h.2 job hjob).imp_right (.imp_right (hp.succeeded job))
  | leaving result rest =>
    simp only [hphase] at h
    exact ⟨hp.fellBack.trans h.1, h.2.1, hlost h.2.2⟩
  | draining ending =>
    simp only [hphase] at h
    cases ending with
    | none => exact hall h
    | some ending => exact ⟨h.1, hlost h.2⟩
  | joining ending =>
    simp only [hphase] at h
    cases ending with
    | none => exact hall h
    | some ending => exact ⟨h.1, hlost h.2⟩
  | reporting =>
    simp only [hphase] at h
    exact hall h
  | ended ending =>
    simp only [hphase] at h
    exact h.imp (.imp_right hall) (.imp_right hlost)

theorem update_kept {job other : ℕ} {x y : FutureState} (state : FutureState)
    (hjob : s.future job = x) (hother : s.future other = y) (hne : x ≠ y) :
    Function.update s.future job state other = y := by
  have hneJob : other ≠ job := by
    rintro rfl
    exact hne (hjob.symm.trans hother)
  rw [Function.update_of_ne hneJob, hother]

theorem update_bounded {job : ℕ} {state : FutureState} (h : Inv n s)
    (hjob : s.future job ≠ .unsubmitted) (other : ℕ)
    (hsubmitted : Function.update s.future job state other ≠ .unsubmitted) : other < n := by
  by_cases hne : other = job
  · subst hne
    exact h.bounded other hjob
  · rw [Function.update_of_ne hne] at hsubmitted
    exact h.bounded other hsubmitted

theorem Inv.threaded (h : Inv n s) (hfree : s.threads ≠ 0) : s.fellBack = false := by
  by_contra hfell
  exact hfree (h.fallen (by simpa using hfell))

theorem take_pending {job : ℕ} {rest : List ℕ} (h : Inv n s) (hfree : s.threads ≠ 0)
    (hfuture : s.future job = .pending) :
    Inv n (s.takeUp job rest) := by
  have hpool := h.threaded hfree
  have hnew : job ∉ s.started := by
    rw [h.taken hpool, hfuture]
    simp [FutureState.taken]
  have hwon : ∀ other, other ∈ (s.takeUp job rest).succeeded ↔
      (s.takeUp job rest).future other = .finished (.ends .success) := by
    intro other
    simp only [Call.takeUp, h.won hpool]
    by_cases hother : other = job
    · subst hother
      simp [hfuture]
    · rw [Function.update_of_ne hother]
  refine ⟨?_, fun _ other => ?_, fun _ => hwon, fun hnone => absurd hnone hfree, h.fallen,
    update_bounded h (by rw [hfuture]; simp), h.results, h.told, ?_⟩
  · rw [Call.takeUp, List.nodup_append]
    refine ⟨h.nodup, by simp, ?_⟩
    intro a ha b hb
    obtain rfl := List.mem_singleton.mp hb
    exact fun heq => hnew (heq ▸ ha)
  · by_cases hne : other = job
    · subst hne
      simp [Call.takeUp, FutureState.taken]
    · simp only [Call.takeUp, Function.update_of_ne hne, ← h.taken hpool]
      simp [hne]
  · refine h.place.pool h (fun _ => hwon) ⟨rfl, rfl, rfl, rfl, rfl, rfl, ?_, ?_, ?_, fun _ h => h⟩
    · intro other hstate
      exact update_kept _ hfuture hstate (by simp)
    · intro other outcome hstate
      exact update_kept _ hfuture hstate (by simp)
    · exact fun hnone => absurd hnone hfree

theorem finish_running {job : ℕ} {outcome : Outcome} (h : Inv n s)
    (hfuture : s.future job = .running) :
    Inv n (s.finish job outcome) := by
  have hfree : s.threads ≠ 0 := by
    intro hnone
    have hbare := h.bare hnone job
    rw [hfuture] at hbare
    cases hbare
  have hpool := h.threaded hfree
  have hwon : ∀ other, other ∈ (s.finish job outcome).succeeded ↔
      (s.finish job outcome).future other = .finished (.ends .success) := by
    intro other
    simp only [Call.finish]
    have hold := h.won hpool other
    by_cases hother : other = job
    · subst hother
      rw [hfuture] at hold
      by_cases hsuccess : outcome = .ends .success
      · simp [hsuccess]
      · simpa [hsuccess] using hold
    · rw [Function.update_of_ne hother, ← hold]
      split_ifs
      · simp [hother]
      · rfl
  refine ⟨h.nodup, fun _ other => ?_, fun _ => hwon, fun hnone => absurd hnone hfree, h.fallen,
    update_bounded h (by rw [hfuture]; simp), h.results, h.told, ?_⟩
  · refine (h.taken hpool other).trans ?_
    by_cases hne : other = job
    · subst hne
      simp [Call.finish, hfuture, FutureState.taken]
    · simp only [Call.finish, Function.update_of_ne hne]
  · refine h.place.pool h (fun _ => hwon) ⟨rfl, rfl, rfl, rfl, rfl, rfl, ?_, ?_, ?_, ?_⟩
    · intro other hstate
      exact update_kept _ hfuture hstate (by simp)
    · intro other outcome hstate
      exact update_kept _ hfuture hstate (by simp)
    · exact fun hnone => absurd hnone hfree
    · intro other hmem
      simp only [Call.finish]
      split_ifs
      · exact List.mem_append_left _ hmem
      · exact hmem

/-- A step that changes nothing the invariant speaks of. -/
theorem Inv.same (h : Inv n s) (workQueue : List ℕ) (resting idle : ℕ) :
    Inv n { s with workQueue := workQueue, resting := resting, idle := idle } :=
  ⟨h.nodup, h.taken, h.won, h.bare, h.fallen, h.bounded, h.results, h.told, h.place⟩

theorem Inv.pool (h : Inv n s) (taken : poolStep n s a = some t) : Inv n t := by
  unfold poolStep at taken
  split at taken
  · split at taken
    · cases taken
    · next job rest hqueue =>
      split_ifs at taken with hroom hfuture
      · obtain rfl := Option.some.inj taken
        exact take_pending h (by omega) hfuture
      · obtain rfl := Option.some.inj taken
        exact h.same rest (s.resting + 1) s.idle
  · split_ifs at taken with hfuture
    obtain rfl := Option.some.inj taken
    exact finish_running h hfuture
  · split_ifs at taken
    obtain rfl := Option.some.inj taken
    exact h.same s.workQueue (s.resting - 1) (s.idle + 1)
  · cases taken

/-! ### The calling thread -/

theorem told_of (h : Inv n s) (hdone : s.phase ≠ .ended (.returned .success)) (htold : t.told = s.told)
    (hnext : t.phase ≠ .ended (.returned .success)) :
    t.told.count .chapterDone = if t.phase = .ended (.returned .success) then 1 else 0 := by
  have hcount := h.told
  rw [if_neg hdone] at hcount
  rw [htold, if_neg hnext, hcount]

/-- The calling thread goes on without touching the pool or its records. -/
theorem Inv.goto (h : Inv n s) {next : Phase} (hdone : s.phase ≠ .ended (.returned .success))
    (hnext : next ≠ .ended (.returned .success)) (place : Place n (s.goto next)) :
    Inv n (s.goto next) :=
  ⟨h.nodup, h.taken, h.won, h.bare, h.fallen, h.bounded, h.results, told_of h hdone rfl hnext, place⟩

/-- What is known of the jobs where the call ends so, or goes on to its end. -/
def Settles (n : ℕ) (s : Call) : Option Ending → Prop
  | none => AllDone n s
  | some ending => ending ≠ .returned .success ∧ Lost n s

theorem Inv.shutdown (h : Inv n s) {ending : Option Ending}
    (hdone : s.phase ≠ .ended (.returned .success)) (settles : Settles n s ending) :
    Inv n (s.shutdown ending) := by
  unfold Call.shutdown
  split_ifs
  · apply h.goto hdone (by simp)
    cases ending <;> exact settles
  · apply h.goto hdone (by simp)
    cases ending <;> exact settles

theorem Inv.close (h : Inv n s) {ending : Option Ending}
    (hdone : s.phase ≠ .ended (.returned .success)) (settles : Settles n s ending) :
    Inv n (s.close ending) := by
  cases ending with
  | some ending =>
    apply h.goto hdone
    · intro heq
      exact settles.1 (Phase.ended.inj heq)
    · exact .inr settles
  | none =>
    have hnone : s.jobResults.find?
        (fun result => result = .cancelled ∨ StudyResult.isFailure result) = none := by
      rw [List.find?_eq_none]
      intro result hresult
      rw [h.results result hresult]
      decide
    simp only [Call.close, hnone]
    exact h.goto hdone (by simp) settles

theorem Inv.leaveEarly (h : Inv n s) {result : ChapterResult}
    (hdone : s.phase ≠ .ended (.returned .success)) (hpool : s.fellBack = false)
    (hresult : result ≠ .success) (lost : Lost n s) : Inv n (s.leaveEarly result) :=
  ⟨h.nodup, h.taken, h.won, h.bare, h.fallen, h.bounded, h.results,
    told_of h hdone rfl (by simp [Call.leaveEarly]), ⟨hpool, hresult, lost⟩⟩

theorem Inv.cancel (h : Inv n s) (job : ℕ) : Inv n (s.cancel job) := by
  unfold Call.cancel
  split_ifs with hfuture
  · have htaken : ∀ other, (Function.update s.future job .cancelled other).taken =
        (s.future other).taken := by
      intro other
      by_cases hne : other = job
      · subst hne
        rw [Function.update_self, hfuture]
        rfl
      · rw [Function.update_of_ne hne]
    have hwon : s.fellBack = false → ∀ other, other ∈ s.succeeded ↔
        Function.update s.future job .cancelled other = .finished (.ends .success) := by
      intro hpool other
      rw [h.won hpool]
      by_cases hne : other = job
      · subst hne
        simp [hfuture]
      · rw [Function.update_of_ne hne]
    refine ⟨h.nodup, fun hpool other => (h.taken hpool other).trans (by rw [htaken]), hwon,
      fun hnone other => (htaken other).trans (h.bare hnone other), h.fallen,
      update_bounded h (by rw [hfuture]; simp), h.results, h.told, ?_⟩
    refine h.place.pool h hwon ⟨rfl, rfl, rfl, rfl, rfl, rfl, ?_, ?_, fun _ => ⟨rfl, rfl⟩, fun _ h => h⟩
    · intro other hstate
      exact update_kept _ hfuture hstate (by simp)
    · intro other outcome hstate
      exact update_kept _ hfuture hstate (by simp)
  · exact h

section Submit
variable {next : ℕ}

theorem enqueue_taken (h : s.future next = .unsubmitted) (job : ℕ) :
    ((s.enqueue next).future job).taken = (s.future job).taken := by
  by_cases hne : job = next
  · subst hne
    simp [Call.enqueue, h, FutureState.taken]
  · simp [Call.enqueue, Function.update_of_ne hne]

theorem enqueue_won (h : s.future next = .unsubmitted) (job : ℕ) :
    (s.enqueue next).future job = .finished (.ends .success) ↔
      s.future job = .finished (.ends .success) := by
  by_cases hne : job = next
  · subst hne
    simp [Call.enqueue, h]
  · simp [Call.enqueue, Function.update_of_ne hne]

theorem enqueue_bounded (h : Inv n s) (hnext : next < n) (job : ℕ)
    (hsubmitted : (s.enqueue next).future job ≠ .unsubmitted) : job < n := by
  by_cases hne : job = next
  · exact hne ▸ hnext
  · simp only [Call.enqueue, Function.update_of_ne hne] at hsubmitted
    exact h.bounded job hsubmitted

theorem Inv.submitted (h : Inv n s) (hphase : s.phase = .submitting next) (hnext : next < n)
    {idle threads : ℕ} (hthreads : s.threads ≤ threads) :
    Inv n { s.enqueue next with
      phase := .submitting (next + 1)
      pending := insert next s.pending
      idle := idle
      threads := threads } := by
  have hplace := h.place
  simp only [Place, hphase] at hplace
  obtain ⟨-, hpool, hpending, hrest⟩ := hplace
  have hnew := hrest next le_rfl
  have hdone : s.phase ≠ .ended (.returned .success) := by simp [hphase]
  refine ⟨h.nodup, fun _ job => ?_, fun _ job => ?_, fun hnone job => ?_, ?_, enqueue_bounded h hnext,
    h.results, told_of h hdone rfl (by simp), ⟨hnext, hpool, ?_, ?_⟩⟩
  · rw [enqueue_taken hnew]
    exact h.taken hpool job
  · rw [enqueue_won hnew]
    exact h.won hpool job
  · rw [enqueue_taken hnew]
    exact h.bare (by simp only at hnone; omega) job
  · intro hfell
    have hfell' : s.fellBack = true := hfell
    rw [hpool] at hfell'
    cases hfell'
  · intro job hjob
    rw [Finset.mem_insert]
    rcases Nat.lt_succ_iff_lt_or_eq.mp hjob with hlt | heq
    · exact .inr (hpending job hlt)
    · exact .inl heq
  · intro job hjob
    have hne : job ≠ next := by omega
    exact (Function.update_of_ne hne _ _).trans (hrest job (by omega))

theorem Inv.submit {fails : Bool} (h : Inv n s) (hphase : s.phase = .submitting next) (hnext : next < n)
    (allowed : fails = true → s.threads = 0) (taken : s.submit next fails = some t) : Inv n t := by
  have hplace := h.place
  simp only [Place, hphase] at hplace
  obtain ⟨-, hpool, -, hrest⟩ := hplace
  have hnew := hrest next le_rfl
  have hdone : s.phase ≠ .ended (.returned .success) := by simp [hphase]
  unfold Call.submit at taken
  split_ifs at taken with hidle hfails hthreads hfails' hfails'
  · obtain rfl := Option.some.inj taken
    exact h.submitted hphase hnext le_rfl
  · -- the failing start: no job was taken up before
    obtain rfl := Option.some.inj taken
    have hnone := allowed hfails'
    have hstarted : s.started = [] := by
      apply List.eq_nil_iff_forall_not_mem.mpr
      intro job hjob
      rw [h.taken hpool, h.bare hnone job] at hjob
      cases hjob
    have hsucceeded : s.succeeded = [] := by
      apply List.eq_nil_iff_forall_not_mem.mpr
      intro job hjob
      have htaken := h.bare hnone job
      rw [(h.won hpool job).mp hjob] at htaken
      cases htaken
    refine ⟨h.nodup, by simp, by simp, fun hzero job => ?_, fun _ => hnone, enqueue_bounded h hnext, h.results,
      told_of h hdone rfl (by simp), ⟨rfl, hstarted, hsucceeded⟩⟩
    rw [enqueue_taken hnew]
    exact h.bare hnone job
  · obtain rfl := Option.some.inj taken
    exact h.submitted hphase hnext (Nat.le_succ _)
  · obtain rfl := Option.some.inj taken
    exact h.submitted hphase hnext le_rfl

end Submit

theorem lost_inline {job : ℕ} (h : Inv n s) (hfell : s.fellBack = true) (hjob : job < n)
    (hsucceeded : s.succeeded = List.range job) : Lost n s :=
  ⟨job, hjob, by simp [hsucceeded], .inl (h.fallen hfell)⟩

theorem Inv.inlineEnds {job : ℕ} {outcome : Outcome} (h : Inv n s) (hphase : s.phase = .running job) :
    Inv n (s.inlineEnds job outcome) := by
  have hplace := h.place
  simp only [Place, hphase] at hplace
  obtain ⟨hfell, hjob, hstarted, hsucceeded⟩ := hplace
  have hdone : s.phase ≠ .ended (.returned .success) := by simp [hphase]
  have hlost := lost_inline h hfell hjob hsucceeded
  cases outcome with
  | raises => exact h.shutdown hdone ⟨by simp, hlost⟩
  | ends result =>
    cases result with
    | success =>
      refine ⟨h.nodup, ?_, ?_, h.bare, h.fallen, h.bounded, h.results,
        told_of h hdone rfl (by simp [Call.inlineEnds]), ⟨hfell, hjob, hstarted, ?_⟩⟩
      · intro hpool
        exact absurd (hfell.symm.trans hpool) (by simp)
      · intro hpool
        exact absurd (hfell.symm.trans hpool) (by simp)
      · rw [List.range_succ, ← hsucceeded]
        rfl
    | cancelled => exact h.shutdown hdone ⟨by simp, hlost⟩
    | forbidden => exact h.shutdown hdone ⟨by simp, hlost⟩
    | error => exact h.shutdown hdone ⟨by simp, hlost⟩
    | timeout => exact h.shutdown hdone ⟨by simp, hlost⟩

theorem Inv.collect {job : ℕ} {done : Finset ℕ} {outcome : Outcome} (h : Inv n s)
    (hphase : s.phase = .collecting done) (hfuture : s.future job = .finished outcome) :
    Inv n (s.collect (done.erase job) outcome) := by
  have hplace := h.place
  simp only [Place, hphase] at hplace
  obtain ⟨hpool, hall⟩ := hplace
  have hdone : s.phase ≠ .ended (.returned .success) := by simp [hphase]
  have hlost : outcome ≠ .ends .success → Lost n s := lost_of h hpool hfuture
  cases outcome with
  | raises => exact h.shutdown hdone ⟨by simp, hlost (by simp)⟩
  | ends result =>
    cases result with
    | success =>
      refine ⟨h.nodup, h.taken, h.won, h.bare, h.fallen, h.bounded, ?_,
        told_of h hdone rfl (by simp [Call.collect]), ⟨hpool, ?_⟩⟩
      · intro result hresult
        rcases List.mem_append.mp hresult with hold | hnew
        · exact h.results result hold
        · exact List.mem_singleton.mp hnew
      · intro other hother
        by_cases hne : other = job
        · subst hne
          exact .inr (.inr ((h.won hpool other).mpr hfuture))
        · rcases hall other hother with hpending | hmem | hwon
          · exact .inl hpending
          · exact .inr (.inl (Finset.mem_erase.mpr ⟨hne, hmem⟩))
          · exact .inr (.inr hwon)
    | cancelled => exact h.leaveEarly hdone hpool (by simp) (hlost (by simp))
    | forbidden => exact h.leaveEarly hdone hpool (by simp) (hlost (by simp))
    | error => exact h.leaveEarly hdone hpool (by simp) (hlost (by simp))
    | timeout => exact h.leaveEarly hdone hpool (by simp) (hlost (by simp))

theorem Inv.inline {stop : Bool} (h : Inv n s) (allowed : stop = false)
    (taken : callerStep n s (.inline stop) = some t) : Inv n t := by
  simp only [callerStep] at taken
  split at taken
  · next next hphase =>
    have hplace := h.place
    simp only [Place, hphase] at hplace
    obtain ⟨hfell, hle, hstarted, hsucceeded⟩ := hplace
    have hdone : s.phase ≠ .ended (.returned .success) := by simp [hphase]
    have hnever : ∀ {p : Prop}, s.fellBack = false → p := fun hpool =>
      absurd (hfell.symm.trans hpool) (by simp)
    simp only [allowed, Bool.false_eq_true, if_false] at taken
    split_ifs at taken with hnext
    · obtain rfl := Option.some.inj taken
      have hmore : s.started ++ [next] = List.range (next + 1) := by rw [hstarted, List.range_succ]
      refine ⟨hmore ▸ List.nodup_range, hnever, hnever, h.bare, h.fallen, h.bounded, h.results,
        told_of h hdone rfl (by simp), ⟨hfell, hnext, hmore, hsucceeded⟩⟩
    · obtain rfl := Option.some.inj taken
      refine ⟨h.nodup, hnever, hnever, h.bare, h.fallen, h.bounded, h.results,
        told_of h hdone rfl (by simp), ⟨fun _ => rfl, fun job hjob => .inr ?_⟩⟩
      simp only [hsucceeded, List.mem_range]
      omega
  · cases taken

theorem Inv.wait {stop : Bool} {done : Finset ℕ} (h : Inv n s) (allowed : stop = false)
    (taken : callerStep n s (.wait stop done) = some t) : Inv n t := by
  simp only [callerStep, allowed, Bool.false_eq_true, if_false] at taken
  split_ifs at taken with hphase hpending hfinished
  · obtain rfl := Option.some.inj taken
    rw [not_not] at hphase
    have hplace := h.place
    simp only [Place, hphase] at hplace
    apply h.shutdown (by simp [hphase])
    intro job hjob
    refine (hplace.2 job hjob).resolve_left ?_
    simp [hpending]
  · obtain rfl := Option.some.inj taken
    rw [not_not] at hphase
    have hplace := h.place
    simp only [Place, hphase] at hplace
    refine ⟨h.nodup, h.taken, h.won, h.bare, h.fallen, h.bounded, h.results,
      told_of h (by simp [hphase]) rfl (by simp), ⟨?_, fun job hjob => ?_⟩⟩
    · by_contra hfell
      exact hpending (hplace.1 (by simpa using hfell))
    · rcases hplace.2 job hjob with hmem | hwon
      · by_cases hdone : job ∈ done
        · exact .inr (.inl hdone)
        · exact .inl (Finset.mem_sdiff.mpr ⟨hmem, hdone⟩)
      · exact .inr (.inr hwon)

theorem Inv.cancelStep {job : ℕ} (h : Inv n s) (taken : callerStep n s (.cancel job) = some t) :
    Inv n t := by
  have hcancel := h.cancel job
  have hphase : (s.cancel job).phase = s.phase := by
    unfold Call.cancel
    split_ifs <;> rfl
  have hplace := hcancel.place
  simp only [callerStep] at taken
  split at taken
  · next rest hrest =>
    split_ifs at taken
    obtain rfl := Option.some.inj taken
    rw [hrest] at hphase
    simp only [Place, hphase] at hplace
    exact hcancel.goto (by simp [hphase]) (by simp) hplace
  · next result rest hrest =>
    split_ifs at taken
    obtain rfl := Option.some.inj taken
    rw [hrest] at hphase
    simp only [Place, hphase] at hplace
    exact hcancel.goto (by simp [hphase]) (by simp) hplace
  · cases taken

theorem Inv.finally (h : Inv n s) {ending : Option Ending}
    (hphase : s.phase = .draining ending ∨ s.phase = .joining ending) : Inv n (s.close ending) := by
  have hplace := h.place
  apply h.close
  · rcases hphase with hphase | hphase <;> simp [hphase]
  · rcases hphase with hphase | hphase
    · cases ending <;> simpa [Place, hphase, Settles] using hplace
    · cases ending <;> simpa [Place, hphase, Settles] using hplace

theorem Inv.caller (h : Inv n s) (allowed : Allowed s a) (taken : callerStep n s a = some t) :
    Inv n t := by
  have hplace := h.place
  cases a with
  | submit fails =>
    simp only [callerStep] at taken
    split at taken
    · next next hphase =>
      split_ifs at taken with hnext
      exact h.submit hphase hnext allowed taken
    · cases taken
  | submitted =>
    simp only [callerStep] at taken
    split_ifs at taken with hphase
    obtain rfl := Option.some.inj taken
    simp only [Place, hphase] at hplace
    apply h.goto (by simp [hphase]) (by simp)
    refine ⟨fun hfell => ?_, fun job hjob => .inl (hplace.2.2.1 job hjob)⟩
    exact absurd (hplace.2.1.symm.trans hfell) (by simp)
  | cancel job => exact h.cancelStep taken
  | fallBack =>
    simp only [callerStep] at taken
    split_ifs at taken with hphase
    obtain rfl := Option.some.inj taken
    simp only [Place, hphase] at hplace
    exact h.goto (by simp [hphase]) (by simp) ⟨hplace.1, Nat.zero_le _, hplace.2.1, hplace.2.2⟩
  | inline stop => exact h.inline allowed taken
  | inlineEnds outcome =>
    simp only [callerStep] at taken
    split at taken
    · next job hphase =>
      obtain rfl := Option.some.inj taken
      exact h.inlineEnds hphase
    · cases taken
  | wait stop done => exact h.wait allowed taken
  | collect job =>
    simp only [callerStep] at taken
    split at taken
    · next done outcome hphase hfuture =>
      split_ifs at taken
      obtain rfl := Option.some.inj taken
      exact h.collect hphase hfuture
    · cases taken
  | collected =>
    simp only [callerStep] at taken
    split_ifs at taken with hphase
    obtain rfl := Option.some.inj taken
    simp only [Place, hphase] at hplace
    apply h.goto (by simp [hphase]) (by simp)
    refine ⟨fun hfell => absurd (hplace.1.symm.trans hfell) (by simp), fun job hjob => ?_⟩
    exact (hplace.2 job hjob).imp_right fun hrest => hrest.resolve_left (by simp)
  | leave =>
    simp only [callerStep] at taken
    split at taken
    · next result rest hphase =>
      split_ifs at taken
      obtain rfl := Option.some.inj taken
      simp only [Place, hphase] at hplace
      apply h.shutdown (by simp [hphase])
      exact ⟨fun heq => hplace.2.1 (Ending.returned.inj heq), hplace.2.2⟩
    · cases taken
  | drain =>
    simp only [callerStep] at taken
    split at taken
    · next ending hphase =>
      split at taken
      · obtain rfl := Option.some.inj taken
        exact h.finally (.inl hphase)
      · next job rest hqueue =>
        obtain rfl := Option.some.inj taken
        exact (h.cancel job).same rest _ _
    · cases taken
  | join =>
    simp only [callerStep] at taken
    split at taken
    · next ending hphase =>
      split_ifs at taken
      obtain rfl := Option.some.inj taken
      exact h.finally (.inr hphase)
    · cases taken
  | report =>
    simp only [callerStep] at taken
    split_ifs at taken with hphase
    obtain rfl := Option.some.inj taken
    simp only [Place, hphase] at hplace
    have htold := h.told
    refine ⟨h.nodup, h.taken, h.won, h.bare, h.fallen, h.bounded, h.results, ?_, .inl ⟨rfl, hplace⟩⟩
    simp only [hphase, List.count_append] at htold ⊢
    simpa using htold
  | start => cases taken
  | list stop => cases taken
  | take => cases taken
  | finish job outcome => cases taken
  | rest => cases taken

theorem Inv.opening (h : Inv n s) (allowed : Allowed s a)
    (taken : openingStep (.jobs n) s a = some t) : Inv n t := by
  have hplace := h.place
  unfold openingStep at taken
  split at taken
  · simp only [reduceCtorEq, if_false] at taken
    split_ifs at taken with hphase
    · obtain rfl := Option.some.inj taken
      rw [not_not] at hphase
      simp only [Place, hphase] at hplace
      have htold := h.told
      refine ⟨h.nodup, h.taken, h.won, h.bare, h.fallen, h.bounded, h.results, ?_, hplace⟩
      simp only [hphase, List.count_append] at htold ⊢
      simpa using htold
  · next stop =>
    have hstop : stop = false := allowed
    simp only [hstop, Bool.false_eq_true, if_false] at taken
    split_ifs at taken with hphase
    · obtain rfl := Option.some.inj taken
      rw [not_not] at hphase
      simp only [Place, hphase] at hplace
      apply h.goto (by simp [hphase]) (by simp)
      exact ⟨Nat.zero_le _, hplace.1, by simp, fun job _ => hplace.2 job⟩
  · cases taken

theorem Inv.preserved (h : Inv n s) (allowed : Allowed s a) (taken : step (.jobs n) s a = some t) :
    Inv n t := by
  cases a with
  | start => exact h.opening allowed taken
  | list stop => exact h.opening allowed taken
  | take => exact h.pool (a := .take) taken
  | finish job outcome => exact h.pool (a := .finish job outcome) taken
  | rest => exact h.pool (a := .rest) taken
  | submit fails => exact h.caller (a := .submit fails) allowed taken
  | submitted => exact h.caller (a := .submitted) allowed taken
  | cancel job => exact h.caller (a := .cancel job) allowed taken
  | fallBack => exact h.caller (a := .fallBack) allowed taken
  | inline stop => exact h.caller (a := .inline stop) allowed taken
  | inlineEnds outcome => exact h.caller (a := .inlineEnds outcome) allowed taken
  | wait stop done => exact h.caller (a := .wait stop done) allowed taken
  | collect job => exact h.caller (a := .collect job) allowed taken
  | collected => exact h.caller (a := .collected) allowed taken
  | leave => exact h.caller (a := .leave) allowed taken
  | drain => exact h.caller (a := .drain) allowed taken
  | join => exact h.caller (a := .join) allowed taken
  | report => exact h.caller (a := .report) allowed taken

theorem Inv.of_reachable (h : (machine (.jobs n)).Reachable Allowed s) : Inv n s :=
  h.invariant (fun _ hs => by rw [show _ = Call.begin from hs]; exact .begin)
    fun _ _ _ hinv allowed taken => hinv.preserved allowed taken

/-- Every job is run at most once; the call returns `SUCCESS` exactly if every job was run and
succeeded, and it has called the callback once then, and never otherwise. -/
structure RunsOnce (n : ℕ) (s : Call) : Prop where
  once : ∀ job, s.started.count job ≤ 1
  success : ∀ ending, s.phase = .ended ending →
    (ending = .returned .success ↔ ∀ job < n, job ∈ s.succeeded)
  done : s.told.count .chapterDone = if s.phase = .ended (.returned .success) then 1 else 0

theorem Inv.runsOnce (h : Inv n s) : RunsOnce n s where
  once job := List.nodup_iff_count_le_one.mp h.nodup job
  success ending hphase := by
    have hplace := h.place
    simp only [Place, hphase] at hplace
    constructor
    · intro heq
      rcases hplace with ⟨-, hall⟩ | ⟨hne, -⟩
      · exact hall
      · exact absurd heq hne
    · intro hall
      rcases hplace with ⟨heq, -⟩ | ⟨-, job, hjob, hnot, -⟩
      · exact heq
      · exact absurd (hall job hjob) hnot
  done := h.told

/-- In every run that is not asked to stop and in which a start of a thread fails only where it
would have been the first. -/
theorem chapter_runs_jobs_once (h : (machine (.jobs n)).Reachable Allowed s) : RunsOnce n s :=
  (Inv.of_reachable h).runsOnce

/-- Two jobs: the first is taken up by its thread, the second finds no thread to start. -/
def secondStartFails : List Action :=
  [.start, .list false, .submit false, .take, .submit true, .cancel 0, .fallBack, .inline false]

/-- The inline loop begins the first job a second time. -/
theorem first_job_twice :
    ∃ s, (machine (.jobs 2)).Reachable Unstopped s ∧ s.phase = .running 0 ∧ ¬ RunsOnce 2 s := by
  have hrun : ∃ s, (machine (.jobs 2)).exec .begin secondStartFails = some s ∧
      s.phase = .running 0 ∧ s.started = [0, 0] := ⟨_, rfl, rfl, rfl⟩
  obtain ⟨s, hexec, hphase, hstarted⟩ := hrun
  have hallowed : ∀ a ∈ secondStartFails, ∀ s, Unstopped s a := by
    simp [secondStartFails, Unstopped]
  refine ⟨s, ⟨.begin, rfl, Machine.run_of_exec_of hallowed hexec⟩, hphase, fun h => ?_⟩
  have honce := h.once 0
  rw [hstarted] at honce
  revert honce
  decide

/-- Two jobs that both succeed, each in a thread of its own. -/
def twoThreads : List Action :=
  [.start, .list false, .submit false, .submit false, .submitted, .take, .take,
    .finish 1 (.ends .success), .wait false {1}, .collect 1, .collected, .finish 0 (.ends .success),
    .wait false {0}, .collect 0, .collected, .wait false ∅, .join, .report]

theorem chapter_runs_jobs_once_twoThreads :
    ∃ s, (machine (.jobs 2)).exec .begin twoThreads = some s ∧
      s.phase = .ended (.returned .success) ∧ RunsOnce 2 s := by
  have hrun : ∃ s, (machine (.jobs 2)).exec .begin twoThreads = some s ∧
      s.phase = .ended (.returned .success) := ⟨_, rfl, rfl⟩
  obtain ⟨s, hexec, hphase⟩ := hrun
  have hallowed : ∀ a ∈ twoThreads, ∀ s, Allowed s a := by
    simp [twoThreads, Allowed]
  exact ⟨s, hexec, hphase,
    chapter_runs_jobs_once ⟨.begin, rfl, Machine.run_of_exec_of hallowed hexec⟩⟩

end UniversityHelper.ChapterCall
