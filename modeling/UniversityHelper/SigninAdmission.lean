import UniversityHelper.SigninManager

set_option linter.unusedSectionVars false

/-! Admission to the sign-in manager: one active task for a user, at most `maxActiveTasks` in all,
and every active task under way and in the registry. -/
namespace UniversityHelper.SigninManager
open TaskAdmission TaskManager

theorem countActiveTasks_filter (tasks : OrderedDict String TaskRecord)
    (p : String × TaskRecord → Bool) :
    countActiveTasks (tasks.filter p) ≤ countActiveTasks tasks :=
  (List.filter_sublist.map Prod.snd).countP_le

theorem countActiveTasks_cleanup (tasks : OrderedDict String TaskRecord) (now : Instant) :
    countActiveTasks (cleanup tasks now) ≤ countActiveTasks tasks :=
  (countActiveTasks_filter _ _).trans (countActiveTasks_filter tasks _)

@[simp] theorem retained_status (x : TaskRecord) : Retained.status x = x.status := rfl

theorem countActiveTasks_modify {tasks : OrderedDict String TaskRecord} {k : String}
    {f : TaskRecord → TaskRecord}
    (hf : ∀ x, isActiveStatus (f x).status = true → isActiveStatus x.status = true) :
    countActiveTasks (tasks.modify k f) ≤ countActiveTasks tasks := by
  simp only [countActiveTasks, OrderedDict.values, OrderedDict.modify, List.countP_map]
  refine List.countP_mono_left fun e _ h => ?_
  simp only [Function.comp_apply, retained_status] at h ⊢
  split at h
  · exact hf e.2 h
  · exact h

theorem countActiveTasks_set_new {tasks : OrderedDict String TaskRecord} {k : String}
    (h : tasks.get k = none) (x : TaskRecord) :
    countActiveTasks (tasks.set k x) =
      countActiveTasks tasks + if isActiveStatus x.status = true then 1 else 0 := by
  simp only [countActiveTasks, OrderedDict.values, OrderedDict.entries_set_of_new h,
    List.map_append, List.countP_append, List.map_cons, List.map_nil, List.countP_singleton]
  rfl

theorem cleanup_sub {tasks : OrderedDict String TaskRecord} {now : Instant} {k : String}
    {x : TaskRecord} (h : (cleanup tasks now).get k = some x) : tasks.get k = some x :=
  (get_cleanupTaskRecords.mp h).1

theorem cleanup_keeps {tasks : OrderedDict String TaskRecord} {now : Instant} {k : String}
    {x : TaskRecord} (h : tasks.get k = some x) (active : isActiveStatus x.status = true) :
    (cleanup tasks now).get k = some x :=
  active_retained h active

/-- What admission is to guarantee of the registry. -/
structure Registry (tasks : OrderedDict String TaskRecord) : Prop where
  single : ∀ k j x y, tasks.get k = some x → tasks.get j = some y →
    isActiveStatus x.status = true → isActiveStatus y.status = true →
    strip x.userId = strip y.userId → k = j
  bounded : countActiveTasks tasks ≤ maxActiveTasks
  written : ∀ k x, tasks.get k = some x → Written x.status

theorem Registry.empty : Registry OrderedDict.empty :=
  ⟨fun _ _ _ _ h => (by cases h), Nat.zero_le _, fun _ _ h => (by cases h)⟩

/-- Records go, or change without becoming active. -/
theorem Registry.shrink {tasks later : OrderedDict String TaskRecord} (h : Registry tasks)
    (sub : ∀ k y, later.get k = some y → ∃ x, tasks.get k = some x ∧ y.userId = x.userId ∧
      (isActiveStatus y.status = true → isActiveStatus x.status = true) ∧ Written y.status)
    (count : countActiveTasks later ≤ countActiveTasks tasks) : Registry later := by
  refine ⟨fun k j y z hy hz active active' same => ?_, count.trans h.bounded, fun k y hy => ?_⟩
  · obtain ⟨x, hx, user, was, -⟩ := sub k y hy
    obtain ⟨x', hx', user', was', -⟩ := sub j z hz
    exact h.single k j x x' hx hx' (was active) (was' active') (by rw [← user, ← user', same])
  · obtain ⟨x, -, -, -, written⟩ := sub k y hy
    exact written

theorem Registry.cleanup {tasks : OrderedDict String TaskRecord} (h : Registry tasks)
    (now : Instant) : Registry (cleanup tasks now) :=
  h.shrink (fun k y hy => ⟨y, cleanup_sub hy, rfl, fun active => active, h.written k y (cleanup_sub hy)⟩)
    (countActiveTasks_cleanup tasks now)

theorem Registry.modify {tasks : OrderedDict String TaskRecord} (h : Registry tasks) {k : String}
    {f : TaskRecord → TaskRecord} (user : ∀ x, (f x).userId = x.userId)
    (active : ∀ x, isActiveStatus (f x).status = true → isActiveStatus x.status = true)
    (written : ∀ x, Written x.status → Written (f x).status) : Registry (tasks.modify k f) := by
  refine h.shrink (fun j y hy => ?_) (countActiveTasks_modify active)
  rw [OrderedDict.get_modify] at hy
  split at hy
  · obtain ⟨x, hx, rfl⟩ := Option.map_eq_some_iff.mp hy
    exact ⟨x, hx, user x, active x, written x (h.written j x hx)⟩
  · exact ⟨y, hy, rfl, fun active => active, h.written j y hy⟩

theorem Registry.insert {tasks : OrderedDict String TaskRecord} (h : Registry tasks) {k : String}
    {x : TaskRecord} (absent : tasks.get k = none) (terminal : isTerminalStatus x.status = true) :
    Registry (tasks.set k x) := by
  have hidle : isActiveStatus x.status = false := not_active_of_terminal terminal
  have hold : ∀ j y, (tasks.set k x).get j = some y → isActiveStatus y.status = true →
      tasks.get j = some y := by
    intro j y hy active
    rw [OrderedDict.get_set] at hy
    split at hy
    · obtain rfl := Option.some_inj.mp hy
      rw [hidle] at active
      cases active
    · exact hy
  refine ⟨fun i j y z hy hz active active' same =>
    h.single i j y z (hold i y hy active) (hold j z hz active') active active' same, ?_, fun j y hy => ?_⟩
  · rw [countActiveTasks_set_new absent, hidle]
    exact h.bounded
  · rw [OrderedDict.get_set] at hy
    split at hy
    · obtain rfl := Option.some_inj.mp hy
      exact Or.inl terminal
    · exact h.written j y hy

/-- The check of `start_task` is what a new active record needs. -/
theorem Registry.admitted {tasks : OrderedDict String TaskRecord} (h : Registry tasks) {k : String}
    {x : TaskRecord} (absent : tasks.get k = none) (written : Written x.status)
    (free : ¬ ∃ y ∈ tasks.values, strip y.userId = strip x.userId ∧ isActiveStatus y.status = true)
    (room : ¬ maxActiveTasks ≤ countActiveTasks tasks) : Registry (tasks.set k x) := by
  have hfree : ∀ j y, tasks.get j = some y → isActiveStatus y.status = true →
      strip y.userId ≠ strip x.userId := fun j y hy active same =>
    free ⟨y, OrderedDict.mem_values.mpr ⟨j, hy⟩, same, active⟩
  refine ⟨fun i j y z hy hz active active' same => ?_, ?_, fun j y hy => ?_⟩
  · rw [OrderedDict.get_set] at hy hz
    split at hy <;> split at hz
    · rename_i hi hj
      rw [hi, hj]
    · obtain rfl := Option.some_inj.mp hy
      exact absurd same.symm (hfree j z hz active')
    · obtain rfl := Option.some_inj.mp hz
      exact absurd same (hfree i y hy active)
    · exact h.single i j y z hy hz active active' same
  · rw [countActiveTasks_set_new absent]
    split <;> omega
  · rw [OrderedDict.get_set] at hy
    split at hy
    · obtain rfl := Option.some_inj.mp hy
      exact written
    · exact h.written j y hy

/-- Every status that the worker still writes is terminal, and when it ends it has written one. -/
def Work.Sound : Bool → Work → Prop
  | settled, .login _ _ next => ∀ result, (next result).Sound settled
  | settled, .getClient next => ∀ found, (next found).Sound settled
  | settled, .getActiveTasks _ _ _ _ next => ∀ result, (next result).Sound settled
  | settled, .signTask _ _ next => ∀ result, (next result).Sound settled
  | settled, .appendHistory _ next => next.Sound settled
  | settled, .update changes next =>
    (∀ status, changes.status = some status → isTerminalStatus status = true) ∧
      next.Sound (settled || changes.status.any isTerminalStatus)
  | settled, .appendLog _ _ next => next.Sound settled
  | settled, .finished => settled = true

theorem terminal_error : isTerminalStatus .error = true := by decide
theorem active_running : isActiveStatus .running = true := by decide
theorem terminal_completed : isTerminalStatus .completed = true := by decide

theorem sound_final {status : TaskStatus} {message : String} {next : Work} {settled : Bool}
    (terminal : isTerminalStatus status = true) (h : next.Sound true) :
    (Work.update ⟨some status, some message, none⟩ next).Sound settled := by
  refine ⟨fun other hother => ?_, ?_⟩
  · obtain rfl := Option.some_inj.mp hother
    exact terminal
  · simpa [terminal] using h

theorem failureWork_sound (message : String) (settled : Bool) : (failureWork message).Sound settled :=
  sound_final terminal_error rfl

theorem signTasks_sound (signType subjectType : String) (total : ℕ) (tasks : List ActiveTask) :
    ∀ index completed failed,
      (signTasks signType subjectType total index completed failed tasks).Sound false := by
  induction tasks with
  | nil =>
    intro index completed failed
    refine sound_final ?_ rfl
    split
    · exact terminal_completed
    · exact terminal_error
  | cons task rest ih =>
    intro index completed failed result
    exact ⟨fun _ h => (by cases h), ih _ _ _⟩

theorem runTaskWorker_sound (payload : Payload) : (runTaskWorker payload).Sound false := by
  unfold runTaskWorker
  intro login
  cases hlogin : login.status with
  | false =>
    simp only [hlogin, if_true]
    exact sound_final terminal_error rfl
  | true =>
    simp only [hlogin, Bool.true_eq_false, if_false]
    intro found
    cases found with
    | false => exact sound_final terminal_error rfl
    | true =>
      intro result
      cases result with
      | error exception => exact sound_final terminal_error rfl
      | ok tasks =>
        cases tasks with
        | nil => exact sound_final terminal_completed rfl
        | cons task rest => exact ⟨fun _ h => (by cases h), signTasks_sound _ _ _ _ _ _ _⟩

theorem answer_sound {work next : Work} {answer : Answer} {settled : Bool} (h : work.Sound settled)
    (taken : work.answer answer = some next) : next.Sound settled := by
  unfold Work.answer at taken
  split at taken
  case h_6 => cases taken
  all_goals
    obtain rfl := Option.some_inj.mp taken
    first | exact h _ | exact h

theorem merged_terminal {item : StoredTask} {now : Instant} (written : Written item.status) :
    isTerminalStatus (mergedTask signinRules item now).status = true := by
  simp only [mergedTask]
  split
  · exact terminal_error
  · rename_i hinterrupted
    exact written.resolve_right hinterrupted

/-- The task is in the registry with an active status. -/
def Underway (record : Option TaskRecord) : Prop :=
  ∃ x, record = some x ∧ isActiveStatus x.status = true

def Settled (record : Option TaskRecord) : Prop :=
  ∀ x, record = some x → isTerminalStatus x.status = true

/-- The task has been admitted, and no terminal status has been written yet. -/
def Life.underway : Life → Bool
  | .admitted _ _ | .unpersisted | .persisted _ => true
  | .working _ settled _ | .persisting _ settled _ _ => !settled
  | .unknown | .compensating _ | .ended => false

/-- The snapshot that the thread of a task has still to write to the store. -/
def Life.snapshot : Life → Option PublicTask
  | .admitted _ snapshot | .compensating snapshot | .persisting _ _ snapshot _ => some snapshot
  | _ => none

def Life.Sound : Life → Prop
  | .working _ settled work | .persisting _ settled _ work => work.Sound settled
  | _ => True

/-- How the record of a task and its thread belong together. -/
structure Fits (record : Option TaskRecord) (life : Life) : Prop where
  active : life.underway = true → Underway record
  settled : life.underway = false → life ≠ .unknown → Settled record
  idle : life = .unknown → ∀ x, record = some x → isActiveStatus x.status = false
  sound : life.Sound
  written : ∀ snapshot, life.snapshot = some snapshot → Written snapshot.status

/-- What a reading call still carries into the registry or the store. -/
def Call.Ok : Call → Prop
  | .merging items _ => ∀ item ∈ items, Written item.status
  | .inserting item items _ => Written item.status ∧ ∀ item ∈ items, Written item.status
  | .writingBack snapshot items _ => Written snapshot.status ∧ ∀ item ∈ items, Written item.status
  | _ => True

variable {C : Type*} [DecidableEq C]

structure Inv (s : State C) : Prop where
  registry : Registry s.tasks
  fits : ∀ k, Fits (s.tasks.get k) (s.life k)
  rows : ∀ k row, s.store.rows.get k = some row → Written row.status
  calls : ∀ c, (s.call c).Ok

theorem Fits.unknown {record : Option TaskRecord}
    (h : ∀ x, record = some x → isActiveStatus x.status = false) : Fits record .unknown :=
  ⟨fun h => (by cases h), fun _ hne => absurd rfl hne, fun _ => h, trivial, fun _ h => (by cases h)⟩

/-- A thread that is over leaves a settled record, whatever it still has to do. -/
theorem Fits.of_settled {record : Option TaskRecord} {life : Life} (h : Settled record)
    (hlife : life.underway = false) (sound : life.Sound)
    (written : ∀ snapshot, life.snapshot = some snapshot → Written snapshot.status) :
    Fits record life :=
  ⟨fun hactive => (by rw [hlife] at hactive; cases hactive), fun _ _ => h,
    fun _ x hx => not_active_of_terminal (h x hx), sound, written⟩

theorem Fits.of_underway {record : Option TaskRecord} {life : Life} (h : Underway record)
    (hlife : life.underway = true) (sound : life.Sound)
    (written : ∀ snapshot, life.snapshot = some snapshot → Written snapshot.status) :
    Fits record life :=
  ⟨fun _ => h, fun hover => (by rw [hlife] at hover; cases hover),
    fun hunknown => (by rw [hunknown] at hlife; cases hlife), sound, written⟩

/-- The thread goes on without a change of its record or of what it has settled. -/
theorem Fits.next {record : Option TaskRecord} {life later : Life} (h : Fits record life)
    (same : later.underway = life.underway) (known : life ≠ .unknown) (sound : later.Sound)
    (written : ∀ snapshot, later.snapshot = some snapshot → Written snapshot.status) :
    Fits record later := by
  cases hlife : life.underway with
  | true => exact .of_underway (h.active hlife) (same.trans hlife) sound written
  | false => exact .of_settled (h.settled hlife known) (same.trans hlife) sound written

theorem Fits.record {record later : Option TaskRecord} {life : Life} (h : Fits record life)
    (sub : ∀ x, later = some x → record = some x)
    (keeps : ∀ x, record = some x → isActiveStatus x.status = true → later = some x) :
    Fits later life := by
  refine ⟨fun hlife => ?_, fun hlife hne x hx => h.settled hlife hne x (sub x hx),
    fun hunknown x hx => h.idle hunknown x (sub x hx), h.sound, h.written⟩
  obtain ⟨x, hx, active⟩ := h.active hlife
  exact ⟨x, keeps x hx active, active⟩

theorem Inv.start {s : State C} (h : Start s) : Inv s := by
  obtain ⟨htasks, hrows, hlife, hcall⟩ := h
  refine ⟨htasks ▸ Registry.empty, fun k => ?_, hrows, fun c => ?_⟩
  · rw [hlife k, htasks]
    exact .unknown fun _ h => (by cases h)
  · rw [hcall c]
    trivial

theorem Inv.lives {s : State C} (h : Inv s) {k : String} {next : Life}
    (fits : Fits (s.tasks.get k) next) : Inv (s.lives k next) := by
  refine ⟨h.registry, fun j => ?_, h.rows, h.calls⟩
  by_cases hj : j = k
  · subst hj
    simpa [State.lives] using fits
  · simpa [State.lives, hj] using h.fits j

theorem Inv.goto {s : State C} (h : Inv s) {c : C} {next : Call} (ok : next.Ok) :
    Inv (s.goto c next) := by
  refine ⟨h.registry, h.fits, h.rows, fun d => ?_⟩
  by_cases hd : d = c
  · subst hd
    simpa [State.goto] using ok
  · simpa [State.goto, hd] using h.calls d

theorem Inv.cleanup {s : State C} (h : Inv s) (now : Instant) :
    Inv { s with tasks := cleanup s.tasks now } :=
  ⟨h.registry.cleanup now, fun k => (h.fits k).record (fun _ => cleanup_sub) fun _ => cleanup_keeps,
    h.rows, h.calls⟩

theorem upsertTask_written {store : TaskStore} {snapshot : PublicTask} {now : Instant}
    (rows : ∀ k row, store.rows.get k = some row → Written row.status)
    (written : Written snapshot.status) (k : String) (row : TaskRow)
    (h : (store.upsertTask snapshot now).2.rows.get k = some row) : Written row.status := by
  simp only [TaskStore.upsertTask] at h
  split at h
  · exact rows k row h
  · simp only [OrderedDict.get_set] at h
    split at h
    · obtain rfl := Option.some_inj.mp h
      exact written
    · exact rows k row h

theorem Inv.upsert {s : State C} (h : Inv s) {snapshot : PublicTask} {outcome : Outcome}
    {now : Instant} (written : Written snapshot.status) : Inv (s.upsert snapshot outcome now) := by
  unfold State.upsert
  split
  · exact h
  · exact ⟨h.registry, h.fits, upsertTask_written h.rows written, h.calls⟩

theorem upsert_tasks (s : State C) (snapshot : PublicTask) (outcome : Outcome) (now : Instant) :
    (s.upsert snapshot outcome now).tasks = s.tasks := by
  unfold State.upsert
  split <;> rfl

/-- A critical section of the thread of task `k`. -/
theorem Inv.mutate {s : State C} (h : Inv s) {k : String} {f : TaskRecord → TaskRecord}
    {next : Option PublicTask → Life} (user : ∀ x, (f x).userId = x.userId)
    (active : ∀ x, isActiveStatus (f x).status = true → isActiveStatus x.status = true)
    (written : ∀ x, Written x.status → Written (f x).status)
    (fits : Fits ((s.tasks.get k).map f) (next (((s.tasks.get k).map f).map TaskRecord.toPublicTask))) :
    Inv (s.mutate k f next) := by
  have hget : (s.tasks.modify k f).get k = (s.tasks.get k).map f := by simp
  refine ⟨h.registry.modify user active written, fun j => ?_, h.rows, h.calls⟩
  by_cases hj : j = k
  · subst hj
    simpa [State.mutate, State.lives] using fits
  · simpa [State.mutate, State.lives, hj] using h.fits j

theorem Inv.insert {s : State C} (h : Inv s) {k : String} {x : TaskRecord}
    (absent : s.tasks.get k = none) (terminal : isTerminalStatus x.status = true) :
    Inv { s with tasks := s.tasks.set k x } := by
  refine ⟨h.registry.insert absent terminal, fun j => ?_, h.rows, h.calls⟩
  have hfits := h.fits j
  by_cases hj : j = k
  · subst hj
    rw [absent] at hfits
    simp only [OrderedDict.get_set, if_true]
    have hsettled : Settled (some x) := fun y hy => by
      obtain rfl := Option.some_inj.mp hy
      exact terminal
    refine ⟨fun hlife => ?_, fun _ _ => hsettled, fun _ y hy => not_active_of_terminal (hsettled y hy),
      hfits.sound, hfits.written⟩
    obtain ⟨y, hy, -⟩ := hfits.active hlife
    cases hy
  · simpa [hj] using hfits

/-- A critical section leaves the status, or writes a terminal one. -/
inductive Keeping (f : TaskRecord → TaskRecord) (settled : Bool) : Bool → Prop
  | same (h : ∀ x, (f x).status = x.status) : Keeping f settled settled
  | ends (h : ∀ x, isTerminalStatus (f x).status = true) : Keeping f settled true

theorem Keeping.active {f : TaskRecord → TaskRecord} {settled later : Bool}
    (h : Keeping f settled later) (x : TaskRecord) (active : isActiveStatus (f x).status = true) :
    isActiveStatus x.status = true := by
  cases h with
  | same h => rwa [h x] at active
  | ends h =>
    rw [not_active_of_terminal (h x)] at active
    cases active

theorem Keeping.written {f : TaskRecord → TaskRecord} {settled later : Bool}
    (h : Keeping f settled later) (x : TaskRecord) (written : Written x.status) :
    Written (f x).status := by
  cases h with
  | same h => rwa [h x]
  | ends h => exact Or.inl (h x)

theorem persisted_underway (guarded settled : Bool) (work : Work) (snapshot : Option PublicTask) :
    (work.persisted guarded settled snapshot).underway = !settled := by
  cases snapshot <;> rfl

theorem persisted_sound {guarded settled : Bool} {work : Work} (h : work.Sound settled)
    (snapshot : Option PublicTask) : (work.persisted guarded settled snapshot).Sound := by
  cases snapshot <;> exact h

theorem persisted_snapshot (guarded settled : Bool) (work : Work) (snapshot : Option PublicTask) :
    (work.persisted guarded settled snapshot).snapshot = snapshot := by
  cases snapshot <;> rfl

theorem Fits.write {record : Option TaskRecord} {guarded settled later : Bool} {work next : Work}
    {f : TaskRecord → TaskRecord} (h : Fits record (.working guarded settled work))
    (sound : next.Sound later) (written : ∀ x, record = some x → Written x.status)
    (keeping : Keeping f settled later) :
    Fits (record.map f) (next.persisted guarded later ((record.map f).map TaskRecord.toPublicTask)) := by
  have hsnapshot : ∀ snapshot, (next.persisted guarded later
      ((record.map f).map TaskRecord.toPublicTask)).snapshot = some snapshot →
      Written snapshot.status := by
    intro snapshot hsnapshot
    rw [persisted_snapshot, Option.map_map] at hsnapshot
    obtain ⟨x, hx, rfl⟩ := Option.map_eq_some_iff.mp hsnapshot
    exact keeping.written x (written x hx)
  cases hlater : later with
  | true =>
    subst hlater
    refine .of_settled (fun y hy => ?_) (persisted_underway ..) (persisted_sound sound _) hsnapshot
    obtain ⟨x, hx, rfl⟩ := Option.map_eq_some_iff.mp hy
    cases keeping with
    | same same =>
      rw [same x]
      exact h.settled rfl Life.noConfusion x hx
    | ends terminal => exact terminal x
  | false =>
    subst hlater
    cases keeping with
    | same same =>
      obtain ⟨x, hx, active⟩ := h.active rfl
      exact .of_underway ⟨f x, by rw [hx]; rfl, by rw [same x]; exact active⟩
        (persisted_underway ..) (persisted_sound sound _) hsnapshot

theorem Inv.write {s : State C} (h : Inv s) {k : String} {guarded settled later : Bool}
    {work next : Work} {f : TaskRecord → TaskRecord} (life : s.life k = .working guarded settled work)
    (sound : next.Sound later) (user : ∀ x, (f x).userId = x.userId)
    (keeping : Keeping f settled later) : Inv (s.mutate k f (next.persisted guarded later)) := by
  have hfits := h.fits k
  rw [life] at hfits
  exact h.mutate user keeping.active keeping.written
    (hfits.write sound (h.registry.written k) keeping)

theorem writeTask_inv {s t : State C} (h : Inv s) {k : String} {guarded settled : Bool}
    {work : Work} {now : Instant} (life : s.life k = .working guarded settled work)
    (taken : writeTask s k guarded settled now work = some t) : Inv t := by
  have hsound : work.Sound settled := by
    have hfits := (h.fits k).sound
    rwa [life] at hfits
  cases work with
  | update changes next =>
    obtain rfl := Option.some_inj.mp taken
    obtain ⟨hterminal, hnext⟩ := hsound
    refine h.write life hnext (fun _ => rfl) ?_
    cases hstatus : changes.status with
    | none =>
      rw [Option.any_none, Bool.or_false]
      exact .same fun x => by simp [Changes.apply, hstatus]
    | some status =>
      rw [Option.any_some, hterminal status hstatus, Bool.or_true]
      exact .ends fun x => by simpa [Changes.apply, hstatus] using hterminal status hstatus
  | appendLog message level next =>
    obtain rfl := Option.some_inj.mp taken
    exact h.write life hsound (fun _ => rfl) (.same fun _ => rfl)
  | _ => cases taken

theorem startTask_inv {s t : State C} (h : Inv s) {k userId : String} {payload : Payload}
    {now : Instant} (taken : startTask s k userId payload now = some t) : Inv t := by
  have hclean := h.cleanup now
  unfold startTask at taken
  split at taken
  · rename_i hunknown habsent _
    have hnone : (cleanup s.tasks now).get k = none := by
      cases hget : (cleanup s.tasks now).get k with
      | none => rfl
      | some x =>
        rw [cleanup_sub hget] at habsent
        cases habsent
    simp only at taken
    split at taken
    · obtain rfl := Option.some_inj.mp taken
      exact hclean
    · rename_i hfree
      split at taken
      · obtain rfl := Option.some_inj.mp taken
        exact hclean
      · rename_i hroom
        obtain rfl := Option.some_inj.mp taken
        have hrunning : Written TaskStatus.running := Or.inr (by decide)
        have hregistry := hclean.registry.admitted (x := newTask k userId now) hnone hrunning hfree hroom
        have hadmitted : Inv ({ s with
            tasks := (cleanup s.tasks now).set k (newTask k userId now) }.lives k
              (.admitted payload (newTask k userId now).toPublicTask)) := by
          refine ⟨hregistry, fun j => ?_, h.rows, h.calls⟩
          by_cases hj : j = k
          · subst hj
            simp only [State.lives, Function.update_self, OrderedDict.get_set, if_true]
            have hactive : isActiveStatus (newTask j userId now).status = true := active_running
            refine .of_underway ⟨_, rfl, hactive⟩ rfl trivial fun snapshot hsnapshot => ?_
            obtain rfl := Option.some_inj.mp hsnapshot
            exact hrunning
          · simpa [State.lives, hj] using hclean.fits j
        exact hadmitted.cleanup now
  · cases taken

theorem readStore_written {store : TaskStore}
    (rows : ∀ k row, store.rows.get k = some row → Written row.status) (r : Request)
    (item : StoredTask) (h : item ∈ readStore store r) : Written item.status := by
  have hlisted : ∀ user limit, item ∈ listStoredTasks store user limit → Written item.status := by
    intro user limit hitem
    obtain ⟨e, he, rfl⟩ := List.mem_map.mp hitem
    have hmem := (List.perm_insertionSort _ _).mem_iff.mp (List.mem_of_mem_take he)
    exact rows e.1 e.2 (OrderedDict.get_eq_some.mpr (List.mem_filter.mp hmem).1)
  have hget : ∀ userId taskId, item ∈ (if strip userId = "" ∨ strip taskId = "" then []
      else (store.getTask (strip taskId) (strip userId)).toList) → Written item.status := by
    intro userId taskId hitem
    split at hitem
    · cases hitem
    · rw [Option.mem_toList, TaskStore.getTask] at hitem
      split at hitem
      · obtain ⟨row, hrow, hfound⟩ := Option.bind_eq_some_iff.mp hitem
        split at hfound
        · obtain rfl := Option.some_inj.mp hfound
          exact rows _ row hrow
        · cases hfound
      · cases hitem
  cases r with
  | getTask userId taskId => exact hget userId taskId h
  | getTaskLogs userId taskId cursor => exact hget userId taskId h
  | listTasks userId => exact hlisted _ _ h
  | restore => exact hlisted _ _ h

theorem look_inv {s : State C} (h : Inv s) (c : C) (now : Instant) (r : Request) :
    Inv (look s c now r) := by
  have hclean := h.cleanup now
  cases r with
  | getTask userId taskId =>
    simp only [look]
    split
    · exact hclean.goto trivial
    · exact hclean.goto trivial
  | getTaskLogs userId taskId cursor =>
    simp only [look]
    split
    · exact hclean.goto trivial
    · exact hclean.goto trivial
  | listTasks userId =>
    simp only [look]
    refine h.goto ?_
    split <;> trivial
  | restore => exact h.goto trivial

theorem answer_inv {s : State C} (h : Inv s) (c : C) (now : Instant) (r : Request) :
    Inv (answer s c now r) := by
  cases r with
  | getTask userId taskId => exact h.goto trivial
  | getTaskLogs userId taskId cursor => exact (h.cleanup now).goto trivial
  | listTasks userId => exact (h.cleanup now).goto trivial
  | restore => exact h.goto trivial

theorem proceed_inv {s t : State C} (h : Inv s) {c : C} {outcome : Outcome} {now : Instant}
    (taken : proceed s c outcome now = some t) : Inv t := by
  have hok := h.calls c
  unfold proceed at taken
  split at taken
  case h_1 | h_2 => cases taken
  case h_3 r hcall =>
    obtain rfl := Option.some_inj.mp taken
    exact look_inv h c now r
  case h_4 r hcall =>
    obtain rfl := Option.some_inj.mp taken
    refine h.goto fun item hitem => ?_
    split at hitem
    · cases hitem
    · exact readStore_written h.rows r item hitem
  case h_5 r hcall =>
    obtain rfl := Option.some_inj.mp taken
    refine h.goto ?_
    cases r <;> trivial
  case h_6 item items r hcall =>
    rw [hcall] at hok
    obtain rfl := Option.some_inj.mp taken
    refine h.goto ?_
    split
    · exact fun other hother => hok other (List.mem_cons_of_mem _ hother)
    · exact ⟨hok item List.mem_cons_self, fun other hother => hok other (List.mem_cons_of_mem _ hother)⟩
  case h_7 item items r hcall =>
    rw [hcall] at hok
    obtain ⟨hitem, hitems⟩ := hok
    split at taken
    · obtain rfl := Option.some_inj.mp taken
      exact h.goto hitems
    · rename_i habsent
      obtain rfl := Option.some_inj.mp taken
      have hterminal : isTerminalStatus (mergedTask signinRules item now).status = true :=
        merged_terminal hitem
      refine (h.insert (by simpa using habsent) hterminal).goto ?_
      split
      · exact ⟨Or.inl hterminal, hitems⟩
      · exact hitems
  case h_8 snapshot items r hcall =>
    rw [hcall] at hok
    obtain rfl := Option.some_inj.mp taken
    exact (h.upsert hok.1).goto hok.2
  case h_9 r hcall =>
    obtain rfl := Option.some_inj.mp taken
    have hclean := h.cleanup now
    have hloaded : Inv { s with
        tasks := cleanup s.tasks now, loadedTaskUsers := r.loads s.loadedTaskUsers } :=
      ⟨hclean.registry, hclean.fits, hclean.rows, hclean.calls⟩
    have hanswering : (Call.answering r).Ok := trivial
    exact hloaded.goto hanswering
  case h_10 r hcall =>
    obtain rfl := Option.some_inj.mp taken
    exact answer_inv h c now r

theorem recordPersistFailure_status (now : Instant) (x : TaskRecord) :
    (recordPersistFailure now x).status = .error := rfl

theorem Inv.preserved {s t : State C} {a : Action C} (h : Inv s) (taken : step s a = some t) :
    Inv t := by
  cases a with
  | startTask k userId payload now | startClassTask k userId payload now =>
    exact startTask_inv h taken
  | persistNew k outcome now =>
    simp only [step] at taken
    split at taken
    · rename_i payload snapshot life
      obtain rfl := Option.some_inj.mp taken
      have hfits := h.fits k
      rw [life] at hfits
      refine (h.upsert (hfits.written snapshot rfl)).lives ?_
      rw [upsert_tasks]
      refine hfits.next ?_ Life.noConfusion ?_ ?_ <;> split
      · rfl
      · rfl
      · trivial
      · trivial
      · exact fun _ h => (by cases h)
      · exact fun _ h => (by cases h)
    · cases taken
  | recordFailure k now =>
    simp only [step] at taken
    split at taken
    · rename_i life
      obtain rfl := Option.some_inj.mp taken
      have hfits := h.fits k
      rw [life] at hfits
      have keeping : Keeping (recordPersistFailure now) false true :=
        .ends fun x => by rw [recordPersistFailure_status]; exact terminal_error
      refine h.mutate (fun _ => rfl) keeping.active keeping.written ?_
      obtain ⟨x, hx, -⟩ := hfits.active rfl
      rw [hx]
      refine .of_settled (fun y hy => ?_) rfl trivial fun snapshot hsnapshot => ?_
      · obtain rfl := Option.some_inj.mp hy
        exact terminal_error
      · obtain rfl := Option.some_inj.mp hsnapshot
        exact Or.inl terminal_error
    · cases taken
  | compensate k outcome now =>
    simp only [step] at taken
    split at taken
    · rename_i snapshot life
      obtain rfl := Option.some_inj.mp taken
      have hfits := h.fits k
      rw [life] at hfits
      refine (h.upsert (hfits.written snapshot rfl)).lives ?_
      rw [upsert_tasks]
      exact .of_settled (hfits.settled rfl Life.noConfusion) rfl trivial fun _ h => (by cases h)
    · cases taken
  | startThread k failure =>
    simp only [step] at taken
    split at taken
    · rename_i payload life
      obtain rfl := Option.some_inj.mp taken
      have hfits := h.fits k
      rw [life] at hfits
      refine h.lives (hfits.next ?_ Life.noConfusion ?_ ?_) <;> cases failure
      · rfl
      · rfl
      · exact runTaskWorker_sound payload
      · exact failureWork_sound _ _
      · exact fun _ h => (by cases h)
      · exact fun _ h => (by cases h)
    · cases taken
  | ask k answer =>
    simp only [step] at taken
    split at taken
    · rename_i guarded settled work life
      obtain ⟨next, hnext, rfl⟩ := Option.map_eq_some_iff.mp taken
      have hfits := h.fits k
      rw [life] at hfits
      exact h.lives (hfits.next rfl Life.noConfusion (answer_sound hfits.sound hnext)
        fun _ h => (by cases h))
    · cases taken
  | write k now =>
    simp only [step] at taken
    split at taken
    · rename_i guarded settled work life
      exact writeTask_inv h life taken
    · cases taken
  | persist k outcome now =>
    simp only [step] at taken
    split at taken
    · rename_i guarded settled snapshot work life
      obtain rfl := Option.some_inj.mp taken
      have hfits := h.fits k
      rw [life] at hfits
      refine (h.upsert (hfits.written snapshot rfl)).lives ?_
      rw [upsert_tasks]
      exact hfits.next rfl Life.noConfusion hfits.sound fun _ h => (by cases h)
    · cases taken
  | crash k message =>
    simp only [step] at taken
    split at taken
    · rename_i settled work life
      obtain rfl := Option.some_inj.mp taken
      have hfits := h.fits k
      rw [life] at hfits
      exact h.lives (hfits.next rfl Life.noConfusion (failureWork_sound _ _) fun _ h => (by cases h))
    · cases taken
  | finish k =>
    simp only [step] at taken
    split at taken
    · rename_i guarded settled life
      obtain rfl := Option.some_inj.mp taken
      have hfits := h.fits k
      rw [life] at hfits
      have hsettled : settled = true := hfits.sound
      subst hsettled
      exact h.lives (.of_settled (hfits.settled rfl Life.noConfusion) rfl trivial
        fun _ h => (by cases h))
    · cases taken
  | request c r =>
    simp only [step] at taken
    split at taken
    · obtain rfl := Option.some_inj.mp taken
      exact h.goto trivial
    · cases taken
  | proceed c outcome now => exact proceed_inv h taken

theorem Inv.of_reachable {s : State C} (h : (machine C).Reachable Machine.free s) : Inv s :=
  h.invariant (fun _ => Inv.start) fun _ _ _ hs _ taken => hs.preserved taken

/-- The store of a reachable state only holds rows that a manager may start from, so what a
restart finds there is again a start state. -/
theorem start_of_restart {s : State C} (h : (machine C).Reachable Machine.free s) :
    Start (⟨.empty, s.store, [], fun _ => .unknown, fun _ => .idle⟩ : State C) :=
  ⟨rfl, (Inv.of_reachable h).rows, fun _ => rfl, fun _ => rfl⟩

/-- Every active record of the one registry is in the other, whatever its status there. -/
def Retains (tasks later : OrderedDict String TaskRecord) : Prop :=
  ∀ k x, tasks.get k = some x → isActiveStatus x.status = true → ∃ y, later.get k = some y

theorem Retains.refl (tasks : OrderedDict String TaskRecord) : Retains tasks tasks :=
  fun _ x hx _ => ⟨x, hx⟩

theorem Retains.cleanup (tasks : OrderedDict String TaskRecord) (now : Instant) :
    Retains tasks (cleanup tasks now) :=
  fun _ x hx active => ⟨x, cleanup_keeps hx active⟩

theorem Retains.modify (tasks : OrderedDict String TaskRecord) (k : String)
    (f : TaskRecord → TaskRecord) : Retains tasks (tasks.modify k f) := by
  intro j x hx _
  by_cases hj : j = k
  · exact ⟨f x, by simp [hj ▸ hx, hj]⟩
  · exact ⟨x, by simp [hj, hx]⟩

theorem Retains.set (tasks : OrderedDict String TaskRecord) (k : String) (task : TaskRecord) :
    Retains tasks (tasks.set k task) := by
  intro j x hx _
  by_cases hj : j = k
  · exact ⟨task, by simp [hj]⟩
  · exact ⟨x, by simp [hj, hx]⟩

theorem Retains.admission {tasks : OrderedDict String TaskRecord} {k : String} {now : Instant}
    (absent : tasks.get k = none) (task : TaskRecord) :
    Retains tasks (TaskAdmission.cleanup ((TaskAdmission.cleanup tasks now).set k task) now) := by
  intro j x hx active
  have hj : j ≠ k := by
    rintro rfl
    rw [absent] at hx
    cases hx
  exact ⟨x, cleanup_keeps (by simp [hj, cleanup_keeps hx active]) active⟩

theorem look_retains (s : State C) (c : C) (now : Instant) (r : Request) :
    Retains s.tasks (look s c now r).tasks := by
  cases r with
  | getTask userId taskId | getTaskLogs userId taskId cursor =>
    simp only [look]
    split <;> exact .cleanup _ _
  | listTasks userId | restore => exact .refl _

theorem answer_retains (s : State C) (c : C) (now : Instant) (r : Request) :
    Retains s.tasks (answer s c now r).tasks := by
  cases r with
  | getTaskLogs userId taskId cursor | listTasks userId => exact .cleanup _ _
  | getTask userId taskId | restore => exact .refl _

theorem proceed_retains {s t : State C} {c : C} {outcome : Outcome} {now : Instant}
    (taken : proceed s c outcome now = some t) : Retains s.tasks t.tasks := by
  unfold proceed at taken
  split at taken
  case h_1 | h_2 => cases taken
  case h_3 r hcall =>
    obtain rfl := Option.some_inj.mp taken
    exact look_retains s c now r
  case h_7 item items r hcall =>
    split at taken
    · obtain rfl := Option.some_inj.mp taken
      exact .refl _
    · obtain rfl := Option.some_inj.mp taken
      exact .set _ _ _
  case h_8 snapshot items r hcall =>
    obtain rfl := Option.some_inj.mp taken
    simp only [State.goto, upsert_tasks]
    exact .refl _
  case h_9 r hcall =>
    obtain rfl := Option.some_inj.mp taken
    exact .cleanup _ _
  case h_10 r hcall =>
    obtain rfl := Option.some_inj.mp taken
    exact answer_retains s c now r
  all_goals
    obtain rfl := Option.some_inj.mp taken
    exact .refl _

theorem startTask_retains {s t : State C} {k userId : String} {payload : Payload} {now : Instant}
    (taken : startTask s k userId payload now = some t) : Retains s.tasks t.tasks := by
  unfold startTask at taken
  split at taken
  · rename_i habsent _
    simp only at taken
    split at taken
    · obtain rfl := Option.some_inj.mp taken
      exact .cleanup _ _
    · split at taken
      · obtain rfl := Option.some_inj.mp taken
        exact .cleanup _ _
      · obtain rfl := Option.some_inj.mp taken
        exact .admission habsent _
  · cases taken

/-- No step evicts an active task. -/
theorem step_retains {s t : State C} {a : Action C} (taken : step s a = some t) :
    Retains s.tasks t.tasks := by
  cases a with
  | startTask k userId payload now | startClassTask k userId payload now =>
    exact startTask_retains taken
  | persistNew k outcome now | compensate k outcome now | persist k outcome now =>
    simp only [step] at taken
    split at taken
    · obtain rfl := Option.some_inj.mp taken
      simp only [State.lives, upsert_tasks]
      exact .refl _
    · cases taken
  | recordFailure k now =>
    simp only [step] at taken
    split at taken
    · obtain rfl := Option.some_inj.mp taken
      exact .modify _ _ _
    · cases taken
  | write k now =>
    simp only [step] at taken
    split at taken
    · unfold writeTask at taken
      split at taken
      · obtain rfl := Option.some_inj.mp taken
        exact .modify _ _ _
      · obtain rfl := Option.some_inj.mp taken
        exact .modify _ _ _
      · cases taken
    · cases taken
  | ask k answer =>
    simp only [step] at taken
    split at taken
    · obtain ⟨next, -, rfl⟩ := Option.map_eq_some_iff.mp taken
      exact .refl _
    · cases taken
  | startThread k failure | crash k message | finish k =>
    simp only [step] at taken
    split at taken
    · obtain rfl := Option.some_inj.mp taken
      exact .refl _
    · cases taken
  | request c r =>
    simp only [step] at taken
    split at taken
    · obtain rfl := Option.some_inj.mp taken
      exact .refl _
    · cases taken
  | proceed c outcome now =>
    exact proceed_retains taken

/-- In every reachable state a user has at most one active task, at most `maxActiveTasks` are
active, a task is active in the registry exactly while it is under way, and the record of a task
whose worker has ended, or whose start has failed, is terminal. No step evicts an active task. -/
theorem admission_invariant :
    (∀ s : State C, (machine C).Reachable Machine.free s →
      (∀ k j x y, s.tasks.get k = some x → s.tasks.get j = some y →
        isActiveStatus x.status = true → isActiveStatus y.status = true →
        strip x.userId = strip y.userId → k = j) ∧
      countActiveTasks s.tasks ≤ maxActiveTasks ∧
      (∀ k, (s.life k).underway = true ↔
        ∃ x, s.tasks.get k = some x ∧ isActiveStatus x.status = true) ∧
      (∀ k, s.life k = .ended → ∀ x, s.tasks.get k = some x → isTerminalStatus x.status = true)) ∧
    (∀ (s t : State C) a, (machine C).Reachable Machine.free s → step s a = some t →
      ∀ k x, s.tasks.get k = some x → isActiveStatus x.status = true →
        ∃ y, t.tasks.get k = some y) := by
  refine ⟨fun s h => ?_, fun s t a _ taken => step_retains taken⟩
  have inv := Inv.of_reachable h
  refine ⟨inv.registry.single, inv.registry.bounded, fun k => ⟨(inv.fits k).active, ?_⟩, fun k hk x hx => ?_⟩
  · rintro ⟨x, hx, active⟩
    by_contra hover
    rw [Bool.not_eq_true] at hover
    have hidle : isActiveStatus x.status = false := by
      by_cases hunknown : s.life k = .unknown
      · exact (inv.fits k).idle hunknown x hx
      · exact not_active_of_terminal ((inv.fits k).settled hover hunknown x hx)
    rw [hidle] at active
    cases active
  · refine (inv.fits k).settled ?_ ?_ x hx
    · rw [hk]
      rfl
    · rw [hk]
      exact Life.noConfusion

end UniversityHelper.SigninManager
