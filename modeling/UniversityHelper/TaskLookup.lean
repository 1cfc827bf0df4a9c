import UniversityHelper.TaskManager

/-! `get_task` and `get_task_logs` against each other: both look the task up in the cleaned
registry and then load it from the store, but only the second cleans up again after that. -/
namespace UniversityHelper.TaskManager
open TaskAdmission
variable {rules : Rules}

/-- Both answers are missing, or the logs are those of the task. -/
def Agree (task : Option PublicTask) (answer : Option LogAnswer) : Prop :=
  (task = none ∧ answer = none) ∨
    ∃ t, task = some t ∧ answer = some ⟨t.logs, t.logs.length⟩

/-- The task is only in the store, and the record it is loaded into is one the retention rules
evict at once: its terminal time is beyond the TTL, or the registry is full and has too few
non-active records that are older. -/
def EvictedOnArrival (rules : Rules) (m : Manager) (now : Instant) (userId taskId : String) :
    Prop :=
  let kept := cleanup m.tasks now
  userId ≠ "" ∧ taskId ≠ "" ∧ kept.get taskId = none ∧
    ∃ item, m.store.getTask taskId userId = some item ∧
      (expired now taskRecordTtlSeconds (mergedTask rules item now) = true ∨
        (isActiveStatus (mergedTask rules item now).status = false ∧
          (rank (evictable kept) (evictionKey (taskId, mergedTask rules item now)) : ℤ) +
            maxTaskRecords ≤ kept.size))

theorem getTask_ids {store : TaskStore} {taskId userId : String} {item : StoredTask}
    (hu : userId ≠ "") (h : store.getTask taskId userId = some item) :
    item.taskId = taskId ∧ item.userId = userId := by
  simp only [TaskStore.getTask] at h
  split_ifs at h
  obtain ⟨row, -, hrow⟩ := Option.bind_eq_some_iff.mp h
  simp only [hu, false_or] at hrow
  split_ifs at hrow with huser
  cases hrow
  exact ⟨rfl, huser⟩

theorem mergedTask_userId (item : StoredTask) (now : Instant) :
    (mergedTask rules item now).userId = item.userId := by
  simp only [mergedTask]
  split_ifs <;> rfl

theorem mergeTaskFromStore_of_new {m : Manager} {item : StoredTask} {now : Instant}
    (ht : strip item.taskId ≠ "") (hu : strip item.userId ≠ "")
    (new : m.tasks.get (strip item.taskId) = none) :
    (mergeTaskFromStore rules m item now).tasks =
      m.tasks.set (strip item.taskId) (mergedTask rules item now) := by
  simp [mergeTaskFromStore, ht, hu, new]

theorem mergeTaskFromStore_of_known {m : Manager} {item : StoredTask} {now : Instant}
    {task : TaskRecord} (known : m.tasks.get (strip item.taskId) = some task) :
    mergeTaskFromStore rules m item now = m := by
  simp [mergeTaskFromStore, known]

/-- What a load does to the registry, from the four ways it can end. -/
theorem loadTaskFromStore_tasks (m : Manager) (now : Instant) {userId taskId : String}
    (hu : strip userId = userId) (ht : strip taskId = taskId) :
    (loadTaskFromStore rules m now userId taskId).tasks = m.tasks ∧
        (m.tasks.get taskId = none → userId = "" ∨ taskId = "" ∨ m.store.getTask taskId userId = none) ∨
      userId ≠ "" ∧ taskId ≠ "" ∧ m.tasks.get taskId = none ∧
        ∃ item, m.store.getTask taskId userId = some item ∧ item.userId = userId ∧
          (loadTaskFromStore rules m now userId taskId).tasks =
            m.tasks.set taskId (mergedTask rules item now) := by
  simp only [loadTaskFromStore, hu, ht]
  by_cases hempty : userId = "" ∨ taskId = ""
  · rw [if_pos hempty]
    exact Or.inl ⟨rfl, fun _ => by tauto⟩
  rw [if_neg hempty]
  obtain ⟨hune, htne⟩ := not_or.mp hempty
  cases hitem : m.store.getTask taskId userId with
  | none => exact Or.inl ⟨rfl, fun _ => Or.inr (Or.inr rfl)⟩
  | some item =>
    obtain ⟨hid, huser⟩ := getTask_ids hune hitem
    cases hknown : m.tasks.get taskId with
    | some task =>
      have hstays : mergeTaskFromStore rules m item now = m :=
        mergeTaskFromStore_of_known (by rw [hid, ht]; exact hknown)
      exact Or.inl ⟨congrArg Manager.tasks hstays, fun h => by cases h⟩
    | none =>
      refine Or.inr ⟨hune, htne, rfl, item, rfl, huser, ?_⟩
      have hmerged : (mergeTaskFromStore rules m item now).tasks =
          m.tasks.set (strip item.taskId) (mergedTask rules item now) :=
        mergeTaskFromStore_of_new (by rw [hid, ht]; exact htne) (by rw [huser, hu]; exact hune)
          (by rw [hid, ht]; exact hknown)
      rw [← ht, ← hid]
      exact hmerged

/-- A clean-up shows a task to nobody to whom it was not shown before. -/
theorem lookup_cleanup_eq_none {tasks : OrderedDict String TaskRecord} {userId taskId : String}
    (h : lookup tasks userId taskId = none) (now : Instant) :
    lookup (cleanup tasks now) userId taskId = none := by
  cases hl : lookup (cleanup tasks now) userId taskId with
  | none => rfl
  | some task =>
    obtain ⟨hget, huser⟩ := Option.filter_eq_some_iff.mp hl
    have hkept := (get_cleanupTaskRecords.mp hget).1
    rw [lookup, hkept, Option.filter_some, if_pos huser] at h
    cases h

theorem agree_iff (hslice : ∀ own, rules.sliceStart (some 0) own = 0) (m : Manager) (now : Instant)
    (userId taskId : String) :
    Agree (getTask rules m now userId taskId).1 (getTaskLogs rules m now userId taskId (some 0)).1 ↔
      ¬ EvictedOnArrival rules m now (strip userId) (strip taskId) := by
  have hu := strip_strip userId
  have ht := strip_strip taskId
  generalize hs : strip userId = uid at hu
  generalize ht' : strip taskId = tid at ht
  simp only [getTask, getTaskLogs, hs, ht']
  set kept := cleanup m.tasks now with hkept
  cases hlook : lookup kept uid tid with
  | some task =>
    have hknown : kept.get tid = some task := (Option.filter_eq_some_iff.mp hlook).1
    refine iff_of_true (Or.inr ⟨_, rfl, ?_⟩) fun hev => ?_
    · simp [answerLogs, hslice]
    · have hnone := hev.2.2.1
      rw [← hkept, hknown] at hnone
      cases hnone
  | none =>
    dsimp only
    have hload := @loadTaskFromStore_tasks rules { m with tasks := kept } now uid tid hu ht
    rcases hload with
      ⟨hsame, hmiss⟩ | ⟨hune, htne, hnew, item, hitem, huser, hset⟩
    · rw [hsame]
      dsimp only
      rw [hlook, lookup_cleanup_eq_none hlook now]
      refine iff_of_true (Or.inl ⟨rfl, rfl⟩) fun hev => ?_
      obtain ⟨hune, htne, hnew, item, hitem, -⟩ := hev
      rcases hmiss hnew with h | h | h
      · exact hune h
      · exact htne h
      · rw [hitem] at h
        cases h
    · rw [hset]
      dsimp only at hnew hitem ⊢
      have hmerged : (mergedTask rules item now).userId = uid := (mergedTask_userId item now).trans huser
      have hshown : lookup (kept.set tid (mergedTask rules item now)) uid tid =
          some (mergedTask rules item now) := by
        simp [lookup, hmerged]
      have hfresh : ∀ e ∈ kept.entries, expired now taskRecordTtlSeconds e.2 = false :=
        fun e he => not_expired_of_cleanup (hkept ▸ he)
      have hev : EvictedOnArrival rules m now uid tid ↔
          (cleanup (kept.set tid (mergedTask rules item now)) now).get tid = none := by
        rw [cleanup, cleanup_added_get_eq_none hfresh hnew]
        constructor
        · rintro ⟨-, -, -, other, hother, hout⟩
          rw [hitem, Option.some_inj] at hother
          subst hother
          exact hout
        · intro hout
          exact ⟨hune, htne, hnew, item, hitem, hout⟩
      rw [hshown, hev]
      cases hget : (cleanup (kept.set tid (mergedTask rules item now)) now).get tid with
      | none =>
        simp [lookup, hget, Agree]
      | some task =>
        have htask : mergedTask rules item now = task := by
          have hold := (get_cleanupTaskRecords.mp hget).1
          simpa using hold
        have hstays : lookup (cleanup (kept.set tid (mergedTask rules item now)) now) uid tid =
            some (mergedTask rules item now) := by
          rw [lookup, hget, ← htask, Option.filter_some, if_pos (by simpa using hmerged)]
        rw [hstays]
        simp [Agree, answerLogs, hslice]

/-- In both managers the two lookups agree on a task exactly where a freshly loaded record
would not be evicted again at once. -/
theorem lookups_agree_iff (m : Manager) (now : Instant) (userId taskId : String) :
    (Agree (ChaoxingLearningManager.getTask m now userId taskId).1
        (ChaoxingLearningManager.getTaskLogs m now userId taskId (some 0)).1 ↔
      ¬ EvictedOnArrival learningRules m now (strip userId) (strip taskId)) ∧
    (Agree (ChaoxingSigninManager.getTask m now userId taskId).1
        (ChaoxingSigninManager.getTaskLogs m now userId taskId (some 0)).1 ↔
      ¬ EvictedOnArrival signinRules m now (strip userId) (strip taskId)) :=
  ⟨agree_iff (fun _ => rfl) m now userId taskId, agree_iff (fun _ => rfl) m now userId taskId⟩

/-- After a restart: nothing in memory, and one task in the store that completed three hours ago. -/
def threeHoursLater : Instant := 3 * 60 * 60 * 1000000

def oldTask : StoredTask :=
  { taskId := "t", userId := "1", status := .completed, message := "Task completed",
    currentTask := "finished", progress := none, times := ⟨.at 0, .at 0, .at 0, .absent⟩,
    logs := some [⟨0, "Task completed", "success"⟩], failures := [] }

def afterRestart : Manager where
  tasks := OrderedDict.empty
  store := ⟨true, OrderedDict.empty.set "t" ⟨"1", .completed, "Task completed", some 0, some 0, oldTask⟩⟩

theorem afterRestart_disagree :
    ((ChaoxingLearningManager.getTask afterRestart threeHoursLater "1" "t").1.isSome = true ∧
      (ChaoxingLearningManager.getTaskLogs afterRestart threeHoursLater "1" "t" (some 0)).1 = none) ∧
    ((ChaoxingSigninManager.getTask afterRestart threeHoursLater "1" "t").1.isSome = true ∧
      (ChaoxingSigninManager.getTaskLogs afterRestart threeHoursLater "1" "t" (some 0)).1 = none) := by
  decide

end UniversityHelper.TaskManager
