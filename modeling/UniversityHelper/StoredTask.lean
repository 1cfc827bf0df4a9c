import UniversityHelper.StoredHistory

/-! What the task table holds of a task: the last record that was written, with the first start that any of
them had, under one key for each kind and id. -/
namespace UniversityHelper.TaskStorage
variable {ρ κ ι : Type*} [LinearOrder κ] [LinearOrder ι] {column : DateTime → κ} {db : Tables ρ}
  {taskKind taskId : String} {past : List (TaskRow ρ)}

def TaskRow.isKey (taskKind taskId : String) (row : TaskRow ρ) : Bool :=
  row.taskKind = taskKind ∧ row.taskId = taskId

/-- `get_task`; the outer `none` is an `OverflowError`. No user stands for any. -/
def getTask (taskKind taskId userId : String) (db : Tables ρ) : Option (Option (TaskItem ρ)) :=
  if taskKind = "" ∨ taskId = "" then some none
  else
    match db.tasks.find? fun row =>
        row.isKey taskKind taskId && (userId = "" || row.userId = userId) with
    | none => some none
    | some row => (rowToTask row).map some

/-- The row a call writes under a key. -/
def Call.written (taskKind taskId : String) : Call ρ → Option (TaskRow ρ)
  | .upsertTask kind state now =>
    if state.accepted kind then (some (state.row kind now)).filter (TaskRow.isKey taskKind taskId) else none
  | .appendHistory _ _ _ _ _ => none

/-- The last row of those written, with the first start among them. -/
def lastWritten (rows : List (TaskRow ρ)) : Option (TaskRow ρ) :=
  rows.getLast?.map fun row => { row with startedAt := rows.findSome? TaskRow.startedAt }

theorem lastWritten_concat (rows : List (TaskRow ρ)) (row : TaskRow ρ) : lastWritten (rows ++ [row]) =
    some { row with startedAt := (rows.findSome? TaskRow.startedAt).or row.startedAt } := by
  rw [lastWritten, List.getLast?_concat, Option.map_some, List.findSome?_append]
  cases hstarted : row.startedAt <;> simp [hstarted]

theorem startedAt_lastWritten {rows : List (TaskRow ρ)} {row : TaskRow ρ} (h : lastWritten rows = some row) :
    row.startedAt = rows.findSome? TaskRow.startedAt := by
  obtain ⟨last, -, rfl⟩ := Option.map_eq_some_iff.mp h
  rfl

/-- A table has one row for each key that was written. -/
def Holds (taskKind taskId : String) (db : Tables ρ) (rows : List (TaskRow ρ)) : Prop :=
  db.tasks.filter (TaskRow.isKey taskKind taskId) = (lastWritten rows).toList

theorem isKey_iff {row : TaskRow ρ} : row.isKey taskKind taskId = true ↔
    row.taskKind = taskKind ∧ row.taskId = taskId := by
  simp [TaskRow.isKey]

theorem conflicts_eq_isKey {row : TaskRow ρ} (h : row.isKey taskKind taskId = true) (old : TaskRow ρ) :
    row.conflicts old = old.isKey taskKind taskId := by
  obtain ⟨rfl, rfl⟩ := isKey_iff.mp h
  rfl

/-- A row under another key. -/
theorem insertTask_other {row : TaskRow ρ} (h : row.isKey taskKind taskId = false) (rows : List (TaskRow ρ)) :
    (insertTask row rows).filter (TaskRow.isKey taskKind taskId) =
      rows.filter (TaskRow.isKey taskKind taskId) := by
  rw [insertTask]
  split_ifs with hany
  · clear hany
    induction rows with
    | nil => rfl
    | cons old rows ih =>
      rw [List.map_cons]
      split_ifs with hconflict
      · have hold : old.isKey taskKind taskId = false := by
          simp only [TaskRow.conflicts, decide_eq_true_eq] at hconflict
          rw [TaskRow.isKey, hconflict.1, hconflict.2]
          exact h
        have hnew : ({ row with startedAt := old.startedAt <|> row.startedAt } : TaskRow ρ).isKey taskKind taskId =
            false := h
        rw [List.filter_cons_of_neg (by rw [hnew]; exact Bool.false_ne_true),
          List.filter_cons_of_neg (by rw [hold]; exact Bool.false_ne_true), ih]
      · rw [List.filter_cons, List.filter_cons, ih]
  · rw [List.filter_append, List.filter_singleton, h, cond_false, List.append_nil]

/-- A row under the key takes the place of the one there, and keeps its start. -/
theorem insertTask_key {row : TaskRow ρ} {rows : List (TaskRow ρ)}
    (h : row.isKey taskKind taskId = true)
    (holds : rows.filter (TaskRow.isKey taskKind taskId) = (lastWritten past).toList) :
    (insertTask row rows).filter (TaskRow.isKey taskKind taskId) =
      (lastWritten (past ++ [row])).toList := by
  have hconflicts : row.conflicts = TaskRow.isKey taskKind taskId := funext (conflicts_eq_isKey h)
  rw [insertTask, hconflicts, lastWritten_concat]
  have hreplaced : ∀ rows : List (TaskRow ρ), (rows.map fun old =>
      if old.isKey taskKind taskId = true then { row with startedAt := old.startedAt <|> row.startedAt }
      else old).filter (TaskRow.isKey taskKind taskId) =
      (rows.filter (TaskRow.isKey taskKind taskId)).map fun old =>
        { row with startedAt := old.startedAt <|> row.startedAt } := by
    intro rows
    induction rows with
    | nil => rfl
    | cons old rows ih =>
      cases hold : old.isKey taskKind taskId with
      | true =>
        have hnew : ({ row with startedAt := old.startedAt <|> row.startedAt } : TaskRow ρ).isKey taskKind taskId =
            true := h
        rw [List.map_cons, hold, if_pos rfl, List.filter_cons_of_pos hnew, List.filter_cons_of_pos hold,
          List.map_cons, ih]
      | false =>
        have hout : ¬ old.isKey taskKind taskId = true := by
          rw [hold]
          exact Bool.false_ne_true
        rw [List.map_cons, if_neg hout, List.filter_cons_of_neg hout, List.filter_cons_of_neg hout, ih]
  cases hlast : lastWritten past with
  | none =>
    have hnone : past = [] := by
      rw [lastWritten, Option.map_eq_none_iff, List.getLast?_eq_none_iff] at hlast
      exact hlast
    rw [hlast, Option.toList_none] at holds
    have hany : rows.any (TaskRow.isKey taskKind taskId) = false := by
      rw [List.any_eq_false]
      exact fun old hold => List.filter_eq_nil_iff.mp holds old hold
    rw [hany, if_neg Bool.false_ne_true, List.filter_append, holds, List.filter_singleton, h, hnone]
    rfl
  | some last =>
    rw [hlast, Option.toList_some] at holds
    have hany : rows.any (TaskRow.isKey taskKind taskId) = true := by
      have hmem : last ∈ rows.filter (TaskRow.isKey taskKind taskId) := by
        rw [holds]
        exact List.mem_singleton_self _
      exact List.any_eq_true.mpr ⟨last, List.mem_filter.mp hmem⟩
    rw [hany, if_pos rfl, hreplaced, holds, List.map_singleton, startedAt_lastWritten hlast]
    cases past.findSome? TaskRow.startedAt <;> rfl

theorem Holds.call (h : Holds taskKind taskId db past) (call : Call ρ) :
    Holds taskKind taskId (call.run column db) (past ++ (call.written taskKind taskId).toList) := by
  cases call with
  | upsertTask kind state now =>
    simp only [Call.run, Call.written, upsertTask]
    split_ifs with haccepted
    · cases hkey : (state.row kind now).isKey taskKind taskId with
      | true =>
        rw [Option.filter_some, if_pos hkey, Option.toList_some]
        exact insertTask_key hkey h
      | false =>
        rw [Option.filter_some, if_neg (by simpa using hkey), Option.toList_none, List.append_nil]
        exact (insertTask_other hkey _).trans h
    · rw [Option.toList_none, List.append_nil]
      exact h
  | appendHistory kind user record maxRecords now =>
    simp only [Call.run, Call.written, Option.toList_none, List.append_nil]
    have htasks : ((appendHistory column kind user record maxRecords now db).getD db).tasks = db.tasks := by
      rw [appendHistory]
      split_ifs
      · rfl
      · cases record.stamp now <;> rfl
    rw [Holds, htasks]
    exact h

theorem Holds.run (calls : List (Call ρ)) (h : Holds taskKind taskId db past) :
    Holds taskKind taskId (runCalls column db calls)
      (past ++ calls.filterMap (Call.written taskKind taskId)) := by
  induction calls generalizing db past with
  | nil => simpa [runCalls] using h
  | cons call calls ih =>
    have hsplit : (call :: calls).filterMap (Call.written taskKind taskId) =
        (call.written taskKind taskId).toList ++ calls.filterMap (Call.written taskKind taskId) := by
      rw [List.filterMap_cons]
      cases call.written taskKind taskId <;> rfl
    rw [hsplit, ← List.append_assoc]
    exact ih (h.call call)

theorem Holds.find (h : Holds taskKind taskId db past) (userId : String) :
    (db.tasks.find? fun row => row.isKey taskKind taskId && (userId = "" || row.userId = userId)) =
      (lastWritten past).filter fun row => userId = "" || row.userId = userId := by
  have hfilter : (db.tasks.filter fun row => row.isKey taskKind taskId && (userId = "" || row.userId = userId)) =
      (db.tasks.filter (TaskRow.isKey taskKind taskId)).filter fun row =>
        userId = "" || row.userId = userId := by
    rw [List.filter_filter]
    exact List.filter_congr fun row _ => Bool.and_comm _ _
  rw [← List.head?_filter, hfilter, h]
  cases lastWritten past with
  | none => rfl
  | some row =>
    rw [Option.toList_some, List.filter_singleton, Option.filter_some]
    cases (userId = "" || row.userId = userId : Bool) <;> rfl

theorem Holds.of_mem (h : Holds taskKind taskId db past) {row : TaskRow ρ} (hrow : row ∈ db.tasks)
    (hkey : row.isKey taskKind taskId = true) : lastWritten past = some row := by
  have hmem : row ∈ (lastWritten past).toList := h ▸ List.mem_filter.mpr ⟨hrow, hkey⟩
  exact Option.mem_toList.mp hmem

theorem taskId_ne {row : TaskRow ρ} {calls : List (Call ρ)}
    (h : lastWritten (calls.filterMap (Call.written taskKind taskId)) = some row) : taskId ≠ "" := by
  obtain ⟨last, hlast, -⟩ := Option.map_eq_some_iff.mp h
  obtain ⟨call, -, hcall⟩ := List.mem_filterMap.mp (List.mem_of_getLast? hlast)
  cases call with
  | upsertTask kind state now =>
    simp only [Call.written] at hcall
    split_ifs at hcall with haccepted
    rw [Option.filter_some] at hcall
    split_ifs at hcall with hkey
    rw [← (isKey_iff.mp hkey).2]
    simp only [TaskState.accepted, decide_eq_true_eq] at haccepted
    exact haccepted.2.1
  | appendHistory => cases hcall

/-- The ids of the listed rows are distinct. -/
theorem nodup_taskIds (h : ∀ taskId, ∃ past, Holds taskKind taskId db past) (userId : String) :
    ((db.tasks.filter (TaskRow.isListed taskKind userId)).map TaskRow.taskId).Nodup := by
  refine List.nodup_iff_count_le_one.mpr fun taskId => ?_
  obtain ⟨past, hholds⟩ := h taskId
  have hsub : ((db.tasks.filter (TaskRow.isListed taskKind userId)).filter fun row => row.taskId == taskId).Sublist
      (db.tasks.filter (TaskRow.isKey taskKind taskId)) := by
    rw [List.filter_filter]
    refine List.monotone_filter_right _ fun row hrow => ?_
    simp only [Bool.and_eq_true, beq_iff_eq, TaskRow.isListed, decide_eq_true_eq] at hrow
    exact isKey_iff.mpr ⟨hrow.2.1, hrow.1⟩
  have hlength : (db.tasks.filter (TaskRow.isKey taskKind taskId)).length ≤ 1 := by
    rw [hholds]
    cases lastWritten past <;> simp
  rw [List.count_eq_countP, List.countP_map, List.countP_eq_length_filter]
  exact hsub.length_le.trans hlength

theorem rowToTask_taskId {row : TaskRow ρ} {item : TaskItem ρ} (h : rowToTask row = some item) :
    item.taskId = row.taskId := by
  unfold rowToTask at h
  split at h
  · cases h
    rfl
  · cases h
    rfl
  · cases h

theorem mapM_rowToTask_rows {rows : List (TaskRow ρ)} {items : List (TaskItem ρ)}
    (h : rows.mapM rowToTask = some items) : items.map TaskItem.taskId = rows.map TaskRow.taskId ∧
      ∀ item ∈ items, ∃ row ∈ rows, rowToTask row = some item := by
  induction rows generalizing items with
  | nil =>
    obtain rfl : items = [] := (Option.some.inj h).symm
    exact ⟨rfl, by simp⟩
  | cons row rows ih =>
    rw [List.mapM_cons] at h
    obtain ⟨item, hitem, h⟩ := Option.bind_eq_some_iff.mp h
    obtain ⟨rest, hrest, h⟩ := Option.bind_eq_some_iff.mp h
    obtain rfl : items = item :: rest := (Option.some.inj h).symm
    obtain ⟨hids, hrows⟩ := ih hrest
    refine ⟨by rw [List.map_cons, List.map_cons, hids, rowToTask_taskId hitem], fun other hother => ?_⟩
    rcases List.mem_cons.mp hother with rfl | hother
    · exact ⟨row, List.mem_cons_self, hitem⟩
    · obtain ⟨source, hsource, hprinted⟩ := hrows other hother
      exact ⟨source, List.mem_cons_of_mem _ hsource, hprinted⟩

theorem holds_runCalls (column : DateTime → κ) (calls : List (Call ρ)) (taskKind taskId : String) :
    Holds taskKind taskId (runCalls column .empty calls) (calls.filterMap (Call.written taskKind taskId)) := by
  have hempty : Holds taskKind taskId (Tables.empty (ρ := ρ)) [] := rfl
  exact hempty.run calls

/-- `get_task` finds the last record written under the key, with the first start of any, if it is still the
user's; and a list shows no task twice, and each as `get_task` finds it. -/
theorem task_is_last_written (column : DateTime → κ) (collation : String → ι) (calls : List (Call ρ))
    (taskKind userId : String) :
    (∀ taskId, taskKind ≠ "" → taskId ≠ "" →
      getTask taskKind taskId userId (runCalls column .empty calls) =
        match (lastWritten (calls.filterMap (Call.written taskKind taskId))).filter fun row =>
            userId = "" || row.userId = userId with
        | none => some none
        | some row => (rowToTask row).map some) ∧
    ∀ limit items, listTasks column collation taskKind userId limit (runCalls column .empty calls) = some items →
      (items.map TaskItem.taskId).Nodup ∧
        ∀ item ∈ items, getTask taskKind item.taskId userId (runCalls column .empty calls) = some (some item) := by
  have hholds := holds_runCalls column calls taskKind
  have hget : ∀ taskId, taskKind ≠ "" → taskId ≠ "" →
      getTask taskKind taskId userId (runCalls column .empty calls) =
        match (lastWritten (calls.filterMap (Call.written taskKind taskId))).filter fun row =>
            userId = "" || row.userId = userId with
        | none => some none
        | some row => (rowToTask row).map some := by
    intro taskId hkind hid
    rw [getTask, if_neg (not_or.mpr ⟨hkind, hid⟩), (hholds taskId).find userId]
  refine ⟨hget, fun limit items hlist => ?_⟩
  rw [listTasks] at hlist
  split_ifs at hlist with hkind
  · obtain rfl : items = [] := (Option.some.inj hlist).symm
    exact ⟨.nil, by simp⟩
  · obtain ⟨hids, hrows⟩ := mapM_rowToTask_rows hlist
    refine ⟨?_, fun item hitem => ?_⟩
    · rw [hids]
      have hnodup : (((runCalls column .empty calls).tasks.filter (TaskRow.isListed taskKind userId)).map
          TaskRow.taskId).Nodup := nodup_taskIds (fun taskId => ⟨_, hholds taskId⟩) userId
      exact (((orderBy_perm _).map TaskRow.taskId).nodup_iff.mpr hnodup).sublist ((List.take_sublist _ _).map _)
    · obtain ⟨row, hrow, hprinted⟩ := hrows item hitem
      obtain ⟨hmem, hlisted⟩ := List.mem_filter.mp (mem_of_mem_selectTop hrow)
      simp only [TaskRow.isListed, decide_eq_true_eq] at hlisted
      have hlast := (hholds row.taskId).of_mem hmem (isKey_iff.mpr ⟨hlisted.1, rfl⟩)
      have huser : (userId = "" || row.userId = userId : Bool) = true := by simpa using hlisted.2
      rw [rowToTask_taskId hprinted, hget row.taskId hkind (taskId_ne hlast), hlast, Option.filter_some,
        if_pos huser]
      exact congrArg (Option.map some) hprinted

/-- A task that is written again by another user, without a start. -/
def writtenTwice : List (Call ℕ) :=
  [.upsertTask "course" ⟨" t ", "u", "running", "", some ⟨firstDay, none⟩, none, none, 1⟩ firstDay,
    .upsertTask "course" ⟨"t", "v", "completed", "", none, none, none, 2⟩ firstDay]

theorem task_is_last_written_twice :
    (getTask "course" "t" "v" (runCalls DateTime.instant .empty writtenTwice)).map
        (Option.map fun item => (item.status, item.startedAt.isSome, item.payload)) =
      some (some ("completed", true, 2)) ∧
    (getTask "course" "t" "u" (runCalls DateTime.instant .empty writtenTwice)).map Option.isNone = some true := by
  have hget := fun userId => (task_is_last_written DateTime.instant (fun text => text) writtenTwice "course" userId).1
    "t" (by decide) (by decide)
  rw [hget, hget]
  constructor <;> decide

end UniversityHelper.TaskStorage
