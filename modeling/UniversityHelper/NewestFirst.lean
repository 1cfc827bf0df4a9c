import UniversityHelper.TaskStorage

/-! When a storage adapter lists its rows newest first and keeps the newest of a history, by the
instants that the timestamps denote. -/
namespace UniversityHelper.TaskStorage
variable {ρ κ ι : Type*} [LinearOrder κ] [LinearOrder ι]
variable {column : DateTime → κ} {collation : String → ι} {db : Tables ρ}

/-- The column does not order two timestamps against their instants. -/
def Follows (column : DateTime → κ) (a b : DateTime) : Prop :=
  (column a ≤ column b → a.instant ≤ b.instant) ∧ (column b ≤ column a → b.instant ≤ a.instant)

theorem Follows.refl (a : DateTime) : Follows column a a := ⟨fun _ => le_rfl, fun _ => le_rfl⟩

theorem Follows.symm {a b : DateTime} (h : Follows column a b) : Follows column b a := ⟨h.2, h.1⟩

theorem stamp_eq {record : HistoryRecord ρ} {now : Clock} {timestamp : ℤ}
    (h : record.stamp now = some timestamp) : timestamp = (record.eventTime now).instant := by
  unfold HistoryRecord.stamp at h
  split at h
  · next given hgiven =>
    rw [HistoryRecord.eventTime, hgiven]
    exact (Option.some.inj h).symm
  · unfold datetimeToIso at h
    split_ifs at h
    exact (Option.some.inj h).symm

/-- What holds of the tables in every run whose timestamps the column follows. -/
structure Ordered (column : DateTime → κ) (db : Tables ρ) : Prop where
  tasks : ∀ a ∈ db.tasks, ∀ b ∈ db.tasks, a.taskKind = b.taskKind →
    Follows column a.updatedAt b.updatedAt
  printed : ∀ row ∈ db.tasks, row.updatedAt.InRange ∧ ∀ d ∈ row.startedAt, d.InRange
  history : ∀ a ∈ db.history, ∀ b ∈ db.history, a.historyKind = b.historyKind →
    Follows column a.eventTime b.eventTime
  stamped : ∀ row ∈ db.history, row.timestamp = row.eventTime.instant
  ids : (db.history.map HistoryRow.id).Nodup

theorem Ordered.start : Ordered column (Tables.empty (ρ := ρ)) where
  tasks := by simp [Tables.empty]
  printed := by simp [Tables.empty]
  history := by simp [Tables.empty]
  stamped := by simp [Tables.empty]
  ids := by simp [Tables.empty]

/-! ### The lists -/

theorem rowToTask_printed {row : TaskRow ρ}
    (h : row.updatedAt.InRange ∧ ∀ d ∈ row.startedAt, d.InRange) : ∃ item, rowToTask row = some item := by
  obtain ⟨hupdated, hstarted⟩ := h
  cases hrow : row.startedAt with
  | none => simp [rowToTask, datetimeToIso, hupdated, hrow]
  | some d =>
    have hd : d.InRange := hstarted d hrow
    simp [rowToTask, datetimeToIso, hupdated, hrow, hd]

theorem mapM_rowToTask {rows : List (TaskRow ρ)}
    (h : ∀ row ∈ rows, row.updatedAt.InRange ∧ ∀ d ∈ row.startedAt, d.InRange) :
    ∃ items, rows.mapM rowToTask = some items := by
  induction rows with
  | nil => exact ⟨[], rfl⟩
  | cons row rows ih =>
    obtain ⟨item, hitem⟩ := rowToTask_printed (h row List.mem_cons_self)
    obtain ⟨items, hitems⟩ := ih fun row hrow => h row (List.mem_cons_of_mem _ hrow)
    rw [List.mapM_cons, hitem, hitems]
    exact ⟨item :: items, rfl⟩

theorem printed_instants {rows : List (TaskRow ρ)} {items : List (TaskItem ρ)}
    (h : rows.mapM rowToTask = some items) :
    items.map TaskItem.updatedAt = rows.map fun row => row.updatedAt.instant := by
  induction rows generalizing items with
  | nil =>
    obtain rfl : items = [] := (Option.some.inj h).symm
    rfl
  | cons row rows ih =>
    rw [List.mapM_cons] at h
    obtain ⟨item, hitem, h⟩ := Option.bind_eq_some_iff.mp h
    obtain ⟨rest, hrest, h⟩ := Option.bind_eq_some_iff.mp h
    obtain rfl : items = item :: rest := (Option.some.inj h).symm
    have hinstant : item.updatedAt = row.updatedAt.instant := by
      unfold rowToTask datetimeToIso at hitem
      split_ifs at hitem with hrange
      · split at hitem
        · next hsome hnone =>
          obtain rfl := Option.some.inj hitem
          exact (Option.some.inj hsome).symm
        · next hsome hstarted =>
          obtain rfl := Option.some.inj hitem
          exact (Option.some.inj hsome).symm
        · cases hitem
    rw [List.map_cons, List.map_cons, hinstant, ih hrest]

/-- `list_tasks` and `list_history` return rows in descending order of their instants. -/
structure NewestFirst (column : DateTime → κ) (collation : String → ι) (db : Tables ρ) : Prop where
  tasks : ∀ taskKind userId limit, ∃ items,
    listTasks column collation taskKind userId limit db = some items ∧
      items.Pairwise fun a b => b.updatedAt ≤ a.updatedAt
  history : ∀ historyKind userId limit,
    (listHistory column historyKind userId limit db).Pairwise fun a b => b.timestamp ≤ a.timestamp

theorem Ordered.newestFirst (h : Ordered column db) : NewestFirst column collation db where
  tasks taskKind userId limit := by
    unfold listTasks
    split_ifs with hkind
    · exact ⟨[], rfl, .nil⟩
    have hlisted : ∀ row ∈ db.tasks.filter (TaskRow.isListed taskKind userId),
        row ∈ db.tasks ∧ row.taskKind = taskKind := by
      intro row hrow
      have hmem := List.mem_filter.mp hrow
      simp only [TaskRow.isListed, decide_eq_true_eq] at hmem
      exact ⟨hmem.1, hmem.2.1⟩
    have hprinted : ∀ row ∈ selectTop (fun row => column row.updatedAt)
        (fun row => collation row.taskId) (safeLimit 50 2000 limit)
        (db.tasks.filter (TaskRow.isListed taskKind userId)),
        row.updatedAt.InRange ∧ ∀ d ∈ row.startedAt, d.InRange :=
      fun row hrow => h.printed row (hlisted row (mem_of_mem_selectTop hrow)).1
    obtain ⟨items, hitems⟩ := mapM_rowToTask hprinted
    refine ⟨items, hitems, ?_⟩
    rw [← List.pairwise_map (f := TaskItem.updatedAt) (R := fun a b => b ≤ a),
      printed_instants hitems, List.pairwise_map]
    apply selectTop_sorted_by
    intro a ha b hb hle
    obtain ⟨hamem, hakind⟩ := hlisted a ha
    obtain ⟨hbmem, hbkind⟩ := hlisted b hb
    exact (h.tasks a hamem b hbmem (hakind.trans hbkind.symm)).2 hle
  history historyKind userId limit := by
    unfold listHistory
    by_cases hkind : historyKind = ""
    · rw [if_pos hkind]
      exact .nil
    rw [if_neg hkind, List.pairwise_map]
    refine selectTop_sorted_by fun a ha b hb hle => ?_
    simp only [List.mem_filter, HistoryRow.isListed, decide_eq_true_eq] at ha hb
    rw [h.stamped a ha.1, h.stamped b hb.1]
    exact (h.history a ha.1 b hb.1 (ha.2.1.trans hb.2.1.symm)).2 hle

/-! ### What a call preserves -/

/-- The timestamps of a call stand in the order of their instants with the stored ones of its kind,
`fits` saying so of two timestamps, and those to be printed in UTC have a UTC datetime. -/
def Call.Fits (fits : DateTime → DateTime → Prop) (db : Tables ρ) : Call ρ → Prop
  | .upsertTask taskKind state now => state.accepted taskKind →
      (state.row taskKind now).updatedAt.InRange ∧
      (∀ d ∈ (state.row taskKind now).startedAt, d.InRange) ∧
      ∀ old ∈ db.tasks, old.taskKind = taskKind → old.taskId ≠ strip state.taskId →
        fits old.updatedAt (state.row taskKind now).updatedAt
  | .appendHistory historyKind userId record _ now => historyKind ≠ "" → userId ≠ "" →
      (record.timestamp = none → (record.eventTime now).InRange) ∧
      ∀ old ∈ db.history, old.historyKind = historyKind → fits old.eventTime (record.eventTime now)

theorem mem_insertTask {row x : TaskRow ρ} {rows : List (TaskRow ρ)} (h : x ∈ insertTask row rows) :
    (x ∈ rows ∧ row.conflicts x = false) ∨
      (x.taskKind = row.taskKind ∧ x.updatedAt = row.updatedAt ∧
        (x.startedAt = row.startedAt ∨ ∃ old ∈ rows, x.startedAt = old.startedAt)) := by
  unfold insertTask at h
  split_ifs at h with hany
  · obtain ⟨old, hold, rfl⟩ := List.mem_map.mp h
    by_cases hconflict : row.conflicts old = true
    · rw [if_pos hconflict]
      refine .inr ⟨rfl, rfl, ?_⟩
      cases hstarted : old.startedAt with
      | none => exact .inl rfl
      | some d => exact .inr ⟨old, hold, hstarted.symm⟩
    · rw [if_neg hconflict]
      exact .inl ⟨hold, by simpa using hconflict⟩
  · rcases List.mem_append.mp h with h | h
    · refine .inl ⟨h, ?_⟩
      have hnone := List.any_eq_false.mp (by simpa using hany) x h
      simpa using hnone
    · obtain rfl := List.mem_singleton.mp h
      exact .inr ⟨rfl, rfl, .inl rfl⟩

theorem Ordered.upsertTask {fits : DateTime → DateTime → Prop}
    (follows : ∀ a b, fits a b → Follows column a b) (h : Ordered column db) {taskKind : String}
    {state : TaskState ρ} {now : Clock} (ok : (Call.upsertTask taskKind state now).Fits fits db) :
    Ordered column (upsertTask taskKind state now db).1 := by
  unfold TaskStorage.upsertTask
  split_ifs with haccepted
  · obtain ⟨hrange, hstarted, hfits⟩ := ok haccepted
    have hold : ∀ x ∈ db.tasks, (state.row taskKind now).conflicts x = false →
        x.taskKind = taskKind → Follows column x.updatedAt (state.row taskKind now).updatedAt := by
      intro x hx hconflict hkind
      apply follows
      apply hfits x hx hkind
      intro hid
      have htrue : (state.row taskKind now).conflicts x = true := by
        simp [TaskRow.conflicts, TaskState.row, hkind, hid]
      rw [htrue] at hconflict
      cases hconflict
    refine ⟨?_, ?_, h.history, h.stamped, h.ids⟩
    · intro a ha b hb hkind
      rcases mem_insertTask ha with ⟨ha, haconf⟩ | ⟨hak, hau, -⟩
      · rcases mem_insertTask hb with ⟨hb, -⟩ | ⟨hbk, hbu, -⟩
        · exact h.tasks a ha b hb hkind
        · rw [hbu]
          exact hold a ha haconf (hkind.trans hbk)
      · rcases mem_insertTask hb with ⟨hb, hbconf⟩ | ⟨hbk, hbu, -⟩
        · rw [hau]
          exact (hold b hb hbconf (hkind.symm.trans hak)).symm
        · rw [hau, hbu]
          exact .refl _
    · intro x hx
      rcases mem_insertTask hx with ⟨hx, -⟩ | ⟨-, hu, hs | ⟨old, hmem, hs⟩⟩
      · exact h.printed x hx
      · rw [hu, hs]
        exact ⟨hrange, hstarted⟩
      · rw [hu, hs]
        exact ⟨hrange, (h.printed old hmem).2⟩
  · exact h

/-- The rows a call of `append_history` decides among: those of the user, and the new one. -/
def Keeps (db db' : Tables ρ) : Call ρ → Prop
  | .upsertTask _ _ _ => True
  | .appendHistory historyKind userId record maxRecords now => historyKind ≠ "" → userId ≠ "" →
      ∃ row : HistoryRow ρ, row.isOf historyKind userId ∧ row.eventTime = record.eventTime now ∧
        row.payload = record.payload ∧
        TopOf (fun row => row.eventTime.instant) (safeLimit 500 5000 maxRecords)
          (db'.history.filter (HistoryRow.isOf historyKind userId))
          (db.history.filter (HistoryRow.isOf historyKind userId) ++ [row])

section Append
variable {fits : DateTime → DateTime → Prop} {historyKind userId : String} {record : HistoryRecord ρ}
variable {maxRecords : ℤ} {now : Clock}

/-- The rows before the trim. -/
structure Inserted (column : DateTime → κ) (db : Tables ρ) (row : HistoryRow ρ) : Prop where
  follows : ∀ a ∈ db.history ++ [row], ∀ b ∈ db.history ++ [row], a.historyKind = b.historyKind →
    Follows column a.eventTime b.eventTime
  stamped : ∀ x ∈ db.history ++ [row], x.timestamp = x.eventTime.instant
  ids : ((db.history ++ [row]).map HistoryRow.id).Nodup

theorem Ordered.inserted (follows : ∀ a b, fits a b → Follows column a b) (h : Ordered column db)
    {timestamp : ℤ} (hstamp : record.stamp now = some timestamp)
    (hfits : ∀ old ∈ db.history, old.historyKind = historyKind →
      fits old.eventTime (record.eventTime now)) :
    Inserted column db (record.row historyKind userId now timestamp db.history) where
  follows a ha b hb hkind := by
    rcases List.mem_append.mp ha with ha | ha
    · rcases List.mem_append.mp hb with hb | hb
      · exact h.history a ha b hb hkind
      · obtain rfl := List.mem_singleton.mp hb
        exact follows _ _ (hfits a ha hkind)
    · obtain rfl := List.mem_singleton.mp ha
      rcases List.mem_append.mp hb with hb | hb
      · exact (follows _ _ (hfits b hb hkind.symm)).symm
      · obtain rfl := List.mem_singleton.mp hb
        exact .refl _
  stamped x hx := by
    rcases List.mem_append.mp hx with hx | hx
    · exact h.stamped x hx
    · obtain rfl := List.mem_singleton.mp hx
      exact stamp_eq hstamp
  ids := by
    rw [List.map_append, List.nodup_append]
    refine ⟨h.ids, by simp, ?_⟩
    intro a ha b hb
    obtain rfl : b = nextId (db.history.map HistoryRow.id) := by simpa [HistoryRecord.row] using hb
    exact (lt_nextId ha).ne

theorem mem_trimHistory {keep : ℕ} {rows : List (HistoryRow ρ)} {x : HistoryRow ρ}
    (h : x ∈ trimHistory column historyKind userId keep rows) : x ∈ rows :=
  List.mem_of_mem_filter h

theorem Inserted.trimmed {row : HistoryRow ρ} {keep : ℕ} (h : Inserted column db row)
    (hold : Ordered column db) :
    Ordered column { db with
      history := trimHistory column historyKind userId keep (db.history ++ [row]) } where
  tasks := hold.tasks
  printed := hold.printed
  history a ha b hb := h.follows a (mem_trimHistory ha) b (mem_trimHistory hb)
  stamped x hx := h.stamped x (mem_trimHistory hx)
  ids := h.ids.sublist (List.filter_sublist.map _)

theorem Inserted.top {row : HistoryRow ρ} {keep : ℕ} (h : Inserted column db row)
    (hrow : row.isOf historyKind userId) :
    TopOf (fun row => row.eventTime.instant) keep
      ((trimHistory column historyKind userId keep (db.history ++ [row])).filter
        (HistoryRow.isOf historyKind userId))
      (db.history.filter (HistoryRow.isOf historyKind userId) ++ [row]) := by
  have hrows : (db.history ++ [row]).filter (HistoryRow.isOf historyKind userId) =
      db.history.filter (HistoryRow.isOf historyKind userId) ++ [row] := by
    rw [List.filter_append, List.filter_singleton, hrow, cond_true]
  have hkept : ((trimHistory column historyKind userId keep (db.history ++ [row])).filter
      (HistoryRow.isOf historyKind userId)).Perm
      (selectTop (fun row => column row.eventTime) HistoryRow.id keep
        ((db.history ++ [row]).filter (HistoryRow.isOf historyKind userId))) :=
    filter_delete_perm h.ids selectTop_subperm
  rw [← hrows]
  refine TopOf.perm_left ?_ hkept.symm
  apply selectTop_top.by_key
  intro a ha b hb hle
  simp only [List.mem_filter, HistoryRow.isOf, decide_eq_true_eq] at ha hb
  exact (h.follows a ha.1 b hb.1 (ha.2.1.trans hb.2.1.symm)).2 hle

theorem Ordered.appendHistory (follows : ∀ a b, fits a b → Follows column a b) (h : Ordered column db)
    (ok : (Call.appendHistory historyKind userId record maxRecords now).Fits fits db) :
    Ordered column
        ((Call.appendHistory historyKind userId record maxRecords now).run column db) ∧
      Keeps db ((Call.appendHistory historyKind userId record maxRecords now).run column db)
        (.appendHistory historyKind userId record maxRecords now) := by
  simp only [Call.run, TaskStorage.appendHistory]
  split_ifs with hempty
  · refine ⟨h, fun hkind huser => ?_⟩
    rcases hempty with hempty | hempty
    · exact absurd hempty hkind
    · exact absurd hempty huser
  obtain ⟨hkind, huser⟩ := not_or.mp hempty
  obtain ⟨hrange, hfits⟩ := ok hkind huser
  obtain ⟨timestamp, hstamp⟩ : ∃ timestamp, record.stamp now = some timestamp := by
    unfold HistoryRecord.stamp
    cases hgiven : record.timestamp with
    | some given => exact ⟨_, rfl⟩
    | none => exact ⟨_, if_pos (hrange hgiven)⟩
  have hinserted : Inserted column db (record.row historyKind userId now timestamp db.history) :=
    h.inserted follows hstamp hfits
  have hrow : (record.row historyKind userId now timestamp db.history).isOf historyKind userId := by
    simp [HistoryRow.isOf, HistoryRecord.row]
  rw [hstamp]
  exact ⟨hinserted.trimmed h, fun _ _ => ⟨_, hrow, rfl, rfl, hinserted.top hrow⟩⟩

end Append

/-! ### Whole runs -/

/-- The calls of a run all fit the tables they find. -/
def FitRun (column : DateTime → κ) (fits : DateTime → DateTime → Prop) :
    Tables ρ → List (Call ρ) → Prop
  | _, [] => True
  | db, call :: calls => call.Fits fits db ∧ FitRun column fits (call.run column db) calls

theorem Ordered.run {fits : DateTime → DateTime → Prop}
    (follows : ∀ a b, fits a b → Follows column a b) (h : Ordered column db) {call : Call ρ}
    (ok : call.Fits fits db) :
    Ordered column (call.run column db) ∧ Keeps db (call.run column db) call := by
  cases call with
  | upsertTask taskKind state now => exact ⟨h.upsertTask follows ok, trivial⟩
  | appendHistory historyKind userId record maxRecords now => exact h.appendHistory follows ok

theorem Ordered.runCalls {fits : DateTime → DateTime → Prop}
    (follows : ∀ a b, fits a b → Follows column a b) (h : Ordered column db) {calls : List (Call ρ)}
    (ok : FitRun column fits db calls) : Ordered column (runCalls column db calls) := by
  induction calls generalizing db with
  | nil => exact h
  | cons call calls ih => exact ih (h.run follows ok.1).1 ok.2

theorem FitRun.append {fits : DateTime → DateTime → Prop} {before after : List (Call ρ)}
    (ok : FitRun column fits db (before ++ after)) :
    FitRun column fits db before ∧ FitRun column fits (runCalls column db before) after := by
  induction before generalizing db with
  | nil => exact ⟨trivial, ok⟩
  | cons call before ih =>
    obtain ⟨hbefore, hafter⟩ := ih ok.2
    exact ⟨⟨ok.1, hbefore⟩, hafter⟩

/-- In every state of the run the lists are newest first, and every append keeps the newest. -/
def RunsNewestFirst (column : DateTime → κ) (collation : String → ι) (calls : List (Call ρ)) : Prop :=
  (∀ before after, calls = before ++ after →
    NewestFirst column collation (runCalls column Tables.empty before)) ∧
  ∀ before call after, calls = before ++ call :: after →
    Keeps (runCalls column Tables.empty before) (runCalls column Tables.empty (before ++ [call])) call

theorem runs_newest_first {fits : DateTime → DateTime → Prop}
    (follows : ∀ a b, fits a b → Follows column a b) {calls : List (Call ρ)}
    (ok : FitRun column fits Tables.empty calls) : RunsNewestFirst column collation calls := by
  constructor
  · rintro before after rfl
    exact (Ordered.start.runCalls follows ok.append.1).newestFirst
  · rintro before call after rfl
    obtain ⟨hbefore, hcall, -⟩ := ok.append
    have hkept := ((Ordered.start.runCalls follows hbefore).run follows hcall).2
    have hlast : runCalls column Tables.empty (before ++ [call]) =
        call.run column (runCalls column Tables.empty before) := by
      rw [runCalls, List.foldl_append]
      rfl
    rw [hlast]
    exact hkept

/-! ### The two adapters -/

theorem agrees_follows {a b : DateTime} (h : a.Agrees b) : Follows DateTime.isoformat a b :=
  ⟨h.instant_le, h.symm.instant_le⟩

/-- The instants of PostgreSQL need no condition but that they can be printed. -/
theorem postgres_newest_first {calls : List (Call ρ)}
    (ok : FitRun DateTime.instant (fun _ _ => True) Tables.empty calls) :
    RunsNewestFirst DateTime.instant collation calls :=
  runs_newest_first (fun _ _ _ => ⟨id, id⟩) ok

theorem sqlite_newest_first {calls : List (Call ρ)}
    (ok : FitRun DateTime.isoformat DateTime.Agrees Tables.empty calls) :
    RunsNewestFirst DateTime.isoformat (fun text => text) calls :=
  runs_newest_first (fun _ _ => agrees_follows) ok

/-- Where a kind fits into one list, a newest-first list asks of all its rows that they agree. -/
theorem agrees_of_newestFirst (h : NewestFirst DateTime.isoformat collation db) {taskKind : String}
    (hkind : taskKind ≠ "") (few : db.tasks.length ≤ 2000) {a b : TaskRow ρ} (ha : a ∈ db.tasks)
    (hb : b ∈ db.tasks) (hakind : a.taskKind = taskKind) (hbkind : b.taskKind = taskKind) :
    a.updatedAt.Agrees b.updatedAt := by
  obtain ⟨items, hitems, hsorted⟩ := h.tasks taskKind "" 2000
  rw [listTasks, if_neg hkind] at hitems
  rw [← List.pairwise_map (f := TaskItem.updatedAt) (R := fun a b => b ≤ a),
    printed_instants hitems, List.pairwise_map] at hsorted
  have hall : ∀ row ∈ db.tasks, row.taskKind = taskKind →
      row ∈ selectTop (fun row => row.updatedAt.isoformat) (fun row => collation row.taskId)
        (safeLimit 50 2000 2000) (db.tasks.filter (TaskRow.isListed taskKind "")) := by
    intro row hrow hrowkind
    have hfew : (db.tasks.filter (TaskRow.isListed taskKind "")).length ≤ safeLimit 50 2000 2000 :=
      (List.length_filter_le _ _).trans few
    rw [(selectTop_perm hfew).mem_iff, List.mem_filter]
    exact ⟨hrow, by simp [TaskRow.isListed, hrowkind]⟩
  rw [DateTime.agrees_iff]
  exact ⟨value_le_of_key_lt hsorted (hall a ha hakind) (hall b hb hbkind),
    value_le_of_key_lt hsorted (hall b hb hbkind) (hall a ha hakind)⟩

/-! ### Two offsets -/

/-- The first of January 2024, at a full hour. -/
def newYear (hour : Fin 24) : Clock where
  year := 2024
  month := 1
  day := 1
  hour := hour
  minute := 0
  second := 0
  microsecond := 0
  year_range := by decide
  month_range := by decide
  day_range := by decide
  hour_lt := hour.2
  minute_lt := by decide
  second_lt := by decide
  microsecond_lt := by decide

/-- `+08:00`. -/
def shanghai : Offset := ⟨8 * 3600 * 10 ^ 6, by decide⟩

/-- A task of one user, last updated at the given time. -/
def oneTask (taskId : String) (updatedAt : Parsed) : TaskState Unit where
  taskId := taskId
  userId := "u"
  status := "running"
  message := ""
  startedAt := none
  createdAt := none
  updatedAt := some updatedAt
  payload := ()

def tenInShanghai : TaskState Unit := oneTask "a" ⟨newYear 10, some shanghai⟩
def fiveInUtc : TaskState Unit := oneTask "b" ⟨newYear 5, none⟩

/-- Ten o'clock in Shanghai is before five o'clock UTC. -/
theorem earlier_task_listed_first :
    ¬ RunsNewestFirst DateTime.isoformat (fun text => text)
      [.upsertTask "learning" tenInShanghai (newYear 12),
        .upsertTask "learning" fiveInUtc (newYear 12)] := by
  intro h
  have hlists := h.1 _ [] (List.append_nil _).symm
  have htasks : (runCalls DateTime.isoformat Tables.empty
      [.upsertTask "learning" tenInShanghai (newYear 12),
        .upsertTask "learning" fiveInUtc (newYear 12)]).tasks =
      [tenInShanghai.row "learning" (newYear 12), fiveInUtc.row "learning" (newYear 12)] := rfl
  have hagrees : (tenInShanghai.row "learning" (newYear 12)).updatedAt.Agrees
      (fiveInUtc.row "learning" (newYear 12)).updatedAt := by
    apply agrees_of_newestFirst hlists (show "learning" ≠ "" by decide)
    · rw [htasks]
      decide
    · simp [htasks]
    · simp [htasks]
    · rfl
    · rfl
  revert hagrees
  decide

/-- At one offset the later of two timestamps comes first. -/
theorem sqlite_newest_first_oneOffset :
    RunsNewestFirst DateTime.isoformat (fun text => text)
      [.upsertTask "learning" tenInShanghai (newYear 12),
        .upsertTask "learning" (oneTask "b" ⟨newYear 5, some shanghai⟩) (newYear 12)] := by
  apply sqlite_newest_first
  refine ⟨fun _ => ⟨by decide, by decide, ?_⟩, fun _ => ⟨by decide, by decide, ?_⟩, trivial⟩
  · intro old hold
    cases hold
  · intro old hold _ _
    obtain rfl := List.mem_singleton.mp hold
    exact DateTime.agrees_of_offset_eq rfl

end UniversityHelper.TaskStorage
