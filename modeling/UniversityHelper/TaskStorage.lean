import UniversityHelper.OrderBy
import UniversityHelper.PythonText
import UniversityHelper.Timestamp

/-! The two storage adapters for tasks and histories. They differ in what a timestamp column holds:
SQLite the text of `isoformat`, PostgreSQL the instant. -/
namespace UniversityHelper.TaskStorage
variable {ρ κ ι : Type*} [LinearOrder κ] [LinearOrder ι]

/-- What `datetime.fromisoformat` reads from a text, or the datetime that is given. -/
structure Parsed where
  clock : Clock
  tzinfo : Option Offset

/-- `_parse_datetime`; a timestamp that is missing or empty is `none`. -/
def parseDatetime (value : Option Parsed) : Option DateTime :=
  value.map fun parsed => ⟨parsed.clock, parsed.tzinfo.getD UTC⟩

/-- `_datetime_to_iso`: the text in UTC, as the instant it denotes. There is none when
`astimezone` raises `OverflowError`. -/
def datetimeToIso (value : DateTime) : Option ℤ := if value.InRange then some value.instant else none

/-- `max(1, min(int(limit or default), cap))`. -/
def safeLimit (default cap limit : ℤ) : ℕ :=
  (max 1 (min (if limit = 0 then default else limit) cap)).toNat

/-- `task_state_public`; `payload` is what `_normalize_json` makes of it. -/
structure TaskState (ρ : Type*) where
  taskId : String
  userId : String
  status : String
  message : String
  startedAt : Option Parsed
  createdAt : Option Parsed
  updatedAt : Option Parsed
  payload : ρ

/-- A row of `course_task_store`. -/
structure TaskRow (ρ : Type*) where
  taskId : String
  userId : String
  taskKind : String
  status : String
  message : String
  startedAt : Option DateTime
  updatedAt : DateTime
  payload : ρ

/-- What `append_history` gets; `payload` is what `_normalize_json` makes of it. -/
structure HistoryRecord (ρ : Type*) where
  status : String
  message : String
  timestamp : Option Parsed
  updatedAt : Option Parsed
  payload : ρ

/-- A row of `course_task_history`; `timestamp` is the instant that the text at
`payload["timestamp"]` denotes. -/
structure HistoryRow (ρ : Type*) where
  id : ℕ
  historyKind : String
  userId : String
  status : String
  message : String
  eventTime : DateTime
  timestamp : ℤ
  payload : ρ

structure Tables (ρ : Type*) where
  tasks : List (TaskRow ρ)
  history : List (HistoryRow ρ)

def Tables.empty : Tables ρ := ⟨[], []⟩

/-! ### Tasks -/

/-- Whether `upsert_task` gets as far as the table. -/
def TaskState.accepted (taskKind : String) (state : TaskState ρ) : Bool :=
  taskKind ≠ "" ∧ strip state.taskId ≠ "" ∧ strip state.userId ≠ ""

/-- The row `upsert_task` inserts at the time `now`. -/
def TaskState.row (taskKind : String) (now : Clock) (state : TaskState ρ) : TaskRow ρ :=
  let startedAt := parseDatetime (state.startedAt <|> state.createdAt)
  { taskId := strip state.taskId
    userId := strip state.userId
    taskKind := taskKind
    status := if state.status = "" then "pending" else state.status
    message := state.message
    startedAt := startedAt
    updatedAt := (parseDatetime state.updatedAt <|> startedAt).getD ⟨now, UTC⟩
    payload := state.payload }

/-- The conflict target: the primary key of the table. -/
def TaskRow.conflicts (row old : TaskRow ρ) : Bool :=
  old.taskKind = row.taskKind ∧ old.taskId = row.taskId

/-- `INSERT … ON CONFLICT (task_kind, task_id) DO UPDATE`. -/
def insertTask (row : TaskRow ρ) (rows : List (TaskRow ρ)) : List (TaskRow ρ) :=
  if rows.any row.conflicts then
    rows.map fun old =>
      if row.conflicts old then { row with startedAt := old.startedAt <|> row.startedAt } else old
  else rows ++ [row]

def upsertTask (taskKind : String) (state : TaskState ρ) (now : Clock) (db : Tables ρ) :
    Tables ρ × Bool :=
  if state.accepted taskKind then
    ({ db with tasks := insertTask (state.row taskKind now) db.tasks }, true)
  else (db, false)

/-- A task as `_row_to_task` returns it. -/
structure TaskItem (ρ : Type*) where
  taskId : String
  userId : String
  status : String
  message : String
  startedAt : Option ℤ
  updatedAt : ℤ
  payload : ρ

/-- `_row_to_task`; `none` is an `OverflowError`. -/
def rowToTask (row : TaskRow ρ) : Option (TaskItem ρ) :=
  match datetimeToIso row.updatedAt, row.startedAt.map datetimeToIso with
  | some updatedAt, none =>
    some ⟨row.taskId, row.userId, row.status, row.message, none, updatedAt, row.payload⟩
  | some updatedAt, some (some startedAt) =>
    some ⟨row.taskId, row.userId, row.status, row.message, some startedAt, updatedAt, row.payload⟩
  | _, _ => none

/-- `task_kind = ? AND user_id = ?`; no user stands for the users all. -/
def TaskRow.isListed (taskKind userId : String) (row : TaskRow ρ) : Bool :=
  row.taskKind = taskKind ∧ (userId = "" ∨ row.userId = userId)

/-- `list_tasks` of the adapter whose timestamp columns hold `column` and whose texts compare by
`collation`; `none` is an `OverflowError`. -/
def listTasks (column : DateTime → κ) (collation : String → ι) (taskKind userId : String) (limit : ℤ)
    (db : Tables ρ) : Option (List (TaskItem ρ)) :=
  if taskKind = "" then some []
  else
    (selectTop (fun row => column row.updatedAt) (fun row => collation row.taskId)
      (safeLimit 50 2000 limit) (db.tasks.filter (TaskRow.isListed taskKind userId))).mapM rowToTask

/-! ### Histories -/

def HistoryRecord.eventTime (record : HistoryRecord ρ) (now : Clock) : DateTime :=
  (parseDatetime record.timestamp <|> parseDatetime record.updatedAt).getD ⟨now, UTC⟩

/-- The instant of `payload["timestamp"]` after `append_history` has filled it in. -/
def HistoryRecord.stamp (record : HistoryRecord ρ) (now : Clock) : Option ℤ :=
  match parseDatetime record.timestamp with
  | some timestamp => some timestamp.instant
  | none => datetimeToIso (record.eventTime now)

def HistoryRow.isOf (historyKind userId : String) (row : HistoryRow ρ) : Bool :=
  row.historyKind = historyKind ∧ row.userId = userId

def HistoryRecord.row (record : HistoryRecord ρ) (historyKind userId : String) (now : Clock)
    (timestamp : ℤ) (rows : List (HistoryRow ρ)) : HistoryRow ρ :=
  { id := nextId (rows.map HistoryRow.id)
    historyKind := historyKind
    userId := userId
    status := record.status
    message := record.message
    eventTime := record.eventTime now
    timestamp := timestamp
    payload := record.payload }

/-- The `DELETE` of the rows beyond the first `keep` of a user. -/
def trimHistory (column : DateTime → κ) (historyKind userId : String) (keep : ℕ)
    (rows : List (HistoryRow ρ)) : List (HistoryRow ρ) :=
  let kept := selectTop (fun row => column row.eventTime) HistoryRow.id keep
    (rows.filter (HistoryRow.isOf historyKind userId))
  rows.filter fun row => ¬ (row.isOf historyKind userId ∧ row.id ∉ kept.map HistoryRow.id)

/-- `append_history`; `none` is an `OverflowError`, raised before anything is written. -/
def appendHistory (column : DateTime → κ) (historyKind userId : String) (record : HistoryRecord ρ)
    (maxRecords : ℤ) (now : Clock) (db : Tables ρ) : Option (Tables ρ) :=
  if historyKind = "" ∨ userId = "" then some db
  else
    (record.stamp now).map fun timestamp =>
      let row := record.row historyKind userId now timestamp db.history
      { db with
        history := trimHistory column historyKind userId (safeLimit 500 5000 maxRecords)
          (db.history ++ [row]) }

/-- A record as `list_history` returns it; `user_id` is added when no user was asked for. -/
structure HistoryItem (ρ : Type*) where
  userId : Option String
  timestamp : ℤ
  payload : ρ

def HistoryRow.isListed (historyKind userId : String) (row : HistoryRow ρ) : Bool :=
  row.historyKind = historyKind ∧ (userId = "" ∨ row.userId = userId)

def listHistory (column : DateTime → κ) (historyKind userId : String) (limit : ℤ) (db : Tables ρ) :
    List (HistoryItem ρ) :=
  if historyKind = "" then []
  else
    (selectTop (fun row => column row.eventTime) HistoryRow.id (safeLimit 500 5000 limit)
      (db.history.filter (HistoryRow.isListed historyKind userId))).map fun row =>
        ⟨if userId = "" then some row.userId else none, row.timestamp, row.payload⟩

/-! ### Runs -/

inductive Call (ρ : Type*)
  | upsertTask (taskKind : String) (state : TaskState ρ) (now : Clock)
  | appendHistory (historyKind userId : String) (record : HistoryRecord ρ) (maxRecords : ℤ)
      (now : Clock)

/-- The tables after a call; a call that raises leaves them as they are. -/
def Call.run (column : DateTime → κ) (db : Tables ρ) : Call ρ → Tables ρ
  | .upsertTask taskKind state now => (TaskStorage.upsertTask taskKind state now db).1
  | .appendHistory historyKind userId record maxRecords now =>
    (TaskStorage.appendHistory column historyKind userId record maxRecords now db).getD db

def runCalls (column : DateTime → κ) (db : Tables ρ) (calls : List (Call ρ)) : Tables ρ :=
  calls.foldl (Call.run column) db

end UniversityHelper.TaskStorage
