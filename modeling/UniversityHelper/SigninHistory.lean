import UniversityHelper.Machine
import UniversityHelper.PythonText

/-! The sign-in history of `ChaoxingSigninManager`: the per-user lists in memory, the table
`course_task_history` behind them, and the calls that move records between the two. -/
namespace UniversityHelper.SigninHistory

/-- A user id as the routes pass it on: stripped, and not empty. -/
structure UserId where
  text : String
  stripped : strip text = text
  nonempty : text ≠ ""
  deriving DecidableEq

variable {C τ ρ : Type*} [LinearOrder τ] [DecidableEq C]

/-- A history record; `fields` are the entries besides the timestamp. -/
structure HistoryRecord (τ ρ : Type*) where
  timestamp : τ
  fields : ρ
  deriving DecidableEq

/-- A row of `course_task_history` under the sign-in kind. -/
structure HistoryRow (τ ρ : Type*) where
  id : ℕ
  userId : UserId
  payload : HistoryRecord τ ρ
  deriving DecidableEq

def HistoryRow.eventTime (row : HistoryRow τ ρ) : τ := row.payload.timestamp

/-- `ORDER BY event_time DESC, id DESC`. -/
def listedBefore (a b : HistoryRow τ ρ) : Prop :=
  b.eventTime < a.eventTime ∨ b.eventTime = a.eventTime ∧ b.id ≤ a.id

instance : DecidableRel (listedBefore (τ := τ) (ρ := ρ)) :=
  fun _ _ => inferInstanceAs (Decidable (_ ∨ _ ∧ _))

def safeLimit (limit : ℕ) : ℕ := max 1 (min limit 5000)

def selectNewest (rows : List (HistoryRow τ ρ)) (limit : ℕ) : List (HistoryRow τ ρ) :=
  (rows.insertionSort listedBefore).take (safeLimit limit)

def ofUser (rows : List (HistoryRow τ ρ)) (user : UserId) : List (HistoryRow τ ρ) :=
  rows.filter fun row => row.userId = user

def nextRowId (rows : List (HistoryRow τ ρ)) : ℕ := (rows.map HistoryRow.id).foldr max 0 + 1

def insertRow (rows : List (HistoryRow τ ρ)) (user : UserId) (record : HistoryRecord τ ρ) :
    List (HistoryRow τ ρ) :=
  rows ++ [⟨nextRowId rows, user, record⟩]

/-- `append_history`: the INSERT, and the DELETE of what is beyond the newest `maxRecords`. -/
def appendHistory (rows : List (HistoryRow τ ρ)) (user : UserId) (record : HistoryRecord τ ρ)
    (maxRecords : ℕ) : List (HistoryRow τ ρ) :=
  let inserted := insertRow rows user record
  let kept := (selectNewest (ofUser inserted user) maxRecords).map HistoryRow.id
  inserted.filter fun row => ¬ (row.userId = user ∧ row.id ∉ kept)

def listHistory (rows : List (HistoryRow τ ρ)) (user : UserId) (limit : ℕ) :
    List (HistoryRecord τ ρ) :=
  (selectNewest (ofUser rows user) limit).map HistoryRow.payload

/-- `list_history` with no user: every record comes with its `user_id`. -/
def listAllHistory (rows : List (HistoryRow τ ρ)) (limit : ℕ) :
    List (UserId × HistoryRecord τ ρ) :=
  (selectNewest rows limit).map fun row => (row.userId, row.payload)

/-- `items = history.setdefault(user_id, [])`, `items.append(record)` and the trim to 500. -/
def appendItem (history : UserId → List (HistoryRecord τ ρ)) (user : UserId)
    (record : HistoryRecord τ ρ) : UserId → List (HistoryRecord τ ρ) :=
  Function.update history user (keepLast 500 (history user ++ [record]))

def restoreHistoryFromStore (rows : List (HistoryRow τ ρ)) : UserId → List (HistoryRecord τ ρ) :=
  (listAllHistory rows 1500).foldl (fun history item => appendItem history item.1 item.2)
    fun _ => []

/-- `sorted(records, key=timestamp, reverse=True)`, which keeps equal timestamps in their order. -/
def sortedHistory (records : List (HistoryRecord τ ρ)) : List (HistoryRecord τ ρ) :=
  records.insertionSort fun a b => b.timestamp ≤ a.timestamp

/-- Where a thread stands in `_append_history` or `get_history`. -/
inductive Call (τ ρ : Type*)
  | idle
  | appending (user : UserId) (record : HistoryRecord τ ρ)
  | persisting (user : UserId) (record : HistoryRecord τ ρ)
  | checking (user : UserId)
  | listing (user : UserId)
  | replacing (user : UserId) (cleaned : List (HistoryRecord τ ρ))
  | reading (user : UserId)
  | returned (records : List (HistoryRecord τ ρ))

def Call.inProgress : Call τ ρ → Bool
  | .idle => false
  | .returned _ => false
  | _ => true

/-- `recorded` is every record that was ever put into a user's list by `_append_history`. -/
structure State (C τ ρ : Type*) where
  rows : List (HistoryRow τ ρ)
  history : UserId → List (HistoryRecord τ ρ)
  loadedHistoryUsers : Finset UserId
  call : C → Call τ ρ
  recorded : UserId → List (HistoryRecord τ ρ)

def State.goto (s : State C τ ρ) (c : C) (next : Call τ ρ) : State C τ ρ :=
  { s with call := Function.update s.call c next }

inductive Action (C τ ρ : Type*)
  | callAppendHistory (c : C) (user : UserId) (record : HistoryRecord τ ρ)
  | append (c : C)
  | persist (c : C)
  | callGetHistory (c : C) (user : UserId)
  | checkLoaded (c : C)
  | list (c : C)
  | replace (c : C)
  | read (c : C)
  | restart

/-- Every step is one locked section or one call of the store; a restart drops the calls under
way and builds a new manager from the store. -/
def step (s : State C τ ρ) : Action C τ ρ → Option (State C τ ρ)
  | .callAppendHistory c user record =>
    if (s.call c).inProgress then none else some (s.goto c (.appending user record))
  | .append c =>
    match s.call c with
    | .appending user record =>
      some { s.goto c (.persisting user record) with
        history := appendItem s.history user record
        recorded := Function.update s.recorded user (s.recorded user ++ [record]) }
    | _ => none
  | .persist c =>
    match s.call c with
    | .persisting user record =>
      some { s.goto c .idle with rows := appendHistory s.rows user record 500 }
    | _ => none
  | .callGetHistory c user =>
    if (s.call c).inProgress then none else some (s.goto c (.checking user))
  | .checkLoaded c =>
    match s.call c with
    | .checking user =>
      some (s.goto c (if user ∈ s.loadedHistoryUsers then .reading user else .listing user))
    | _ => none
  | .list c =>
    match s.call c with
    | .listing user => some (s.goto c (.replacing user (listHistory s.rows user 500)))
    | _ => none
  | .replace c =>
    match s.call c with
    | .replacing user cleaned =>
      some { s.goto c (.reading user) with
        history := Function.update s.history user cleaned
        loadedHistoryUsers := insert user s.loadedHistoryUsers }
    | _ => none
  | .read c =>
    match s.call c with
    | .reading user => some (s.goto c (.returned (sortedHistory (s.history user))))
    | _ => none
  | .restart =>
    some { s with
      history := restoreHistoryFromStore s.rows
      loadedHistoryUsers := ∅
      call := fun _ => .idle }

def machine (C τ ρ : Type*) [LinearOrder τ] [DecidableEq C] :
    Machine (State C τ ρ) (Action C τ ρ) where
  start s := s.rows = [] ∧ (∀ user, s.history user = []) ∧ s.loadedHistoryUsers = ∅ ∧
    (∀ c, s.call c = .idle) ∧ ∀ user, s.recorded user = []
  step := step

/-- The steps of one `get_history` call that runs alone. -/
def getHistory (s : State C τ ρ) (c : C) (user : UserId) : List (Action C τ ρ) :=
  if user ∈ s.loadedHistoryUsers then [.callGetHistory c user, .checkLoaded c, .read c]
  else [.callGetHistory c user, .checkLoaded c, .list c, .replace c, .read c]

end UniversityHelper.SigninHistory
