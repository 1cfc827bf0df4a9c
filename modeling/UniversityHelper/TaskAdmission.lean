import UniversityHelper.OrderedDict
import UniversityHelper.PythonText
import UniversityHelper.Ranking

/-! The admission and in-memory retention rules the background-task managers share. -/
namespace UniversityHelper.TaskAdmission

/-- A point of time in microseconds since the epoch. -/
abbrev Instant := ℤ

/-- `other` is any other text a stored row may hold. -/
inductive TaskStatus
  | pending | running | paused | cancelling | stopping
  | completed | failed | cancelled | error
  | other (text : String)
  deriving DecidableEq, Repr

def TaskStatus.text : TaskStatus → String
  | .pending => "pending"
  | .running => "running"
  | .paused => "paused"
  | .cancelling => "cancelling"
  | .stopping => "stopping"
  | .completed => "completed"
  | .failed => "failed"
  | .cancelled => "cancelled"
  | .error => "error"
  | .other text => text

def activeTaskStatuses : List String := ["running", "pending", "paused", "cancelling", "stopping"]
def terminalTaskStatuses : List String := ["completed", "failed", "cancelled", "error"]
def maxActiveTasks : ℕ := 64
def maxTaskRecords : ℤ := 256
def taskRecordTtlSeconds : ℤ := 2 * 60 * 60

def isActiveStatus (status : TaskStatus) : Bool := lower (strip status.text) ∈ activeTaskStatuses
def isTerminalStatus (status : TaskStatus) : Bool :=
  lower (strip status.text) ∈ terminalTaskStatuses

theorem not_active_of_terminal {status : TaskStatus} (h : isTerminalStatus status = true) :
    isActiveStatus status = false := by
  simp only [isTerminalStatus, terminalTaskStatuses, List.mem_cons, List.not_mem_nil, or_false,
    decide_eq_true_eq] at h
  rw [isActiveStatus, decide_eq_false_iff_not]
  rcases h with h | h | h | h <;> rw [h] <;> decide

/-- A time field of a record: `blank` is a present but falsy value and `unreadable` one that
does not parse as a datetime. -/
inductive TimeField
  | absent
  | blank
  | unreadable
  | at (instant : Instant)
  deriving DecidableEq, Repr

/-- `_parse_datetime`. -/
def TimeField.parse : TimeField → Option Instant
  | .at t => some t
  | .absent | .blank | .unreadable => none

/-- `field or value`. -/
def TimeField.or (field : TimeField) (value : Instant) : TimeField :=
  match field with
  | .absent | .blank => .at value
  | .unreadable => .unreadable
  | .at t => .at t

/-- `task.setdefault(key, value)`. -/
def TimeField.setDefault (field value : TimeField) : TimeField :=
  if field = .absent then value else field

structure TaskTimes where
  updatedAt : TimeField
  startedAt : TimeField
  createdAt : TimeField
  startTime : TimeField
  deriving DecidableEq, Repr

/-- `datetime.min` in UTC, which stands for a task without a readable time. -/
def minUtcDatetime : Instant := -62135596800000000

def taskDatetime (times : TaskTimes) : Instant :=
  ((((times.updatedAt.parse.or times.startedAt.parse).or times.createdAt.parse).or
    times.startTime.parse).getD minUtcDatetime)

def taskTimestamp (times : TaskTimes) : Option Instant :=
  if taskDatetime times = minUtcDatetime then none else some (taskDatetime times)

/-- The part of a task record that the retention rules read. -/
class Retained (ρ : Type*) where
  status : ρ → TaskStatus
  times : ρ → TaskTimes

section retention
variable {ρ : Type*} [Retained ρ]
open Retained

def countActiveTasks (tasks : OrderedDict String ρ) : ℕ :=
  tasks.values.countP fun task => isActiveStatus (status task)

/-- A terminal record whose known time lies before the cutoff. -/
def expired (now ttlSeconds : ℤ) (task : ρ) : Bool :=
  isTerminalStatus (status task) &&
    (taskTimestamp (times task)).any fun t => t < now - max 0 ttlSeconds * 1000000

/-- `(timestamp, task_id)`, minus infinity standing for an unknown time. -/
abbrev EvictionKey := (WithBot Instant) ×ₗ String

def evictionKey (e : String × ρ) : EvictionKey :=
  toLex ((taskTimestamp (times e.2) : WithBot Instant), e.1)

def evictable (tasks : OrderedDict String ρ) : List EvictionKey :=
  (tasks.entries.filter fun e => !isActiveStatus (status e.2)).map evictionKey

/-- The first loop of `cleanup_task_records`. -/
def dropExpired (tasks : OrderedDict String ρ) (now ttlSeconds : ℤ) : OrderedDict String ρ :=
  tasks.filter fun e => !expired now ttlSeconds e.2

/-- The rest of `cleanup_task_records`: at most `maxRecords` records stay, the oldest
non-active ones going first. -/
def evictOverflow (tasks : OrderedDict String ρ) (maxRecords : ℤ) : OrderedDict String ρ :=
  let overflow := tasks.size - max 1 maxRecords
  let evicted := ((evictable tasks).insertionSort (· ≤ ·)).take overflow.toNat
  tasks.filter fun e => e.1 ∉ evicted.map fun key => (ofLex key).2

def cleanupTaskRecords (tasks : OrderedDict String ρ) (now ttlSeconds maxRecords : ℤ) :
    OrderedDict String ρ :=
  evictOverflow (dropExpired tasks now ttlSeconds) maxRecords

/-- The clean-up with the limits every manager uses. -/
def cleanup (tasks : OrderedDict String ρ) (now : Instant) : OrderedDict String ρ :=
  cleanupTaskRecords tasks now taskRecordTtlSeconds maxTaskRecords

theorem evictable_ids (tasks : OrderedDict String ρ) :
    ((evictable tasks).map fun key => (ofLex key).2).Sublist tasks.keys := by
  have hmap : (evictable tasks).map (fun key => (ofLex key).2) =
      (tasks.entries.filter fun e => !isActiveStatus (status e.2)).map Prod.fst := by
    rw [evictable, List.map_map]
    rfl
  rw [hmap]
  exact List.filter_sublist.map Prod.fst

theorem evictable_nodup (tasks : OrderedDict String ρ) : (evictable tasks).Nodup :=
  (tasks.distinct.sublist (evictable_ids tasks)).of_map _

theorem mem_evictable {tasks : OrderedDict String ρ} {k : String} {task : ρ}
    (h : tasks.get k = some task) :
    evictionKey (k, task) ∈ evictable tasks ↔ isActiveStatus (status task) = false := by
  simp only [evictable, List.mem_map, List.mem_filter, Bool.not_eq_true', Prod.exists]
  constructor
  · rintro ⟨j, other, ⟨hmem, hactive⟩, hkey⟩
    have hj : j = k := congrArg (fun key => (ofLex key).2) hkey
    subst hj
    rw [← OrderedDict.get_eq_some, h, Option.some_inj] at hmem
    exact hmem ▸ hactive
  · intro hactive
    exact ⟨k, task, ⟨OrderedDict.get_eq_some.mp h, hactive⟩, rfl⟩

/-- The record at `k` is among the `overflow` oldest non-active ones. -/
def Overflowing (tasks : OrderedDict String ρ) (maxRecords : ℤ) (k : String) (task : ρ) : Prop :=
  isActiveStatus (status task) = false ∧
    (rank (evictable tasks) (evictionKey (k, task)) : ℤ) < tasks.size - max 1 maxRecords

theorem get_dropExpired (tasks : OrderedDict String ρ) (now ttlSeconds : ℤ) (k : String) :
    (dropExpired tasks now ttlSeconds).get k =
      (tasks.get k).filter fun task => !expired now ttlSeconds task :=
  OrderedDict.get_filter _ _ _

theorem get_evictOverflow {tasks : OrderedDict String ρ} {maxRecords : ℤ} {k : String} {task : ρ} :
    (evictOverflow tasks maxRecords).get k = some task ↔
      tasks.get k = some task ∧ ¬ Overflowing tasks maxRecords k task := by
  simp only [evictOverflow, OrderedDict.get_filter, Option.filter_eq_some_iff, decide_eq_true_eq]
  refine and_congr_right fun h => not_congr ?_
  set n := (tasks.size - max 1 maxRecords : ℤ).toNat with hn
  have hid : k ∈ (((evictable tasks).insertionSort (· ≤ ·)).take n).map (fun key => (ofLex key).2) ↔
      evictionKey (k, task) ∈ ((evictable tasks).insertionSort (· ≤ ·)).take n := by
    constructor
    · intro hmem
      obtain ⟨key, hkey, rfl⟩ := List.mem_map.mp hmem
      have hev := List.mem_of_mem_take hkey
      rw [(List.perm_insertionSort (· ≤ ·) _).mem_iff, evictable] at hev
      obtain ⟨⟨j, other⟩, hentry, rfl⟩ := List.mem_map.mp hev
      have hget := OrderedDict.get_eq_some.mpr (List.mem_filter.mp hentry).1
      have hsame : other = task := Option.some_inj.mp (hget.symm.trans h)
      exact hsame ▸ hkey
    · intro hmem
      exact List.mem_map.mpr ⟨_, hmem, rfl⟩
  rw [hid, mem_take_insertionSort (evictable_nodup tasks), mem_evictable h, Overflowing]
  refine and_congr_right fun _ => ?_
  omega

theorem get_cleanupTaskRecords {tasks : OrderedDict String ρ} {now ttlSeconds maxRecords : ℤ}
    {k : String} {task : ρ} :
    (cleanupTaskRecords tasks now ttlSeconds maxRecords).get k = some task ↔
      tasks.get k = some task ∧ expired now ttlSeconds task = false ∧
        ¬ Overflowing (dropExpired tasks now ttlSeconds) maxRecords k task := by
  rw [cleanupTaskRecords, get_evictOverflow, get_dropExpired, Option.filter_eq_some_iff, and_assoc]
  simp

theorem active_retained {tasks : OrderedDict String ρ} {now ttlSeconds maxRecords : ℤ}
    {k : String} {task : ρ} (h : tasks.get k = some task)
    (active : isActiveStatus (status task) = true) :
    (cleanupTaskRecords tasks now ttlSeconds maxRecords).get k = some task := by
  refine get_cleanupTaskRecords.mpr ⟨h, ?_, fun ho => ?_⟩
  · by_contra hexp
    simp only [expired, Bool.not_eq_false, Bool.and_eq_true] at hexp
    rw [not_active_of_terminal hexp.1] at active
    cases active
  · rw [ho.1] at active
    cases active

/-- A second clean-up at the same time finds no expired record. -/
theorem not_expired_of_cleanup {tasks : OrderedDict String ρ} {now ttlSeconds maxRecords : ℤ}
    {e : String × ρ} (h : e ∈ (cleanupTaskRecords tasks now ttlSeconds maxRecords).entries) :
    expired now ttlSeconds e.2 = false :=
  (get_cleanupTaskRecords.mp (OrderedDict.get_eq_some.mpr h)).2.1

/-- A clean-up right after a record was added to a registry without expired records: the new
record goes if it is expired itself, or if the registry was full and has fewer non-active records
older than it than there are records too many. -/
theorem cleanup_added_get_eq_none {kept : OrderedDict String ρ} {now ttlSeconds maxRecords : ℤ}
    (fresh : ∀ e ∈ kept.entries, expired now ttlSeconds e.2 = false) {k : String} {task : ρ}
    (new : kept.get k = none) :
    (cleanupTaskRecords (kept.set k task) now ttlSeconds maxRecords).get k = none ↔
      expired now ttlSeconds task = true ∨
        (isActiveStatus (status task) = false ∧
          (rank (evictable kept) (evictionKey (k, task)) : ℤ) + max 1 maxRecords ≤ kept.size) := by
  have hentries : (kept.set k task).entries = kept.entries ++ [(k, task)] :=
    OrderedDict.entries_set_of_new new task
  have hget : (kept.set k task).get k = some task := by simp
  have hiff : (cleanupTaskRecords (kept.set k task) now ttlSeconds maxRecords).get k = none ↔
      ¬ (expired now ttlSeconds task = false ∧
        ¬ Overflowing (dropExpired (kept.set k task) now ttlSeconds) maxRecords k task) := by
    constructor
    · intro hnone hstays
      have hsome := get_cleanupTaskRecords.mpr ⟨hget, hstays⟩
      rw [hnone] at hsome
      cases hsome
    · intro hgoes
      cases hc : (cleanupTaskRecords (kept.set k task) now ttlSeconds maxRecords).get k with
      | none => rfl
      | some other =>
        obtain ⟨hother, hstays⟩ := get_cleanupTaskRecords.mp hc
        rw [hget, Option.some_inj] at hother
        exact absurd (hother ▸ hstays) hgoes
  rw [hiff]
  cases hexp : expired now ttlSeconds task with
  | true => simp
  | false =>
    have hall : dropExpired (kept.set k task) now ttlSeconds = kept.set k task := by
      refine OrderedDict.filter_eq_self fun e he => ?_
      rw [hentries, List.mem_append, List.mem_singleton] at he
      rcases he with he | rfl
      · simp [fresh e he]
      · simp [hexp]
    have hsize : (kept.set k task).size = kept.size + 1 := OrderedDict.size_set_of_new new task
    have hrank : rank (evictable (kept.set k task)) (evictionKey (k, task)) =
        rank (evictable kept) (evictionKey (k, task)) := by
      simp only [evictable, rank, hentries, List.filter_append, List.map_append,
        List.countP_append]
      cases hact : isActiveStatus (status task) <;> simp [hact]
    rw [hall, Overflowing, hrank, hsize]
    simp only [true_and, not_not, Bool.false_eq_true, false_or, Nat.cast_add, Nat.cast_one]
    refine and_congr_right fun _ => ?_
    omega

end retention
end UniversityHelper.TaskAdmission
