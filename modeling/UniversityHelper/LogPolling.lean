import UniversityHelper.Machine
import UniversityHelper.TaskManager

/-! One client polling the log of one task while lines are appended to it: the client starts
at cursor 0 and passes back the cursor of the previous answer, an index into a list that is
trimmed from the front. -/
namespace UniversityHelper.LogPolling
open TaskAdmission TaskManager

structure Task where
  userId : String
  taskId : String

structure State where
  manager : Manager
  cursor : ℕ
  delivered : List LogLine
  appended : List LogLine

inductive Action
  | append (now : Instant) (message level : String)
  | poll (now : Instant)

variable (rules : Rules) (task : Task)

def held (tasks : OrderedDict String TaskRecord) : Option TaskRecord :=
  lookup tasks (strip task.userId) (strip task.taskId)

/-- A poll takes part as long as the clean-up it starts with leaves the record in memory. -/
def step (s : State) : Action → Option State
  | .append now message level =>
    some { s with
      manager := { s.manager with
        tasks := (appendTaskLog rules s.manager.tasks now (strip task.taskId) message level).1 }
      appended := s.appended ++ [⟨now, message, level⟩] }
  | .poll now =>
    if (held task (cleanup s.manager.tasks now)).isSome = true then
      match getTaskLogs rules s.manager now task.userId task.taskId (some s.cursor) with
      | (some answer, manager) =>
        some { s with
          manager := manager
          cursor := answer.cursor
          delivered := s.delivered ++ answer.logs }
      | (none, _) => none
    else none

/-- A task that has just been created, among any others. -/
def Start (s : State) : Prop :=
  (∃ record, held task s.manager.tasks = some record ∧ record.logs = []) ∧
    s.cursor = 0 ∧ s.delivered = [] ∧ s.appended = []

def machine : Machine State Action := ⟨Start task, step rules task⟩

/-- What holds between the calls. The cursor counts the delivered lines, which are the first
ones as long as nothing was trimmed. -/
structure Polled (s : State) : Prop where
  retained : ∃ record, held task s.manager.tasks = some record ∧
    record.logs = keepLast rules.logLimit s.appended
  counted : s.delivered.length = s.cursor
  bounded : s.cursor ≤ min rules.logLimit s.appended.length
  whole : s.appended.length ≤ rules.logLimit → s.delivered = s.appended.take s.cursor

variable {rules task}

theorem held_eq_some {tasks : OrderedDict String TaskRecord} {record : TaskRecord} :
    held task tasks = some record ↔
      tasks.get (strip task.taskId) = some record ∧ record.userId = strip task.userId := by
  simp [held, lookup, Option.filter_eq_some_iff]

theorem polled_start {s : State} (h : Start task s) : Polled rules task s := by
  obtain ⟨⟨record, hheld, hlogs⟩, hcursor, hdelivered, happended⟩ := h
  refine ⟨⟨record, hheld, ?_⟩, ?_, ?_, ?_⟩
  · rw [hlogs, happended, keepLast_of_le (Nat.zero_le _)]
  · rw [hdelivered, hcursor]
    rfl
  · omega
  · intro _
    rw [hdelivered, happended, List.take_nil]

theorem held_append {tasks : OrderedDict String TaskRecord} {record : TaskRecord}
    (h : held task tasks = some record) (now : Instant) (message level : String) :
    held task (appendTaskLog rules tasks now (strip task.taskId) message level).1 =
      some (withLogLine rules now message level record) := by
  obtain ⟨hget, huser⟩ := held_eq_some.mp h
  refine held_eq_some.mpr ⟨?_, huser⟩
  simp only [appendTaskLog, OrderedDict.get_modify, if_true, hget, Option.map_some]

/-- The answer to a poll, from the record that the clean-up leaves in memory. -/
theorem poll_answer (hslice : ∀ (n own : ℕ), rules.sliceStart (some n) own = n) {s : State}
    {now : Instant} {record : TaskRecord} (h : held task s.manager.tasks = some record)
    (kept : (held task (cleanup s.manager.tasks now)).isSome = true) :
    held task (cleanup s.manager.tasks now) = some record ∧
      step rules task s (.poll now) = some { s with
        manager := { s.manager with tasks := cleanup s.manager.tasks now }
        cursor := record.logs.length
        delivered := s.delivered ++ record.logs.drop s.cursor } := by
  obtain ⟨record', hrecord'⟩ := Option.isSome_iff_exists.mp kept
  have hsame : record' = record := by
    have hold := (get_cleanupTaskRecords.mp (held_eq_some.mp hrecord').1).1
    rw [(held_eq_some.mp h).1, Option.some_inj] at hold
    exact hold.symm
  subst hsame
  refine ⟨hrecord', ?_⟩
  have hlook : lookup (cleanup s.manager.tasks now) (strip task.userId) (strip task.taskId) =
      some record' := hrecord'
  simp [step, hrecord', getTaskLogs, hlook, answerLogs, hslice]

theorem Polled.append {s : State} (h : Polled rules task s) (now : Instant)
    (message level : String) {t : State}
    (taken : step rules task s (.append now message level) = some t) : Polled rules task t := by
  cases taken
  obtain ⟨record, hheld, hlogs⟩ := h.retained
  refine ⟨⟨_, held_append hheld now message level, ?_⟩, h.counted, ?_, fun hle => ?_⟩
  · rw [withLogLine, hlogs, keepLast_keepLast_append]
  · have hb := h.bounded
    simp only [List.length_append, List.length_singleton]
    omega
  · simp only [List.length_append, List.length_singleton] at hle
    have hb := h.bounded
    have hwhole := h.whole (by omega)
    dsimp only
    rw [List.take_append_of_le_length (by omega)]
    exact hwhole

theorem Polled.poll (hslice : ∀ (n own : ℕ), rules.sliceStart (some n) own = n) {s : State}
    (h : Polled rules task s) {now : Instant} {t : State}
    (taken : step rules task s (.poll now) = some t) :
    Polled rules task t ∧ t.cursor = min rules.logLimit t.appended.length := by
  obtain ⟨record, hheld, hlogs⟩ := h.retained
  have hkept : (held task (cleanup s.manager.tasks now)).isSome = true := by
    by_contra hgone
    simp [step, hgone] at taken
  obtain ⟨hstays, hanswer⟩ := poll_answer hslice hheld hkept
  rw [hanswer] at taken
  cases taken
  have hlen : record.logs.length = min rules.logLimit s.appended.length := by
    rw [hlogs, length_keepLast]
  have hb := h.bounded
  have hc := h.counted
  refine ⟨⟨⟨record, hstays, hlogs⟩, ?_, ?_, fun hle => ?_⟩, hlen⟩
  · simp only [List.length_append, List.length_drop]
    omega
  · dsimp only
    omega
  · dsimp only at hle ⊢
    have hall : record.logs = s.appended := by rw [hlogs, keepLast_of_le hle]
    rw [h.whole hle, hall, List.take_append_drop, List.take_length]

theorem Polled.preserved (hslice : ∀ (n own : ℕ), rules.sliceStart (some n) own = n) {s t : State}
    {a : Action} (h : Polled rules task s) (taken : step rules task s a = some t) :
    Polled rules task t := by
  cases a with
  | append now message level => exact h.append now message level taken
  | poll now => exact (h.poll hslice taken).1

theorem Polled.of_reachable (hslice : ∀ (n own : ℕ), rules.sliceStart (some n) own = n) {s : State}
    (h : (machine rules task).Reachable Machine.free s) : Polled rules task s :=
  h.invariant (fun _ => polled_start) fun _ _ _ hs _ taken => hs.preserved hslice taken

/-- After a poll the client has the lines appended so far if and only if they never exceeded
the retention limit; a longer log is delivered up to the limit in length and no further. -/
theorem poll_delivers_iff (hslice : ∀ (n own : ℕ), rules.sliceStart (some n) own = n) {s t : State}
    (h : (machine rules task).Reachable Machine.free s) {now : Instant}
    (taken : step rules task s (.poll now) = some t) :
    t.delivered.length = min rules.logLimit t.appended.length ∧
      (t.delivered = t.appended ↔ t.appended.length ≤ rules.logLimit) := by
  obtain ⟨hpolled, hcursor⟩ := (Polled.of_reachable hslice h).poll hslice taken
  have hlen := hpolled.counted.trans hcursor
  refine ⟨hlen, fun hall => ?_, fun hle => ?_⟩
  · rw [hall] at hlen
    omega
  · rw [hpolled.whole hle, hcursor, min_eq_right hle, List.take_length]

/-- The polls of a task with an active status are always answered from memory. -/
theorem active_enabled (hslice : ∀ (n own : ℕ), rules.sliceStart (some n) own = n) {s : State}
    {record : TaskRecord} (h : held task s.manager.tasks = some record)
    (active : isActiveStatus record.status = true) (a : Action) :
    ∃ t record', step rules task s a = some t ∧ held task t.manager.tasks = some record' ∧
      isActiveStatus record'.status = true := by
  cases a with
  | append now message level =>
    exact ⟨_, _, rfl, held_append h now message level, active⟩
  | poll now =>
    obtain ⟨hget, huser⟩ := held_eq_some.mp h
    have hkept : held task (cleanup s.manager.tasks now) = some record :=
      held_eq_some.mpr ⟨active_retained hget active, huser⟩
    obtain ⟨-, hanswer⟩ := poll_answer hslice h (by rw [hkept]; rfl)
    exact ⟨_, record, hanswer, hkept, active⟩

theorem exec_of_active (hslice : ∀ (n own : ℕ), rules.sliceStart (some n) own = n)
    (actions : List Action) {s : State} {record : TaskRecord}
    (h : held task s.manager.tasks = some record) (active : isActiveStatus record.status = true) :
    ∃ t, (machine rules task).exec s actions = some t := by
  induction actions generalizing s record with
  | nil => exact ⟨s, rfl⟩
  | cons a actions ih =>
    obtain ⟨u, record', taken, hheld, hactive⟩ := active_enabled hslice h active a
    obtain ⟨t, ht⟩ := ih hheld hactive
    have hstep : (machine rules task).step s a = some u := taken
    exact ⟨t, by rw [Machine.exec_cons, hstep, Option.bind_some, ht]⟩

theorem learning_slice (n own : ℕ) : learningRules.sliceStart (some n) own = n := rfl

theorem signin_slice (n own : ℕ) : signinRules.sliceStart (some n) own = n := by
  simp [signinRules]

/-- In both managers, every poll of every run has delivered exactly the lines appended so far
if and only if they are no more than the retention limit. -/
theorem polls_deliver_iff (task : Task) (s t : State) (now : Instant) :
    ((machine learningRules task).Reachable Machine.free s →
      step learningRules task s (.poll now) = some t →
        (t.delivered = t.appended ↔ t.appended.length ≤ 1000)) ∧
    ((machine signinRules task).Reachable Machine.free s →
      step signinRules task s (.poll now) = some t →
        (t.delivered = t.appended ↔ t.appended.length ≤ 500)) :=
  ⟨fun h taken => (poll_delivers_iff learning_slice h taken).2,
    fun h taken => (poll_delivers_iff signin_slice h taken).2⟩

def Action.lines : Action → ℕ
  | .append .. => 1
  | .poll _ => 0

theorem appended_exec {actions : List Action} {s t : State}
    (h : (machine rules task).exec s actions = some t) :
    t.appended.length = s.appended.length + (actions.map Action.lines).sum := by
  induction actions generalizing s with
  | nil =>
    obtain rfl : s = t := by simpa [Machine.exec] using h
    simp
  | cons a actions ih =>
    rw [Machine.exec_cons] at h
    obtain ⟨u, taken, rest⟩ := Option.bind_eq_some_iff.mp h
    have hu : u.appended.length = s.appended.length + a.lines := by
      change step rules task s a = some u at taken
      cases a with
      | append now message level =>
        cases taken
        simp [Action.lines]
      | poll now =>
        simp only [step] at taken
        split_ifs at taken
        split at taken
        · cases taken
          rfl
        · cases taken
    rw [ih rest, hu, List.map_cons, List.sum_cons, Nat.add_assoc]

def runningTask : TaskRecord :=
  { taskId := "t", userId := "1", status := .running, message := "Learning course 1/1",
    currentTask := "course:A", progress := OrderedDict.empty,
    times := ⟨.at 0, .at 0, .at 0, .absent⟩, logs := [], failures := [], logCursor := 0 }

def newlyStarted : State :=
  ⟨⟨OrderedDict.empty.set "t" runningTask, ⟨true, OrderedDict.empty⟩⟩, 0, [], []⟩

theorem held_newlyStarted :
    held ⟨"1", "t"⟩ newlyStarted.manager.tasks = some runningTask := by
  rfl

theorem start_newlyStarted : Start ⟨"1", "t"⟩ newlyStarted :=
  ⟨⟨_, held_newlyStarted, rfl⟩, rfl, rfl, rfl⟩

/-- Twice, a batch of lines and then a poll. -/
def twoBatches (size : ℕ) : List Action :=
  let batch := List.replicate size (Action.append 0 "Start course: A" "info")
  batch ++ [.poll 0] ++ batch ++ [.poll 0]

theorem lines_twoBatches (size : ℕ) : ((twoBatches size).map Action.lines).sum = size + size := by
  simp [twoBatches, Action.lines]

theorem twoBatches_lose_lines (hslice : ∀ (n own : ℕ), rules.sliceStart (some n) own = n) {size : ℕ}
    (hsize : rules.logLimit < size + size) :
    ∃ t, (machine rules ⟨"1", "t"⟩).exec newlyStarted (twoBatches size) = some t ∧
      t.delivered ≠ t.appended := by
  obtain ⟨t, ht⟩ := exec_of_active hslice (twoBatches size) held_newlyStarted (by decide)
  refine ⟨t, ht, fun hall => ?_⟩
  have hpolled := Polled.of_reachable hslice (Machine.reachable_of_exec _ start_newlyStarted ht)
  have hcount := appended_exec ht
  have hlen := hpolled.counted
  have hbound := hpolled.bounded
  rw [lines_twoBatches, show newlyStarted.appended = [] from rfl, List.length_nil] at hcount
  rw [hall] at hlen
  omega

/-- Two batches of 600, respectively 300 lines lose lines, although each stays below the limit. -/
theorem second_batch_lost :
    (∃ t, (machine learningRules ⟨"1", "t"⟩).exec newlyStarted (twoBatches 600) = some t ∧
      t.delivered ≠ t.appended) ∧
    (∃ t, (machine signinRules ⟨"1", "t"⟩).exec newlyStarted (twoBatches 300) = some t ∧
      t.delivered ≠ t.appended) :=
  ⟨twoBatches_lose_lines learning_slice (by decide), twoBatches_lose_lines signin_slice (by decide)⟩

theorem poll_after_batch (hslice : ∀ (n own : ℕ), rules.sliceStart (some n) own = n) (size : ℕ) :
    ∃ s t, (machine rules ⟨"1", "t"⟩).Reachable Machine.free s ∧
      step rules ⟨"1", "t"⟩ s (.poll 0) = some t ∧ t.appended.length = size := by
  let batch := List.replicate size (Action.append 0 "Start course: A" "info")
  obtain ⟨s, hs⟩ := exec_of_active hslice batch held_newlyStarted (by decide)
  obtain ⟨t, ht⟩ := exec_of_active hslice (batch ++ [.poll 0]) held_newlyStarted (by decide)
  have hcount := appended_exec ht
  rw [Machine.exec_append hs, Machine.exec_cons] at ht
  obtain ⟨u, taken, hrest⟩ := Option.bind_eq_some_iff.mp ht
  obtain rfl : u = t := by simpa [Machine.exec] using hrest
  refine ⟨s, u, Machine.reachable_of_exec batch start_newlyStarted hs, taken, ?_⟩
  rw [hcount, show newlyStarted.appended = [] from rfl]
  simp [batch, Action.lines]

/-- A poll after a batch of 600, respectively 300 lines delivers them. -/
theorem first_poll_delivers :
    (∃ s t, step learningRules ⟨"1", "t"⟩ s (.poll 0) = some t ∧ t.appended.length = 600 ∧
      t.delivered = t.appended) ∧
    (∃ s t, step signinRules ⟨"1", "t"⟩ s (.poll 0) = some t ∧ t.appended.length = 300 ∧
      t.delivered = t.appended) := by
  obtain ⟨s, t, hs, taken, hcount⟩ := poll_after_batch learning_slice 600
  obtain ⟨u, v, hu, taken', hcount'⟩ := poll_after_batch signin_slice 300
  have hlearning := (polls_deliver_iff ⟨"1", "t"⟩ s t 0).1 hs taken
  have hsignin := (polls_deliver_iff ⟨"1", "t"⟩ u v 0).2 hu taken'
  exact ⟨⟨s, t, taken, hcount, hlearning.mpr (by omega)⟩, ⟨u, v, taken', hcount', hsignin.mpr (by omega)⟩⟩

end UniversityHelper.LogPolling
