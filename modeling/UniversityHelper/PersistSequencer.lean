import UniversityHelper.Machine
import UniversityHelper.TicketedWriter
import UniversityHelper.LearningTask

set_option linter.unusedSectionVars false

/-! `_TaskPersistSequencer`: the snapshots of one learning task are reserved under the manager
lock and written to the store after it was released. -/
namespace UniversityHelper.LearningManager
open TaskAdmission TaskManager

/-- One task, the writers of its snapshots and the payload of its row in the store. -/
structure PersistState (C : Type*) where
  task : Option LearningTask
  tickets : Tickets C PublicTask PublicTask
  stored : Option PublicTask

inductive PersistAction (C : Type*)
  | startTask (c : C) (taskId userId : String) (now : Instant) (pauseEvent stopEvent : EventId)
  | mutate (c : C) (m : Mutation) (now monotonic : Instant)
  | enter (c : C)
  | write (c : C) (ok : Bool)
  | finish (c : C)

variable {C : Type*} [DecidableEq C]

/-- A snapshot is a shallow copy: its log list is the one of the live record, and the row is
serialised only when it is written. -/
def serialised (task : Option LearningTask) (snapshot : PublicTask) : PublicTask :=
  match task with
  | some task => { snapshot with logs := task.logs }
  | none => snapshot

/-- `reserve`, in the critical section that changed the record. -/
def PersistState.reserve (s : PersistState C) (c : C) (changed : LearningTask × Option PublicTask) :
    Option (PersistState C) :=
  match changed.2 with
  | some snapshot =>
    (s.tickets.step (.reserve c snapshot)).map fun tickets =>
      { s with task := some changed.1, tickets := tickets }
  | none => some { s with task := some changed.1 }

def persistStep (s : PersistState C) : PersistAction C → Option (PersistState C)
  | .startTask c taskId userId now pauseEvent stopEvent =>
    match s.task with
    | none => s.reserve c (preparePersist true 0 (newTask taskId userId now pauseEvent stopEvent))
    | some _ => none
  | .mutate c m now monotonic =>
    match s.task, s.tickets.holder c with
    | some task, .idle => s.reserve c (m.apply now monotonic task)
    | _, _ => none
  | .enter c => (s.tickets.step (.enter c)).map fun tickets => { s with tickets := tickets }
  | .write c ok =>
    match s.tickets.holder c with
    | .writing _ snapshot =>
      let row := serialised s.task snapshot
      (s.tickets.step (.write c row ok)).map fun tickets =>
        { s with tickets := tickets, stored := if ok = true then some row else s.stored }
    | _ => none
  | .finish c => (s.tickets.step (.finish c)).map fun tickets => { s with tickets := tickets }

/-- No call is under way; the task may be yet to be started or just loaded from the store. -/
def PersistStart (s : PersistState C) : Prop := s.tickets = Tickets.fresh

def persistMachine : Machine (PersistState C) (PersistAction C) := ⟨PersistStart, persistStep⟩

/-- What a step does to the tickets and to the row. -/
inductive PersistEffect (s : PersistState C) : PersistState C → Prop
  | unreserved (task : Option LearningTask) : PersistEffect s { s with task := task }
  | ticket {action : Tickets.Action C PublicTask PublicTask} {tickets : Tickets C PublicTask PublicTask}
      (task : Option LearningTask) (taken : s.tickets.step action = some tickets)
      (same : tickets.writes = s.tickets.writes) :
      PersistEffect s { s with task := task, tickets := tickets }
  | wrote {c : C} {r : ℕ} {snapshot : PublicTask} {ok : Bool}
      {tickets : Tickets C PublicTask PublicTask}
      (inside : s.tickets.holder c = .writing r snapshot)
      (taken : s.tickets.step (.write c (serialised s.task snapshot) ok) = some tickets)
      (appended : tickets.writes =
        s.tickets.writes ++ [⟨r, snapshot, serialised s.task snapshot, ok⟩]) :
      PersistEffect s { s with
        tickets := tickets
        stored := if ok = true then some (serialised s.task snapshot) else s.stored }

theorem reserve_effect {s t : PersistState C} {c : C} {changed : LearningTask × Option PublicTask}
    (h : s.reserve c changed = some t) : PersistEffect s t := by
  simp only [PersistState.reserve] at h
  split at h
  · rename_i snapshot _
    obtain ⟨tickets, taken, rfl⟩ := Option.map_eq_some_iff.mp h
    refine .ticket _ taken ?_
    simp only [Tickets.step] at taken
    split at taken <;> cases taken
    rfl
  · cases h
    exact .unreserved _

theorem persistStep_effect {s t : PersistState C} {a : PersistAction C}
    (h : persistStep s a = some t) : PersistEffect s t := by
  cases a with
  | startTask c taskId userId now pauseEvent stopEvent =>
    simp only [persistStep] at h
    split at h
    · exact reserve_effect h
    · cases h
  | mutate c m now monotonic =>
    simp only [persistStep] at h
    split at h
    · exact reserve_effect h
    · cases h
  | enter c =>
    obtain ⟨tickets, taken, rfl⟩ := Option.map_eq_some_iff.mp h
    refine .ticket s.task taken ?_
    simp only [Tickets.step] at taken
    split at taken
    · split_ifs at taken
      cases taken
      rfl
    · cases taken
  | write c ok =>
    simp only [persistStep] at h
    split at h
    · rename_i r snapshot hc
      obtain ⟨tickets, taken, rfl⟩ := Option.map_eq_some_iff.mp h
      refine .wrote hc taken ?_
      simp only [Tickets.step, hc] at taken
      cases taken
      rfl
    · cases h
  | finish c =>
    obtain ⟨tickets, taken, rfl⟩ := Option.map_eq_some_iff.mp h
    refine .ticket s.task taken ?_
    simp only [Tickets.step] at taken
    split at taken <;> cases taken
    rfl

/-- The tickets are in order, a written row is its snapshot up to the log, and the row in the
store is the last one that was written successfully. -/
structure Persisted (s : PersistState C) : Prop where
  ordered : s.tickets.Ordered
  rows : ∀ w ∈ s.tickets.writes, ∃ logs, w.row = { w.snapshot with logs := logs }
  stored : ∀ w, (s.tickets.writes.filter Write.ok).getLast? = some w → s.stored = some w.row

theorem serialised_eq (task : Option LearningTask) (snapshot : PublicTask) :
    ∃ logs, serialised task snapshot = { snapshot with logs := logs } := by
  cases task with
  | none => exact ⟨snapshot.logs, rfl⟩
  | some task => exact ⟨task.logs, rfl⟩

theorem persisted_start {s : PersistState C} (h : PersistStart s) : Persisted s := by
  refine ⟨h ▸ Tickets.ordered_fresh, ?_, ?_⟩
  · rw [h]
    intro w hw
    cases hw
  · rw [h]
    intro w hw
    cases hw

theorem Persisted.preserved {s t : PersistState C} {a : PersistAction C} (h : Persisted s)
    (taken : persistStep s a = some t) : Persisted t := by
  cases persistStep_effect taken with
  | unreserved task => exact ⟨h.ordered, h.rows, h.stored⟩
  | ticket task hstep same =>
    refine ⟨h.ordered.preserved hstep, ?_, ?_⟩
    · dsimp only
      rw [same]
      exact h.rows
    · dsimp only
      rw [same]
      exact h.stored
  | @wrote c r snapshot ok tickets inside hstep appended =>
    refine ⟨h.ordered.preserved hstep, ?_, ?_⟩
    · dsimp only
      rw [appended]
      intro w hw
      rcases List.mem_append.mp hw with hw | hw
      · exact h.rows w hw
      · rw [List.mem_singleton.mp hw]
        exact serialised_eq s.task snapshot
    · dsimp only
      rw [appended]
      intro w hw
      cases ok with
      | true =>
        simp only [List.filter_append, List.filter_cons, if_true, List.filter_nil,
          List.getLast?_concat, Option.some_inj] at hw
        rw [← hw, if_pos rfl]
      | false =>
        simp only [List.filter_append, List.filter_cons, Bool.false_eq_true, if_false,
          List.filter_nil, List.append_nil] at hw
        simpa using h.stored w hw

theorem Persisted.of_reachable {s : PersistState C}
    (h : (persistMachine (C := C)).Reachable Machine.free s) : Persisted s :=
  h.invariant (fun _ => persisted_start) fun _ _ _ hs _ taken => hs.preserved taken

/-- The write with the highest revision among the successful ones is the last of them. -/
theorem last_ok_of_highest {t : Tickets C PublicTask PublicTask} (h : t.Ordered)
    {w : Write PublicTask PublicTask} (hw : w ∈ t.writes) (ok : w.ok = true)
    (highest : ∀ v ∈ t.writes, v.ok = true → v.revision ≤ w.revision) :
    (t.writes.filter Write.ok).getLast? = some w := by
  have hsorted : t.writes.Pairwise fun v v' => v.revision < v'.revision := by
    have hrange : (t.writes.map Write.revision).Pairwise (· < ·) := by
      rw [h.numbered]
      exact List.pairwise_lt_range'
    exact List.pairwise_map.mp hrange
  have hmem : w ∈ t.writes.filter Write.ok := List.mem_filter.mpr ⟨hw, ok⟩
  have hne : t.writes.filter Write.ok ≠ [] := List.ne_nil_of_mem hmem
  have hlast := List.mem_filter.mp (List.getLast_mem hne)
  have hle := highest _ hlast.1 hlast.2
  have hsplit := List.dropLast_append_getLast hne
  have hbefore := hsorted.filter Write.ok
  rw [← hsplit, List.pairwise_append] at hbefore
  rw [← hsplit, List.mem_append, List.mem_singleton] at hmem
  rcases hmem with hearlier | hlatest
  · have hlt := hbefore.2.2 w hearlier _ (List.mem_singleton.mpr rfl)
    omega
  · rw [List.getLast?_eq_some_getLast hne, ← hlatest]

theorem Persisted.progress {s : PersistState C} (h : Persisted s) {d : C}
    (busy : s.tickets.holder d ≠ .idle) :
    ∃ c, (persistStep s (.enter c)).isSome = true ∨
      (∀ ok, (persistStep s (.write c ok)).isSome = true) ∨
        (persistStep s (.finish c)).isSome = true := by
  obtain ⟨c, -, henter | hwrite | hfinish⟩ := h.ordered.progress busy
  · exact ⟨c, Or.inl (by simpa [persistStep] using henter)⟩
  · refine ⟨c, Or.inr (Or.inl fun ok => ?_)⟩
    cases hc : s.tickets.holder c with
    | writing r snapshot =>
      simpa [persistStep, hc] using hwrite (serialised s.task snapshot) ok
    | _ =>
      have hstuck := hwrite (newTask "" "" 0 0 0).toPublicTask ok
      simp [Tickets.step, hc] at hstuck
  · exact ⟨c, Or.inr (Or.inr (by simpa [persistStep] using hfinish))⟩

/-- A step of a call that has taken its snapshot. -/
def PersistAction.underWay : PersistAction C → Bool
  | .startTask .. | .mutate .. => false
  | .enter _ | .write .. | .finish _ => true

theorem persist_remaining [Fintype C] {s t : PersistState C} {a : PersistAction C}
    (underWay : a.underWay = true) (taken : persistStep s a = some t) :
    load Ticket.remaining t.tickets.holder + 1 = load Ticket.remaining s.tickets.holder := by
  cases a with
  | startTask c taskId userId now pauseEvent stopEvent => cases underWay
  | mutate c m now monotonic => cases underWay
  | enter c =>
    obtain ⟨tickets, hstep, rfl⟩ := Option.map_eq_some_iff.mp taken
    exact Tickets.remaining_step rfl hstep
  | write c ok =>
    simp only [persistStep] at taken
    split at taken
    · obtain ⟨tickets, hstep, rfl⟩ := Option.map_eq_some_iff.mp taken
      exact Tickets.remaining_step rfl hstep
    · cases taken
  | finish c =>
    obtain ⟨tickets, hstep, rfl⟩ := Option.map_eq_some_iff.mp taken
    exact Tickets.remaining_step rfl hstep

/-- The writes of a task run one at a time, in the order of their reservations and each exactly
once; whatever fails, a call that is under way can go on, and only finitely often; and between the
calls the row in the store is the one of the highest revision that was written successfully. -/
theorem persistence_ordered [Fintype C] {s : PersistState C}
    (h : (persistMachine (C := C)).Reachable Machine.free s) :
    (∀ c d, (s.tickets.holder c).inWriter = true → (s.tickets.holder d).inWriter = true → c = d) ∧
    (s.tickets.writes.map Write.revision = List.range' 1 s.tickets.writes.length ∧
      s.tickets.writes.length ≤ s.tickets.lastReserved ∧
      s.tickets.lastReserved = s.tickets.reserved.length) ∧
    (∀ w ∈ s.tickets.writes, s.tickets.reserved[w.revision - 1]? = some w.snapshot ∧
      ∃ logs, w.row = { w.snapshot with logs := logs }) ∧
    (∀ d, s.tickets.holder d ≠ .idle → ∃ c, (persistStep s (.enter c)).isSome = true ∨
      (∀ ok, (persistStep s (.write c ok)).isSome = true) ∨
        (persistStep s (.finish c)).isSome = true) ∧
    (∀ (a : PersistAction C) t, a.underWay = true → persistStep s a = some t →
      load Ticket.remaining t.tickets.holder < load Ticket.remaining s.tickets.holder) ∧
    ((∀ c, s.tickets.holder c = .idle) →
      s.tickets.writes.length = s.tickets.lastReserved ∧
      ∀ w ∈ s.tickets.writes, w.ok = true →
        (∀ v ∈ s.tickets.writes, v.ok = true → v.revision ≤ w.revision) →
          s.stored = some w.row) := by
  have hs := Persisted.of_reachable h
  have ho := hs.ordered
  refine ⟨fun c d => ho.inWriter_unique, ⟨ho.numbered, ho.length_writes, ho.counted.symm⟩,
    fun w hw => ⟨ho.faithful w hw, hs.rows w hw⟩, fun d => hs.progress, fun a t underWay taken => ?_,
    fun quiet => ⟨ho.quiescent quiet,
      fun w hw ok highest => hs.stored w (last_ok_of_highest ho hw ok highest)⟩⟩
  have hless := persist_remaining underWay taken
  omega

def noTask : PersistState Bool := ⟨none, Tickets.fresh, none⟩

/-- The second call arrives first, and the write of the first one fails. -/
def twoCalls : List (PersistAction Bool) :=
  [.startTask false "t" "1" 0 0 1,
    .mutate true (.appendTaskLog "Starting login..." "info") 1 1,
    .enter false, .write false false, .finish false,
    .enter true, .write true true, .finish true]

def afterTwoCalls : PersistState Bool := (persistMachine.exec noTask twoCalls).getD noTask

theorem twoCalls_ordered :
    afterTwoCalls.tickets.writes.map Write.revision = [1, 2] ∧
      afterTwoCalls.tickets.writes.length = afterTwoCalls.tickets.lastReserved := by
  have hreach : persistMachine.Reachable Machine.free afterTwoCalls :=
    Machine.reachable_of_exec (s := noTask) twoCalls rfl rfl
  obtain ⟨-, ⟨hrevisions, -⟩, -, -, -, hquiet⟩ := persistence_ordered hreach
  have hidle : ∀ c, afterTwoCalls.tickets.holder c = .idle := by
    intro c
    cases c <;> rfl
  exact ⟨hrevisions, (hquiet hidle).1⟩

end UniversityHelper.LearningManager
