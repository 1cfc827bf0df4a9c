import UniversityHelper.DesktopStartupSafety
import UniversityHelper.Simulation

/-! A startup settles at its deadline: from then on the threads have few steps left, and when none of them can
go on the user sees the window or the error. -/
namespace UniversityHelper.DesktopStartup
variable {deadline startedAt : ℕ} {s t : Shared} {answer : Except String Unit} {l m : Phase} {σ τ : State}
  {phase : Thread → Phase} {x : Thread}

def Return.rank : Return → ℕ
  | .closing => 5
  | _ => 0

/-- How many steps a thread takes at most once the deadline has passed. -/
def Phase.rank : Phase → ℕ
  | .absent => 6
  | .finished => 0
  | .updating => 0
  | .polling => 7
  | .remaining => 6
  | .dozing _ => 8
  | .claimingTimeout => 5
  | .loadingPort => 4
  | .receiving => 0
  | .received _ => 11
  | .handling _ => 10
  | .storingPort _ => 2
  | .spawning _ => 1
  | .closing => 5
  | .looping _ => 5
  | .probingHealth _ => 6
  | .healthy _ => 5
  | .probingRoot _ => 6
  | .serving _ => 5
  | .pausing _ => 5
  | .sleeping _ _ => 6
  | .addressing _ => 6
  | .checking _ => 5
  | .scheduling _ => 7
  | .idle => 0
  | .called _ => 5
  | .claimingWindow _ => 5
  | .building _ => 4
  | .claiming _ back => 4 + back.rank
  | .showing _ back => 3 + back.rank
  | .taking back => 2 + back.rank
  | .stopping back => 1 + back.rank

/-- A callback in the queue is worth the steps of the main thread that it asks for. -/
def Shared.work (s : Shared) : ℕ := 6 * s.queued.isSome.toNat

def State.work (σ : State) : ℕ := σ.shared.work + load Phase.rank σ.phase

theorem Return.phase_rank (back : Return) : back.phase.rank = back.rank := by
  cases back <;> rfl

theorem Phase.rank_le (l : Phase) : l.rank ≤ 11 := by
  cases l with
  | claiming message back => cases back <;> simp [Phase.rank, Return.rank]
  | showing message back => cases back <;> simp [Phase.rank, Return.rank]
  | taking back => cases back <;> simp [Phase.rank, Return.rank]
  | stopping back => cases back <;> simp [Phase.rank, Return.rank]
  | _ => simp [Phase.rank]

theorem handleEvent_rank (s : Shared) (event : CommandEvent) :
    (handleEvent s event).1.work + (handleEvent s event).2.rank < s.work + 10 := by
  cases event with
  | stdout line =>
    simp only [handleEvent]
    split_ifs
    · simp [Phase.rank]
    · split <;> simp [Shared.work, Phase.rank]
  | _ => simp [handleEvent, Phase.rank, Return.rank]

/-- Every step of a thread after the deadline brings it nearer to its end. -/
theorem thread_rank (late : deadline ≤ s.now) (taken : threadStep deadline s answer l = some (t, m)) :
    t.work + m.rank < s.work + l.rank := by
  have hlate : ¬ s.now < deadline := not_lt.mpr late
  cases l with
  | absent =>
    simp only [threadStep, Option.map_eq_some_iff, Prod.mk.injEq] at taken
    obtain ⟨port, -, rfl, rfl⟩ := taken
    simp [Phase.rank]
  | idle =>
    simp only [threadStep, Option.map_eq_some_iff, Prod.mk.injEq] at taken
    obtain ⟨port, hport, rfl, rfl⟩ := taken
    simp [Shared.work, Phase.rank, hport]
  | finished | updating | receiving => cases taken
  | dozing wake | sleeping port wake =>
    simp only [threadStep] at taken
    split_ifs at taken
    cases taken
    simp [Phase.rank]
  | claimingTimeout | claimingWindow port =>
    simp only [threadStep] at taken
    split_ifs at taken <;> (cases taken; simp [Shared.work, Phase.rank])
  | claiming message back =>
    simp only [threadStep] at taken
    split_ifs at taken <;> cases taken
    · rw [back.phase_rank]
      simp [Phase.rank]
    · simp [Shared.work, Phase.rank]
  | handling event =>
    simp only [threadStep, Option.some_inj] at taken
    have hless := handleEvent_rank s event
    rwa [taken] at hless
  | probingHealth port | probingRoot port =>
    simp only [threadStep, if_neg hlate] at taken
    split at taken <;> (cases taken; simp [Phase.rank])
  | addressing port | building port =>
    simp only [threadStep] at taken
    split at taken <;> (cases taken; simp [Shared.work, Phase.rank, Return.rank])
  | scheduling port =>
    simp only [threadStep] at taken
    split at taken <;> cases taken
    · simp only [Shared.work, Phase.rank, Option.isSome_some, Bool.toNat_true]
      omega
    · simp [Phase.rank, Return.rank]
  | showing message back =>
    cases taken
    simp [Shared.work, Phase.rank]
  | taking back =>
    simp only [threadStep] at taken
    split_ifs at taken <;> cases taken
    · simp [Shared.work, Phase.rank]
    · rw [back.phase_rank]
      simp [Phase.rank]
  | stopping back =>
    cases taken
    rw [back.phase_rank]
    simp [Shared.work, Phase.rank]
  | polling | received | closing =>
    cases taken
    split_ifs <;> simp [Phase.rank, Return.rank]
  | remaining | looping | healthy | pausing | checking | called =>
    cases taken
    simp [if_pos late, Phase.rank, Return.rank]
  | serving =>
    cases taken
    simp [if_neg hlate, Phase.rank, Return.rank]
  | loadingPort | storingPort | spawning =>
    cases taken
    simp [Shared.work, Phase.rank, Return.rank]

/-- The phases in which a thread waits for another one, or for nothing any more. -/
def Phase.Rests (s : Shared) : Phase → Prop
  | .absent => s.spawned = none
  | .finished => True
  | .updating => True
  | .receiving => True
  | .idle => s.queued = none
  | _ => False

theorem thread_enabled (late : deadline ≤ s.now) (formed : l.Formed deadline s) :
    (∃ p, threadStep deadline s (.ok ()) l = some p) ∨ l.Rests s := by
  cases l with
  | finished | updating | receiving => exact .inr trivial
  | absent =>
    cases hspawned : s.spawned with
    | none => exact .inr hspawned
    | some port => exact .inl ⟨(s, .looping port), by simp only [threadStep, hspawned, Option.map_some]⟩
  | idle =>
    cases hqueued : s.queued with
    | none => exact .inr hqueued
    | some port =>
      exact .inl ⟨({ s with queued := none }, .called port), by simp only [threadStep, hqueued, Option.map_some]⟩
  | dozing wake =>
    have hwake : wake ≤ deadline := formed
    exact .inl ⟨_, if_pos (hwake.trans late)⟩
  | sleeping port wake => exact .inl ⟨_, if_pos (formed.2.trans late)⟩
  | claimingTimeout | claimingWindow | claiming | taking | probingHealth | probingRoot =>
    refine .inl ?_
    simp only [threadStep]
    split_ifs <;> exact ⟨_, rfl⟩
  | _ => exact .inl ⟨_, rfl⟩

theorem Phase.Rests.owes (h : l.Rests s) : l.effect = 0 ∧ l.stops = 0 ∧ l.takes = 0 ∧ ¬ l.Waits := by
  cases l with
  | absent | finished | updating | receiving | idle => exact ⟨rfl, rfl, rfl, id⟩
  | _ => exact absurd h id

theorem Invariant.settled (h : Invariant deadline s phase) (rests : ∀ x, (phase x).Rests s) :
    s.startupErrors.length + s.windows.length = 1 ∧
    (s.startupErrors ≠ [] → s.sidecar = false ∧ s.stopped = 1) ∧
    (s.startupErrors = [] → s.leaving = false → s.sidecar = true ∧ s.stopped = 0) := by
  have houtcomes := h.outcomes
  have hstops := h.stops
  have htakes := h.takes
  rw [load_eq_zero.mpr fun x => (rests x).owes.1, h.watched.resolve_left (rests .watchdog).owes.2.2.2] at houtcomes
  rw [load_eq_zero.mpr fun x => (rests x).owes.2.1] at hstops
  rw [load_eq_zero.mpr fun x => (rests x).owes.2.2.1] at htakes
  refine ⟨by simpa using houtcomes, fun herrors => ?_, fun herrors hstaying => ?_⟩
  · have hgone := htakes.resolve_left fun hzero => herrors (List.length_eq_zero_iff.mp (Nat.le_zero.mp hzero))
    rw [hgone] at hstops
    exact ⟨hgone, hstops⟩
  · have hheld : s.sidecar = true := by
      by_contra hgone
      rcases h.reaped (by simpa using hgone) with hshown | hleaving
      · exact hshown herrors
      · rw [hleaving] at hstaying
        cases hstaying
    rw [hheld] at hstops
    exact ⟨hheld, by simpa using hstops⟩

theorem State.work_le (σ : State) : σ.work ≤ 61 := by
  have hload : load Phase.rank σ.phase ≤ Fintype.card Thread * 11 :=
    Finset.sum_le_card_nsmul _ _ _ fun x _ => (σ.phase x).rank_le
  have hcard : Fintype.card Thread = 5 := rfl
  have hqueued := Bool.toNat_le σ.shared.queued.isSome
  rw [State.work, Shared.work]
  omega

/-- Once the deadline has passed, and while the sidecar reports nothing more, the threads take few more steps,
whatever the order and the answers; and when none can go on there is one outcome: an error with the sidecar
stopped, or a window with the sidecar running. -/
theorem startup_settles (h : (machine startedAt).Reachable Machine.free σ)
    (late : startedAt + startupTimeout ≤ σ.shared.now) :
    (∀ (schedule : List (Thread × Except String Unit)) (τ : State),
      (machine startedAt).exec σ (schedule.map fun p => .run p.1 p.2) = some τ → schedule.length ≤ 61) ∧
    ((∀ x answer, step (startedAt + startupTimeout) σ (.run x answer) = none) →
      σ.shared.startupErrors.length + σ.shared.windows.length = 1 ∧
      (σ.shared.startupErrors ≠ [] → σ.shared.sidecar = false ∧ σ.shared.stopped = 1) ∧
      (σ.shared.startupErrors = [] → σ.shared.leaving = false →
        σ.shared.sidecar = true ∧ σ.shared.stopped = 0)) := by
  have hinv := Invariant.of_reachable h
  refine ⟨fun schedule τ run => ?_, fun stuck => hinv.settled fun x => ?_⟩
  · rw [← List.length_map fun p : Thread × Except String Unit => Action.run p.1 p.2]
    refine le_trans ?_ σ.work_le
    refine Machine.length_le_of_exec (I := fun σ : State => startedAt + startupTimeout ≤ σ.shared.now) ?_ run late
    intro a ha σ τ hσ taken
    obtain ⟨p, -, rfl⟩ := List.mem_map.mp ha
    simp only [machine, step, Option.map_eq_some_iff] at taken
    obtain ⟨⟨t, m⟩, hthread, rfl⟩ := taken
    have hless := thread_rank hσ hthread
    have hload := load_update Phase.rank σ.phase p.1 m
    refine ⟨?_, ?_⟩
    · dsimp only
      rw [(thread_grows hthread).now]
      exact hσ
    · simp only [State.work]
      omega
  · refine (thread_enabled late (hinv.formed x)).resolve_left fun hready => ?_
    obtain ⟨p, hp⟩ := hready
    have hnone := stuck x (.ok ())
    rw [step, hp] at hnone
    cases hnone

/-- A shell that was kept from running for a minute, whose backend never reported a port. -/
def lateRun : List Action := List.replicate 7 (.run .watchdog (.ok ()))

theorem startup_settles_late : ∃ σ : State, startupTimeout ≤ σ.shared.now ∧
    σ.shared.startupErrors = [startupTimeoutMessage 0] ∧ σ.shared.sidecar = false ∧
    ((∀ (schedule : List (Thread × Except String Unit)) (τ : State),
      (machine 0).exec σ (schedule.map fun p => .run p.1 p.2) = some τ → schedule.length ≤ 61) ∧
    ((∀ x answer, step (0 + startupTimeout) σ (.run x answer) = none) →
      σ.shared.startupErrors.length + σ.shared.windows.length = 1 ∧
      (σ.shared.startupErrors ≠ [] → σ.shared.sidecar = false ∧ σ.shared.stopped = 1) ∧
      (σ.shared.startupErrors = [] → σ.shared.leaving = false →
        σ.shared.sidecar = true ∧ σ.shared.stopped = 0))) := by
  have hrun : ((machine 0).exec ⟨newShared startupTimeout, newPhase⟩ lateRun).any (fun σ =>
      0 + startupTimeout ≤ σ.shared.now && σ.shared.startupErrors = [startupTimeoutMessage 0] &&
        !σ.shared.sidecar) = true := by decide +kernel
  rw [Option.any_eq_true] at hrun
  obtain ⟨σ, hexec, hcheck⟩ := hrun
  simp only [Bool.and_eq_true, decide_eq_true_eq, Bool.not_eq_true'] at hcheck
  obtain ⟨⟨hlate, herrors⟩, hgone⟩ := hcheck
  have hstart : (machine 0).start ⟨newShared startupTimeout, newPhase⟩ :=
    ⟨⟨startupTimeout, Nat.zero_le _, rfl⟩, rfl⟩
  refine ⟨σ, by omega, herrors, hgone, ?_⟩
  exact startup_settles (Machine.reachable_of_exec lateRun hstart hexec) hlate

end UniversityHelper.DesktopStartup
