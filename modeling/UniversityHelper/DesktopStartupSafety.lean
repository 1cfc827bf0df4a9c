import UniversityHelper.DesktopStartup
import UniversityHelper.Threads

/-! One startup has one outcome: counting what each thread that claimed the completion still owes. -/
namespace UniversityHelper.DesktopStartup
variable {deadline startedAt : ℕ} {s t : Shared} {answer : Except String Unit} {l m : Phase} {σ τ : State}
  {a : Action}

/-! ### What a thread owes -/

/-- The claimed completion whose outcome the thread has not shown yet. -/
def Phase.effect : Phase → ℕ
  | .loadingPort => 1
  | .building _ => 1
  | .showing _ _ => 1
  | _ => 0

def Phase.stops : Phase → ℕ
  | .stopping _ => 1
  | _ => 0

def Phase.takes : Phase → ℕ
  | .taking _ => 1
  | _ => 0

/-- Both routes were answered, `/health` first. -/
def Served (s : Shared) (port : Port) : Prop :=
  s.spawned = some port ∧ [(port, "/health"), (port, "/")].Sublist s.answered

/-- What is known while a thread stands at a phase. -/
def Phase.Formed (deadline : ℕ) (s : Shared) : Phase → Prop
  | .dozing wake => wake ≤ deadline
  | .sleeping port wake => s.spawned = some port ∧ wake ≤ deadline
  | .looping port => s.spawned = some port
  | .probingHealth port => s.spawned = some port
  | .pausing port => s.spawned = some port
  | .healthy port => s.spawned = some port ∧ (port, "/health") ∈ s.answered
  | .probingRoot port => s.spawned = some port ∧ (port, "/health") ∈ s.answered
  | .serving port => Served s port
  | .addressing port => Served s port
  | .checking port => Served s port
  | .scheduling port => Served s port
  | .called port => Served s port
  | .claimingWindow port => Served s port
  | .building port => Served s port
  | .taking _ => s.startupErrors ≠ [] ∨ s.leaving = true
  | .stopping _ => s.startupErrors ≠ [] ∨ s.leaving = true
  | _ => True

/-- The phases that lead to the readiness task. -/
def Phase.Announces : Phase → Prop
  | .receiving => True
  | .received _ => True
  | .handling _ => True
  | .storingPort _ => True
  | .spawning _ => True
  | _ => False

/-- The watchdog before it has found the completion claimed, or claimed it. -/
def Phase.Waits : Phase → Prop
  | .polling => True
  | .remaining => True
  | .dozing _ => True
  | .claimingTimeout => True
  | _ => False

/-! ### One step of a thread -/

/-- What a step of a thread never takes back. -/
structure Grows (s t : Shared) : Prop where
  now : t.now = s.now
  leaving : t.leaving = s.leaving
  completion : s.completion = true → t.completion = true
  sidecar : s.sidecar = false → t.sidecar = false
  startupErrors : s.startupErrors ≠ [] → t.startupErrors ≠ []
  answered : s.answered.Sublist t.answered

theorem Grows.refl (s : Shared) : Grows s s := ⟨rfl, rfl, id, id, id, .refl _⟩

theorem handleEvent_grows (s : Shared) (event : CommandEvent) : Grows s (handleEvent s event).1 := by
  cases event with
  | stdout line =>
    simp only [handleEvent]
    split_ifs
    · exact .refl s
    · split
      · exact .refl s
      · exact ⟨rfl, rfl, id, id, id, .refl _⟩
  | _ => exact .refl s

theorem thread_grows (taken : threadStep deadline s answer l = some (t, m)) : Grows s t := by
  cases l with
  | absent | idle =>
    simp only [threadStep, Option.map_eq_some_iff, Prod.mk.injEq] at taken
    obtain ⟨port, -, rfl, -⟩ := taken
    exact ⟨rfl, rfl, id, id, id, .refl _⟩
  | finished | updating | receiving => cases taken
  | dozing wake | sleeping port wake =>
    simp only [threadStep] at taken
    split_ifs at taken
    cases taken
    exact .refl s
  | claimingTimeout | claimingWindow port | claiming message back =>
    simp only [threadStep] at taken
    split_ifs at taken <;> cases taken
    · exact .refl s
    · exact ⟨rfl, rfl, fun _ => rfl, id, id, .refl _⟩
  | handling event =>
    simp only [threadStep, Option.some_inj] at taken
    have hgrows := handleEvent_grows s event
    rwa [taken] at hgrows
  | probingHealth port | probingRoot port =>
    simp only [threadStep] at taken
    split at taken
    · split_ifs at taken <;> cases taken
      · exact ⟨rfl, rfl, id, id, id, List.sublist_append_left _ _⟩
      · exact .refl s
    · cases taken
      exact .refl s
  | addressing port | scheduling port | building port =>
    simp only [threadStep] at taken
    split at taken <;> (cases taken; exact ⟨rfl, rfl, id, id, id, .refl _⟩)
  | showing message back =>
    cases taken
    exact ⟨rfl, rfl, id, id, fun _ => List.append_ne_nil_of_right_ne_nil _ (List.cons_ne_nil _ _), .refl _⟩
  | taking back =>
    simp only [threadStep] at taken
    split_ifs at taken <;> cases taken
    · exact ⟨rfl, rfl, id, fun _ => rfl, id, .refl _⟩
    · exact .refl s
  | polling | remaining | loadingPort | received | storingPort | spawning | closing | looping | healthy
  | serving | pausing | checking | called | stopping =>
    cases taken
    exact ⟨rfl, rfl, id, id, id, .refl _⟩

/-- What a step of a thread that goes from `l` to `m` leaves balanced. -/
structure Balanced (s t : Shared) (l m : Phase) : Prop where
  outcomes : t.startupErrors.length + t.windows.length + s.completion.toNat + m.effect =
    s.startupErrors.length + s.windows.length + t.completion.toNat + l.effect
  stops : t.stopped + t.sidecar.toNat + m.stops = s.stopped + s.sidecar.toNat + l.stops
  takes : t.startupErrors.length + l.takes = s.startupErrors.length + m.takes ∨ t.sidecar = false
  reaps : t.sidecar = s.sidecar ∨ ∃ back, l = .taking back

theorem Return.phase_owes (back : Return) :
    back.phase.effect = 0 ∧ back.phase.stops = 0 ∧ back.phase.takes = 0 := by
  cases back <;> exact ⟨rfl, rfl, rfl⟩

theorem handleEvent_balanced (s : Shared) (event : CommandEvent) :
    Balanced s (handleEvent s event).1 (.handling event) (handleEvent s event).2 := by
  cases event with
  | stdout line =>
    simp only [handleEvent]
    split_ifs
    · exact ⟨rfl, rfl, .inl rfl, .inl rfl⟩
    · split <;> exact ⟨rfl, rfl, .inl rfl, .inl rfl⟩
  | _ => exact ⟨rfl, rfl, .inl rfl, .inl rfl⟩

theorem thread_balanced (taken : threadStep deadline s answer l = some (t, m)) : Balanced s t l m := by
  cases l with
  | absent | idle =>
    simp only [threadStep, Option.map_eq_some_iff, Prod.mk.injEq] at taken
    obtain ⟨port, -, rfl, rfl⟩ := taken
    exact ⟨rfl, rfl, .inl rfl, .inl rfl⟩
  | finished | updating | receiving => cases taken
  | dozing wake | sleeping port wake =>
    simp only [threadStep] at taken
    split_ifs at taken
    cases taken
    exact ⟨rfl, rfl, .inl rfl, .inl rfl⟩
  | claimingTimeout | claimingWindow port =>
    simp only [threadStep] at taken
    split_ifs at taken with hcompletion <;> cases taken
    · exact ⟨rfl, rfl, .inl rfl, .inl rfl⟩
    · exact ⟨by simp [hcompletion, Phase.effect], rfl, .inl rfl, .inl rfl⟩
  | claiming message back =>
    obtain ⟨heffect, hstops, htakes⟩ := back.phase_owes
    simp only [threadStep] at taken
    split_ifs at taken with hcompletion <;> cases taken
    · exact ⟨by rw [heffect]; rfl, by rw [hstops]; rfl, .inl (by rw [htakes]; rfl), .inl rfl⟩
    · exact ⟨by simp [hcompletion, Phase.effect], rfl, .inl rfl, .inl rfl⟩
  | handling event =>
    simp only [threadStep, Option.some_inj] at taken
    have hbalanced := handleEvent_balanced s event
    rwa [taken] at hbalanced
  | probingHealth port | probingRoot port =>
    simp only [threadStep] at taken
    split at taken
    · split_ifs at taken <;> (cases taken; exact ⟨rfl, rfl, .inl rfl, .inl rfl⟩)
    · cases taken
      exact ⟨rfl, rfl, .inl rfl, .inl rfl⟩
  | addressing port | scheduling port =>
    simp only [threadStep] at taken
    split at taken <;> (cases taken; exact ⟨rfl, rfl, .inl rfl, .inl rfl⟩)
  | building port =>
    simp only [threadStep] at taken
    split at taken <;> cases taken
    · refine ⟨?_, rfl, .inl rfl, .inl rfl⟩
      simp only [Phase.effect, List.length_append, List.length_singleton]
      omega
    · exact ⟨rfl, rfl, .inl rfl, .inl rfl⟩
  | showing message back =>
    cases taken
    refine ⟨?_, rfl, .inl ?_, .inl rfl⟩
    · simp only [Phase.effect, List.length_append, List.length_singleton]
      omega
    · simp [Phase.takes]
  | taking back =>
    obtain ⟨heffect, hstops, htakes⟩ := back.phase_owes
    simp only [threadStep] at taken
    split_ifs at taken with hsidecar <;> cases taken
    · exact ⟨rfl, by simp [hsidecar, Phase.stops], .inr rfl, .inr ⟨back, rfl⟩⟩
    · exact ⟨by rw [heffect]; rfl, by rw [hstops]; rfl, .inr (by simpa using hsidecar), .inl rfl⟩
  | stopping back =>
    obtain ⟨heffect, hstops, htakes⟩ := back.phase_owes
    cases taken
    refine ⟨by rw [heffect]; rfl, ?_, .inl (by rw [htakes]; rfl), .inl rfl⟩
    rw [hstops]
    simp only [Phase.stops]
    omega
  | polling | remaining | received | closing | looping | healthy | serving | pausing | checking | called =>
    cases taken
    split_ifs <;> exact ⟨rfl, rfl, .inl rfl, .inl rfl⟩
  | loadingPort | storingPort | spawning =>
    cases taken
    exact ⟨rfl, rfl, .inl rfl, .inl rfl⟩

/-! ### The readiness task and what it was told -/

/-- A readiness task is spawned once, for the port that the watchdog sees. -/
structure Announced (s : Shared) (l : Phase) : Prop where
  unstarted : s.readinessStarted = false → s.spawned = none
  storing : ∀ port, l = .storingPort port → s.readinessStarted = true ∧ s.spawned = none
  spawning : ∀ port, l = .spawning port → s.readinessStarted = true ∧ s.spawned = none ∧ s.observedPort = port
  observed : ∀ port, s.spawned = some port → s.observedPort = port

theorem Return.phase_silent (back : Return) : ¬ back.phase.Announces := by
  cases back <;> exact id

theorem thread_silent (silent : ¬ l.Announces) (taken : threadStep deadline s answer l = some (t, m)) :
    ¬ m.Announces ∧ t.readinessStarted = s.readinessStarted ∧ t.spawned = s.spawned ∧
      t.observedPort = s.observedPort := by
  cases l with
  | receiving | received | handling | storingPort | spawning => exact absurd trivial silent
  | absent | idle =>
    simp only [threadStep, Option.map_eq_some_iff, Prod.mk.injEq] at taken
    obtain ⟨port, -, rfl, rfl⟩ := taken
    exact ⟨id, rfl, rfl, rfl⟩
  | finished | updating => cases taken
  | dozing wake | sleeping port wake =>
    simp only [threadStep] at taken
    split_ifs at taken
    cases taken
    exact ⟨id, rfl, rfl, rfl⟩
  | claimingTimeout | claimingWindow port =>
    simp only [threadStep] at taken
    split_ifs at taken <;> (cases taken; exact ⟨id, rfl, rfl, rfl⟩)
  | claiming message back =>
    simp only [threadStep] at taken
    split_ifs at taken <;> cases taken
    · exact ⟨back.phase_silent, rfl, rfl, rfl⟩
    · exact ⟨id, rfl, rfl, rfl⟩
  | taking back =>
    simp only [threadStep] at taken
    split_ifs at taken <;> cases taken
    · exact ⟨id, rfl, rfl, rfl⟩
    · exact ⟨back.phase_silent, rfl, rfl, rfl⟩
  | stopping back =>
    cases taken
    exact ⟨back.phase_silent, rfl, rfl, rfl⟩
  | probingHealth port | probingRoot port =>
    simp only [threadStep] at taken
    split at taken
    · split_ifs at taken <;> (cases taken; exact ⟨id, rfl, rfl, rfl⟩)
    · cases taken
      exact ⟨id, rfl, rfl, rfl⟩
  | addressing port | scheduling port | building port =>
    simp only [threadStep] at taken
    split at taken <;> (cases taken; exact ⟨id, rfl, rfl, rfl⟩)
  | polling | remaining | closing | looping | healthy | serving | pausing | checking | called =>
    cases taken
    split_ifs <;> exact ⟨id, rfl, rfl, rfl⟩
  | loadingPort | showing =>
    cases taken
    exact ⟨id, rfl, rfl, rfl⟩

theorem Announced.silent (h : Announced s l) (started : t.readinessStarted = s.readinessStarted)
    (spawned : t.spawned = s.spawned) (observed : t.observedPort = s.observedPort)
    (hm : m = l ∨ ¬ m.Announces) : Announced t m := by
  have hphase : m.Announces → m = l := fun hannounces => hm.resolve_right fun hsilent => hsilent hannounces
  refine ⟨fun hstarted => ?_, fun port hport => ?_, fun port hport => ?_, fun port hport => ?_⟩
  · rw [spawned]
    exact h.unstarted (started ▸ hstarted)
  · rw [spawned, started]
    exact h.storing port ((hphase (hport ▸ trivial)).symm.trans hport)
  · rw [spawned, started, observed]
    exact h.spawning port ((hphase (hport ▸ trivial)).symm.trans hport)
  · rw [observed]
    exact h.observed port (spawned ▸ hport)

/-- A step of the reader. -/
theorem Announced.step (h : Announced s l) (taken : threadStep deadline s answer l = some (t, m)) :
    Announced t m ∧ ∀ port, s.spawned = some port → t.spawned = some port := by
  by_cases hl : l.Announces
  · cases l with
    | receiving => cases taken
    | received event =>
      cases taken
      refine ⟨⟨h.unstarted, ?_, ?_, h.observed⟩, fun _ => id⟩ <;> (intro port; split_ifs <;> exact nofun)
    | handling event =>
      simp only [threadStep, Option.some_inj] at taken
      cases event with
      | stdout line =>
        simp only [handleEvent] at taken
        split_ifs at taken with hstarted
        · cases taken
          exact ⟨⟨h.unstarted, nofun, nofun, h.observed⟩, fun _ => id⟩
        · split at taken <;> cases taken
          · exact ⟨⟨h.unstarted, nofun, nofun, h.observed⟩, fun _ => id⟩
          · have hnone := h.unstarted (by simpa using hstarted)
            exact ⟨⟨nofun, fun _ _ => ⟨rfl, hnone⟩, nofun, h.observed⟩, fun _ => id⟩
      | stderr | error | terminated | other =>
        cases taken
        exact ⟨⟨h.unstarted, nofun, nofun, h.observed⟩, fun _ => id⟩
    | storingPort port =>
      obtain ⟨hstarted, hnone⟩ := h.storing port rfl
      cases taken
      refine ⟨⟨h.unstarted, nofun, fun other hother => ?_, fun other hother => ?_⟩, fun _ => id⟩
      · cases hother
        exact ⟨hstarted, hnone, rfl⟩
      · rw [hnone] at hother
        cases hother
    | spawning port =>
      obtain ⟨hstarted, hnone, hobserved⟩ := h.spawning port rfl
      cases taken
      refine ⟨⟨fun hunstarted => ?_, nofun, nofun, fun other hother => ?_⟩, fun other hother => ?_⟩
      · rw [hstarted] at hunstarted
        cases hunstarted
      · cases hother
        exact hobserved
      · rw [hnone] at hother
        cases hother
    | _ => exact absurd hl id
  · obtain ⟨hsilent, hstarted, hspawned, hobserved⟩ := thread_silent hl taken
    exact ⟨h.silent hstarted hspawned hobserved (.inr hsilent), fun port hport => hspawned.trans hport⟩

/-! ### What is known at each phase -/

theorem Served.grows {port : Port} (h : Served s port) (grows : Grows s t)
    (spawned : ∀ port, s.spawned = some port → t.spawned = some port) : Served t port :=
  ⟨spawned port h.1, h.2.trans grows.answered⟩

theorem Phase.Formed.grows (h : l.Formed deadline s) (grows : Grows s t)
    (spawned : ∀ port, s.spawned = some port → t.spawned = some port) : l.Formed deadline t := by
  cases l with
  | sleeping port wake => exact ⟨spawned port h.1, h.2⟩
  | looping port | probingHealth port | pausing port => exact spawned port h
  | healthy port | probingRoot port => exact ⟨spawned port h.1, grows.answered.subset h.2⟩
  | serving port | addressing port | checking port | scheduling port | called port | claimingWindow port
  | building port => exact Served.grows h grows spawned
  | taking back | stopping back => exact h.imp grows.startupErrors grows.leaving.trans
  | _ => exact h

/-- The callback in the queue and the windows are for a backend that was served. -/
structure Offered (s : Shared) : Prop where
  queued : ∀ port, s.queued = some port → Served s port
  windows : ∀ port ∈ s.windows, Served s port

theorem Offered.grows (h : Offered s) (grows : Grows s t)
    (spawned : ∀ port, s.spawned = some port → t.spawned = some port)
    (queued : t.queued = s.queued) (windows : t.windows = s.windows) : Offered t :=
  ⟨fun port hport => (h.queued port (queued ▸ hport)).grows grows spawned,
    fun port hport => (h.windows port (windows ▸ hport)).grows grows spawned⟩

theorem Return.phase_formed (back : Return) : back.phase.Formed deadline s := by
  cases back <;> trivial

theorem handleEvent_formed (deadline : ℕ) (s : Shared) (event : CommandEvent) :
    (handleEvent s event).2.Formed deadline (handleEvent s event).1 := by
  cases event with
  | stdout line =>
    simp only [handleEvent]
    split_ifs
    · trivial
    · split <;> trivial
  | _ => trivial

theorem handleEvent_offers (s : Shared) (event : CommandEvent) :
    (handleEvent s event).1.queued = s.queued ∧ (handleEvent s event).1.windows = s.windows := by
  cases event with
  | stdout line =>
    simp only [handleEvent]
    split_ifs
    · exact ⟨rfl, rfl⟩
    · split <;> exact ⟨rfl, rfl⟩
  | _ => exact ⟨rfl, rfl⟩

theorem thread_formed (h : l.Formed deadline s) (offered : Offered s)
    (spawned : ∀ port, s.spawned = some port → t.spawned = some port)
    (taken : threadStep deadline s answer l = some (t, m)) : m.Formed deadline t ∧ Offered t := by
  have hgrows := thread_grows taken
  have hoffered := offered.grows hgrows spawned
  cases l with
  | absent =>
    simp only [threadStep, Option.map_eq_some_iff, Prod.mk.injEq] at taken
    obtain ⟨port, hport, rfl, rfl⟩ := taken
    exact ⟨hport, offered⟩
  | idle =>
    simp only [threadStep, Option.map_eq_some_iff, Prod.mk.injEq] at taken
    obtain ⟨port, hport, rfl, rfl⟩ := taken
    exact ⟨offered.queued port hport, nofun, offered.windows⟩
  | finished | updating | receiving => cases taken
  | dozing wake =>
    simp only [threadStep] at taken
    split_ifs at taken
    cases taken
    exact ⟨trivial, offered⟩
  | sleeping port wake =>
    simp only [threadStep] at taken
    split_ifs at taken
    cases taken
    exact ⟨h.1, offered⟩
  | claimingTimeout =>
    simp only [threadStep] at taken
    split_ifs at taken <;> (cases taken; exact ⟨trivial, hoffered rfl rfl⟩)
  | claimingWindow port =>
    simp only [threadStep] at taken
    split_ifs at taken <;> cases taken
    · exact ⟨trivial, offered⟩
    · exact ⟨Served.grows h hgrows spawned, hoffered rfl rfl⟩
  | claiming message back =>
    simp only [threadStep] at taken
    split_ifs at taken <;> cases taken
    · exact ⟨back.phase_formed, offered⟩
    · exact ⟨trivial, hoffered rfl rfl⟩
  | handling event =>
    simp only [threadStep, Option.some_inj] at taken
    have hformed := handleEvent_formed deadline s event
    obtain ⟨hqueued, hwindows⟩ := handleEvent_offers s event
    rw [taken] at hformed hqueued hwindows
    exact ⟨hformed, hoffered hqueued hwindows⟩
  | probingHealth port =>
    simp only [threadStep] at taken
    split at taken
    · split_ifs at taken <;> cases taken
      · exact ⟨⟨h, List.mem_append_right _ List.mem_cons_self⟩, hoffered rfl rfl⟩
      · exact ⟨h, offered⟩
    · cases taken
      exact ⟨h, offered⟩
  | probingRoot port =>
    simp only [threadStep] at taken
    split at taken
    · split_ifs at taken <;> cases taken
      · have hboth := (List.singleton_sublist.mpr h.2).append (List.Sublist.refl [(port, "/")])
        exact ⟨⟨h.1, hboth⟩, hoffered rfl rfl⟩
      · exact ⟨h.1, offered⟩
    · cases taken
      exact ⟨h.1, offered⟩
  | addressing port =>
    simp only [threadStep] at taken
    split at taken <;> cases taken
    · exact ⟨h, offered⟩
    · exact ⟨trivial, offered⟩
  | scheduling port =>
    simp only [threadStep] at taken
    split at taken <;> cases taken
    · refine ⟨trivial, fun other hother => ?_, offered.windows⟩
      cases hother
      exact h
    · exact ⟨trivial, offered⟩
  | building port =>
    simp only [threadStep] at taken
    split at taken <;> cases taken
    · refine ⟨trivial, offered.queued, fun other hother => ?_⟩
      rcases List.mem_append.mp hother with hold | hnew
      · exact offered.windows other hold
      · obtain rfl := List.mem_singleton.mp hnew
        exact h
    · exact ⟨trivial, offered⟩
  | showing message back =>
    cases taken
    exact ⟨.inl (List.append_ne_nil_of_right_ne_nil _ (List.cons_ne_nil _ _)), hoffered rfl rfl⟩
  | taking back =>
    simp only [threadStep] at taken
    split_ifs at taken <;> cases taken
    · exact ⟨h, hoffered rfl rfl⟩
    · exact ⟨back.phase_formed, offered⟩
  | stopping back =>
    cases taken
    exact ⟨back.phase_formed, hoffered rfl rfl⟩
  | remaining =>
    cases taken
    split_ifs with hlate
    · exact ⟨trivial, offered⟩
    · refine ⟨?_, offered⟩
      simp only [Phase.Formed]
      omega
  | pausing port =>
    cases taken
    split_ifs with hlate
    · exact ⟨trivial, offered⟩
    · refine ⟨⟨h, ?_⟩, offered⟩
      omega
  | serving port =>
    cases taken
    split_ifs
    · exact ⟨h, offered⟩
    · exact ⟨trivial, offered⟩
  | looping port | healthy port | checking port | called port =>
    cases taken
    split_ifs
    · exact ⟨trivial, offered⟩
    · exact ⟨h, offered⟩
  | polling | received | closing =>
    cases taken
    split_ifs <;> exact ⟨trivial, offered⟩
  | loadingPort | storingPort | spawning =>
    cases taken
    exact ⟨trivial, hoffered rfl rfl⟩

/-- A watchdog that has not yet looked past the completion goes on looking until it is claimed. -/
theorem thread_waits (h : l.Waits ∨ s.completion = true) (taken : threadStep deadline s answer l = some (t, m)) :
    m.Waits ∨ t.completion = true := by
  rcases h with hwaits | hcompletion
  · cases l with
    | polling =>
      cases taken
      split_ifs with hcompletion
      · exact .inr hcompletion
      · exact .inl trivial
    | remaining =>
      cases taken
      split_ifs <;> exact .inl trivial
    | dozing wake =>
      simp only [threadStep] at taken
      split_ifs at taken
      cases taken
      exact .inl trivial
    | claimingTimeout =>
      simp only [threadStep] at taken
      split_ifs at taken with hcompletion <;> cases taken
      · exact .inr hcompletion
      · exact .inr rfl
    | _ => exact absurd hwaits id
  · exact .inr ((thread_grows taken).completion hcompletion)

/-! ### Every run -/

theorem step_cases (taken : step deadline σ a = some τ) :
    (a = .tick ∧ τ = { σ with shared := { σ.shared with now := σ.shared.now + 1 } }) ∨
    (∃ event : Option CommandEvent, a = .receive event ∧ σ.phase .reader = .receiving ∧
      τ = { σ with phase := Function.update σ.phase .reader (event.elim .closing .received) }) ∨
    (∃ x, (a = .exit ∨ a = .update) ∧ x ≠ .watchdog ∧ x ≠ .reader ∧
      (σ.phase x = .idle ∨ σ.phase x = .updating) ∧
      τ = ⟨{ σ.shared with leaving := true }, Function.update σ.phase x (.taking .finished)⟩) ∨
    ∃ x answer t m, a = .run x answer ∧ threadStep deadline σ.shared answer (σ.phase x) = some (t, m) ∧
      τ = ⟨t, Function.update σ.phase x m⟩ := by
  cases a with
  | tick => exact .inl ⟨rfl, (Option.some_inj.mp taken).symm⟩
  | receive event =>
    simp only [step] at taken
    split at taken
    · rename_i hphase
      exact .inr (.inl ⟨event, rfl, hphase, (Option.some_inj.mp taken).symm⟩)
    · cases taken
  | exit =>
    simp only [step] at taken
    split at taken
    · rename_i hphase
      exact .inr (.inr (.inl ⟨.main, .inl rfl, nofun, nofun, .inl hphase, (Option.some_inj.mp taken).symm⟩))
    · cases taken
  | update =>
    simp only [step] at taken
    split at taken
    · rename_i hphase
      exact .inr (.inr (.inl ⟨.updater, .inr rfl, nofun, nofun, .inr hphase, (Option.some_inj.mp taken).symm⟩))
    · cases taken
  | run x answer =>
    simp only [step, Option.map_eq_some_iff] at taken
    obtain ⟨⟨t, m⟩, hthread, rfl⟩ := taken
    exact .inr (.inr (.inr ⟨x, answer, t, m, rfl, hthread, rfl⟩))

structure Invariant (deadline : ℕ) (s : Shared) (phase : Thread → Phase) : Prop where
  outcomes : s.startupErrors.length + s.windows.length + load Phase.effect phase = s.completion.toNat
  stops : s.stopped + s.sidecar.toNat + load Phase.stops phase = 1
  takes : s.startupErrors.length ≤ load Phase.takes phase ∨ s.sidecar = false
  formed : ∀ x, (phase x).Formed deadline s
  offered : Offered s
  announced : Announced s (phase .reader)
  silent : ∀ x, x ≠ .reader → ¬ (phase x).Announces
  watched : (phase .watchdog).Waits ∨ s.completion = true
  reaped : s.sidecar = false → s.startupErrors ≠ [] ∨ s.leaving = true

variable {phase : Thread → Phase} {x : Thread}

theorem Invariant.started {now : ℕ} : Invariant deadline (newShared now) newPhase where
  outcomes := rfl
  stops := rfl
  takes := .inl (Nat.zero_le _)
  formed x := by cases x <;> trivial
  offered := ⟨nofun, nofun⟩
  announced := ⟨fun _ => rfl, nofun, nofun, nofun⟩
  silent x hx := by cases x <;> first | exact id | exact absurd rfl hx
  watched := .inl trivial
  reaped := nofun

theorem Invariant.tick (h : Invariant deadline s phase) (now : ℕ) :
    Invariant deadline { s with now := now } phase where
  outcomes := h.outcomes
  stops := h.stops
  takes := h.takes
  formed y := by
    have hy := h.formed y
    cases hphase : phase y <;> (rw [hphase] at hy; exact hy)
  offered := ⟨h.offered.queued, h.offered.windows⟩
  announced := ⟨h.announced.unstarted, h.announced.storing, h.announced.spawning, h.announced.observed⟩
  silent := h.silent
  watched := h.watched
  reaped := h.reaped

theorem Invariant.leave (h : Invariant deadline s phase) :
    Invariant deadline { s with leaving := true } phase where
  outcomes := h.outcomes
  stops := h.stops
  takes := h.takes
  formed y := by
    have hy := h.formed y
    cases hphase : phase y with
    | taking | stopping => exact .inr rfl
    | _ => (rw [hphase] at hy; exact hy)
  offered := ⟨h.offered.queued, h.offered.windows⟩
  announced := ⟨h.announced.unstarted, h.announced.storing, h.announced.spawning, h.announced.observed⟩
  silent := h.silent
  watched := h.watched
  reaped _ := .inr rfl

/-- A thread other than the watchdog moves between phases that owe nothing. -/
theorem Invariant.move (h : Invariant deadline s phase)
    (hl : (phase x).effect = 0 ∧ (phase x).stops = 0 ∧ (phase x).takes = 0)
    (hm : m.effect = 0 ∧ m.stops = 0) (formed : m.Formed deadline s) (watchdog : x ≠ .watchdog)
    (announced : Announced s (Function.update phase x m .reader)) (silent : x = .reader ∨ ¬ m.Announces) :
    Invariant deadline s (Function.update phase x m) where
  outcomes := by
    rw [load_update_of_eq (hm.1.trans hl.1.symm)]
    exact h.outcomes
  stops := by
    rw [load_update_of_eq (hm.2.trans hl.2.1.symm)]
    exact h.stops
  takes := by
    have hload := load_update Phase.takes phase x m
    rw [hl.2.2] at hload
    exact h.takes.imp (fun htakes => htakes.trans (by omega)) id
  formed y := by
    obtain rfl | hy := eq_or_ne y x
    · rw [Function.update_self]
      exact formed
    · rw [Function.update_of_ne hy]
      exact h.formed y
  offered := h.offered
  announced := announced
  silent y hy := by
    obtain rfl | hyx := eq_or_ne y x
    · rw [Function.update_self]
      exact silent.resolve_left hy
    · rw [Function.update_of_ne hyx]
      exact h.silent y hy
  watched := by
    rw [Function.update_of_ne watchdog.symm]
    exact h.watched
  reaped := h.reaped

theorem Invariant.run (h : Invariant deadline s phase)
    (taken : threadStep deadline s answer (phase x) = some (t, m)) :
    Invariant deadline t (Function.update phase x m) := by
  have hgrows := thread_grows taken
  have hbalanced := thread_balanced taken
  have heffect := load_update Phase.effect phase x m
  have hstops := load_update Phase.stops phase x m
  have htakes := load_update Phase.takes phase x m
  obtain ⟨hannounced, hspawned⟩ : Announced t (Function.update phase x m .reader) ∧
      ∀ port, s.spawned = some port → t.spawned = some port := by
    obtain rfl | hx := eq_or_ne x .reader
    · rw [Function.update_self]
      exact h.announced.step taken
    · obtain ⟨-, hstarted, hspawned, hobserved⟩ := thread_silent (h.silent x hx) taken
      rw [Function.update_of_ne hx.symm]
      exact ⟨h.announced.silent hstarted hspawned hobserved (.inl rfl), fun port hport => hspawned.trans hport⟩
  obtain ⟨hformed, hoffered⟩ := thread_formed (h.formed x) h.offered hspawned taken
  refine ⟨?_, ?_, ?_, fun y => ?_, hoffered, hannounced, fun y hy => ?_, ?_, fun hsidecar => ?_⟩
  · have hold := h.outcomes
    have hnew := hbalanced.outcomes
    omega
  · have hold := h.stops
    have hnew := hbalanced.stops
    omega
  · rcases hbalanced.takes with hnew | hgone
    · exact h.takes.imp (fun hold => by omega) hgrows.sidecar
    · exact .inr hgone
  · obtain rfl | hyx := eq_or_ne y x
    · rw [Function.update_self]
      exact hformed
    · rw [Function.update_of_ne hyx]
      exact (h.formed y).grows hgrows hspawned
  · obtain rfl | hyx := eq_or_ne y x
    · rw [Function.update_self]
      exact (thread_silent (h.silent y hy) taken).1
    · rw [Function.update_of_ne hyx]
      exact h.silent y hy
  · obtain rfl | hx := eq_or_ne x .watchdog
    · rw [Function.update_self]
      exact thread_waits h.watched taken
    · rw [Function.update_of_ne hx.symm]
      exact h.watched.imp id hgrows.completion
  · have hknown : s.startupErrors ≠ [] ∨ s.leaving = true := by
      rcases hbalanced.reaps with hsame | ⟨back, htaking⟩
      · exact h.reaped (hsame.symm.trans hsidecar)
      · have hx := h.formed x
        rwa [htaking] at hx
    exact hknown.imp hgrows.startupErrors hgrows.leaving.trans

theorem Invariant.preserved (h : Invariant deadline σ.shared σ.phase) (taken : step deadline σ a = some τ) :
    Invariant deadline τ.shared τ.phase := by
  obtain ⟨-, rfl⟩ | ⟨event, -, hphase, rfl⟩ | ⟨x, -, hwatchdog, hreader, hphase, rfl⟩ |
    ⟨x, answer, t, m, -, hthread, rfl⟩ := step_cases taken
  · exact h.tick _
  · have hfree : (σ.phase .reader).effect = 0 ∧ (σ.phase .reader).stops = 0 ∧ (σ.phase .reader).takes = 0 := by
      rw [hphase]
      exact ⟨rfl, rfl, rfl⟩
    refine h.move hfree ?_ ?_ nofun ?_ (.inl rfl)
    · cases event <;> exact ⟨rfl, rfl⟩
    · cases event <;> trivial
    · rw [Function.update_self]
      refine ⟨h.announced.unstarted, ?_, ?_, h.announced.observed⟩ <;> (intro port; cases event <;> exact nofun)
  · have hfree : (σ.phase x).effect = 0 ∧ (σ.phase x).stops = 0 ∧ (σ.phase x).takes = 0 := by
      rcases hphase with hphase | hphase <;> (rw [hphase]; exact ⟨rfl, rfl, rfl⟩)
    refine h.leave.move hfree ⟨rfl, rfl⟩ (.inr rfl) hwatchdog ?_ (.inr id)
    rw [Function.update_of_ne hreader.symm]
    exact h.leave.announced
  · exact h.run hthread

theorem Invariant.of_reachable (h : (machine startedAt).Reachable Machine.free σ) :
    Invariant (startedAt + startupTimeout) σ.shared σ.phase := by
  refine h.invariant (I := fun σ => Invariant (startedAt + startupTimeout) σ.shared σ.phase) (fun σ hσ => ?_)
    fun σ a τ hσ _ taken => hσ.preserved taken
  obtain ⟨⟨now, -, hshared⟩, hphase⟩ := hσ
  rw [hshared, hphase]
  exact .started

/-- Whatever the order: one outcome at most, the sidecar stopped at most once and only after an error or on
the way out, and a main window only for the port that the sidecar reported and both of whose routes answered
before the deadline. -/
theorem startup_outcome (h : (machine startedAt).Reachable Machine.free σ) :
    σ.shared.startupErrors.length + σ.shared.windows.length ≤ σ.shared.completion.toNat ∧
    σ.shared.stopped + σ.shared.sidecar.toNat ≤ 1 ∧
    (σ.shared.sidecar = false → σ.shared.startupErrors ≠ [] ∨ σ.shared.leaving = true) ∧
    ∀ port ∈ σ.shared.windows, σ.shared.observedPort = port ∧
      [(port, "/health"), (port, "/")].Sublist σ.shared.answered := by
  have hinv := Invariant.of_reachable h
  have houtcomes := hinv.outcomes
  have hstops := hinv.stops
  refine ⟨by omega, by omega, hinv.reaped, fun port hport => ?_⟩
  obtain ⟨hspawned, hanswered⟩ := hinv.offered.windows port hport
  exact ⟨hinv.announced.observed port hspawned, hanswered⟩

/-- The sidecar reports port 8000 and serves both routes; the window opens, and then the sidecar ends. -/
def servedRun : List Action :=
  let run (x : Thread) (n : ℕ) := List.replicate n (Action.run x (.ok ()))
  .receive (some (.stdout "UH_BACKEND_LISTENING 8000\r\n")) :: run .reader 4 ++ run .readiness 9 ++ run .main 4 ++
    .receive (some (.terminated "1")) :: run .reader 2

theorem startup_outcome_served : ∃ σ : State, σ.shared.windows = [8000] ∧ σ.shared.sidecar = true ∧
    σ.shared.startupErrors.length + σ.shared.windows.length ≤ σ.shared.completion.toNat ∧
    σ.shared.stopped + σ.shared.sidecar.toNat ≤ 1 ∧
    (σ.shared.sidecar = false → σ.shared.startupErrors ≠ [] ∨ σ.shared.leaving = true) ∧
    ∀ port ∈ σ.shared.windows, σ.shared.observedPort = port ∧
      [(port, "/health"), (port, "/")].Sublist σ.shared.answered := by
  have hrun : ((machine 0).exec ⟨newShared 0, newPhase⟩ servedRun).any
      (fun σ => σ.shared.windows = [8000] && σ.shared.sidecar) = true := by decide +kernel
  obtain ⟨σ, hexec, hcheck⟩ := Option.any_eq_true _ _ |>.mp hrun
  simp only [Bool.and_eq_true, decide_eq_true_eq] at hcheck
  have hstart : (machine 0).start ⟨newShared 0, newPhase⟩ := ⟨⟨0, le_rfl, rfl⟩, rfl⟩
  exact ⟨σ, hcheck.1, hcheck.2, startup_outcome (Machine.reachable_of_exec servedRun hstart hexec)⟩

end UniversityHelper.DesktopStartup
