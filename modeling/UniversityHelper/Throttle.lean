import UniversityHelper.Machine

/-! The throttles of the two answer providers: under its lock a thread works out how long to sleep
and stamps the instance, and it sleeps and sends its request outside the lock. Times are those of a
clock that never goes back, in any ordered ring. -/
namespace UniversityHelper.Throttle

inductive Provider
  | ai
  | go
  deriving DecidableEq

section Times
variable {K : Type*} [CommRing K] [LinearOrder K]

/-- `sleep_time` of `AI._respect_interval`; a stamp of zero counts as no stamp. -/
def sleepTime (minInterval : K) (lastRequestTime : Option K) (now : K) : K :=
  match lastRequestTime with
  | none => 0
  | some last =>
    if last = 0 then 0
    else if now - last < minInterval then minInterval - (now - last) else 0

/-- `wait_time` of `TikuGo._sleep_for_next_request`. -/
def waitTime (minInterval lastRequestTime now : K) : K :=
  max 0 (lastRequestTime + minInterval - now)

end Times

/-- Where a thread is; a start is the time at which its sleep ends. -/
inductive Phase (K : Type*)
  | idle
  /-- holding a permit of the AI semaphore -/
  | admitted
  /-- inside the AI lock, between the two readings of the clock -/
  | checked (sleep : K)
  | sleeping (provider : Provider) (start : K)
  | requesting (provider : Provider)

structure State (T K : Type*) where
  clock : K
  /-- `None` until the provider is initialised -/
  permits : Option ℕ
  intervalLock : Option T
  aiLast : Option K
  goLast : K
  thread : T → Phase K
  /-- the times at which requests were sent, newest first -/
  sent : Provider → List K

/-- The minimum interval of each instance, and the permits of the AI semaphore. -/
structure Settings (K : Type*) where
  interval : Provider → K
  permits : Option ℕ

inductive Action (T K : Type*)
  | tick (now : K)
  | acquire (t : T)
  | check (t : T)
  | stamp (t : T)
  | reserve (t : T)
  | send (t : T)
  | finish (t : T)
  | drop (t : T)

variable {T K : Type*} [DecidableEq T] [CommRing K] [LinearOrder K]

def State.enter (s : State T K) (t : T) (phase : Phase K) : State T K :=
  { s with thread := Function.update s.thread t phase }

def step (settings : Settings K) (s : State T K) : Action T K → Option (State T K)
  | .tick now => if s.clock ≤ now then some { s with clock := now } else none
  | .acquire t =>
    match s.thread t with
    | .idle =>
      if s.permits = some 0 then none
      else some ({ s with permits := s.permits.map (· - 1) }.enter t .admitted)
    | _ => none
  | .check t =>
    match s.thread t with
    | .admitted =>
      if s.intervalLock = none then
        some ({ s with intervalLock := some t }.enter t
          (.checked (sleepTime (settings.interval .ai) s.aiLast s.clock)))
      else none
    | _ => none
  | .stamp t =>
    match s.thread t with
    | .checked sleep =>
      some ({ s with intervalLock := none, aiLast := some s.clock }.enter t
        (.sleeping .ai (s.clock + sleep)))
    | _ => none
  | .reserve t =>
    match s.thread t with
    | .idle =>
      let slot := s.clock + waitTime (settings.interval .go) s.goLast s.clock
      some ({ s with goLast := slot }.enter t (.sleeping .go slot))
    | _ => none
  -- sleeps are exact: a request starts when the clock shows the end of the sleep
  | .send t =>
    match s.thread t with
    | .sleeping provider start =>
      if s.clock = start then
        some ({ s with sent := Function.update s.sent provider (s.clock :: s.sent provider) }.enter t
          (.requesting provider))
      else none
    | _ => none
  | .finish t =>
    match s.thread t with
    | .requesting .ai => some ({ s with permits := s.permits.map (· + 1) }.enter t .idle)
    | .requesting .go => some ({ s with goLast := s.clock }.enter t .idle)
    | _ => none
  -- an exception that `_request_question` does not catch leaves the stamp as it is
  | .drop t =>
    match s.thread t with
    | .requesting .go => some (s.enter t .idle)
    | _ => none

def machine (T : Type*) [DecidableEq T] (settings : Settings K) : Machine (State T K) (Action T K) where
  start s := ∃ now, s = ⟨now, settings.permits, none, none, 0, fun _ => .idle, fun _ => []⟩
  step := step settings

/-- The starts already given out by an instance: of the requests sent and of the threads asleep. -/
def State.Given (s : State T K) (provider : Provider) (start : K) : Prop :=
  start ∈ s.sent provider ∨ ∃ t, s.thread t = .sleeping provider start

/-- The time from which the next start of the instance is counted. -/
def State.base (s : State T K) : Provider → Option K
  | .ai => s.aiLast.filter (· ≠ 0)
  | .go => some s.goLast

/-- Every start given out that is less than the interval in the past is covered by the stamp. -/
def State.Covered (settings : Settings K) (s : State T K) (provider : Provider) : Prop :=
  ∀ start, s.Given provider start →
    (∃ last, s.base provider = some last ∧ start ≤ last) ∨
      start + settings.interval provider ≤ s.clock

/-- A thread enters a lock section only while the stamp there covers the starts given out. -/
def Stamped (settings : Settings K) (s : State T K) : Action T K → Prop
  | .check _ => s.Covered settings .ai
  | .reserve _ => s.Covered settings .go
  | _ => True

def Apart (interval a b : K) : Prop := a + interval ≤ b ∨ b + interval ≤ a

omit [LinearOrder K] in
theorem Apart.symm [LinearOrder K] {interval a b : K} (h : Apart interval a b) :
    Apart interval b a := Or.symm h

/-- Any two requests of an instance start at least its minimum interval apart. -/
def Spaced (settings : Settings K) (s : State T K) (provider : Provider) : Prop :=
  (s.sent provider).Pairwise (Apart (settings.interval provider))

section Sleeps
variable [IsStrictOrderedRing K]

theorem sleepTime_nonneg (interval : K) (last : Option K) (now : K) :
    0 ≤ sleepTime interval last now := by
  unfold sleepTime
  split
  · exact le_rfl
  · split_ifs with _ hshort
    · exact le_rfl
    · linarith
    · exact le_rfl

theorem le_add_sleepTime (interval : K) {last : Option K} {stamp : K} (now : K)
    (h : last.filter (· ≠ 0) = some stamp) :
    stamp + interval ≤ now + sleepTime interval last now := by
  obtain ⟨rfl, hne⟩ := Option.filter_eq_some_iff.mp h
  have hne' : stamp ≠ 0 := by simpa using hne
  unfold sleepTime
  dsimp only
  split_ifs with _ hshort
  · contradiction
  · linarith
  · linarith

omit [IsStrictOrderedRing K] in
theorem waitTime_nonneg (interval last now : K) : 0 ≤ waitTime interval last now := le_max_left _ _

theorem le_add_waitTime (interval last now : K) :
    last + interval ≤ now + waitTime interval last now := by
  have h : last + interval - now ≤ waitTime interval last now := le_max_right _ _
  linarith

end Sleeps

/-- The starts given out, by the requests sent and by the threads asleep, are apart. -/
structure Booked (settings : Settings K) (thread : T → Phase K) (sent : Provider → List K) : Prop where
  spaced : ∀ provider, (sent provider).Pairwise (Apart (settings.interval provider))
  asleep : ∀ t provider start, thread t = .sleeping provider start →
    ∀ earlier ∈ sent provider, Apart (settings.interval provider) start earlier
  distinct : ∀ t u provider start other, t ≠ u → thread t = .sleeping provider start →
    thread u = .sleeping provider other → Apart (settings.interval provider) start other

/-- The thread inside the AI lock will start late enough after every start given out so far. -/
structure Locked (settings : Settings K) (s : State T K) : Prop where
  held : ∀ t sleep, s.thread t = .checked sleep → s.intervalLock = some t
  nonneg : ∀ t sleep, s.thread t = .checked sleep → 0 ≤ sleep
  late : ∀ t sleep, s.thread t = .checked sleep →
    ∀ start, s.Given .ai start → start + settings.interval .ai ≤ s.clock + sleep

section Steps
variable {settings : Settings K} {s s' : State T K} {t : T} {thread : T → Phase K}
  {sent : Provider → List K}

omit [CommRing K] [LinearOrder K] in
/-- A thread found in another phase than the one just entered did not move. -/
theorem of_update_eq {phase found : Phase K} {u : T} (hne : phase ≠ found)
    (h : Function.update thread t phase u = found) : u ≠ t ∧ thread u = found := by
  by_cases hut : u = t
  · subst hut
    rw [Function.update_self] at h
    exact absurd h hne
  · rw [Function.update_of_ne hut] at h
    exact ⟨hut, h⟩

/-- A thread that does not fall asleep gives out no start. -/
theorem Booked.move (h : Booked settings thread sent) {phase : Phase K}
    (hawake : ∀ provider start, phase ≠ .sleeping provider start) :
    Booked settings (Function.update thread t phase) sent := by
  constructor
  · exact h.spaced
  · intro u provider start hu
    exact h.asleep u provider start (of_update_eq (hawake _ _) hu).2
  · intro u v provider start other huv hu hv
    exact h.distinct u v provider start other huv (of_update_eq (hawake _ _) hu).2
      (of_update_eq (hawake _ _) hv).2

theorem Booked.sleep (h : Booked settings thread sent) {provider : Provider} {start : K}
    (hsent : ∀ earlier ∈ sent provider, earlier + settings.interval provider ≤ start)
    (hasleep : ∀ u other, thread u = .sleeping provider other →
      other + settings.interval provider ≤ start) :
    Booked settings (Function.update thread t (.sleeping provider start)) sent := by
  have hnew : ∀ u v p a b, u ≠ v → v ≠ t →
      Function.update thread t (.sleeping provider start) u = .sleeping p a →
      thread v = .sleeping p b → Apart (settings.interval p) a b := by
    intro u v p a b huv hvt hu hv
    by_cases hut : u = t
    · subst hut
      rw [Function.update_self] at hu
      cases hu
      exact .inr (hasleep v b hv)
    · rw [Function.update_of_ne hut] at hu
      exact h.distinct u v p a b huv hu hv
  constructor
  · exact h.spaced
  · intro u p a hu earlier hearlier
    by_cases hut : u = t
    · subst hut
      rw [Function.update_self] at hu
      cases hu
      exact .inr (hsent earlier hearlier)
    · rw [Function.update_of_ne hut] at hu
      exact h.asleep u p a hu earlier hearlier
  · intro u v p a b huv hu hv
    by_cases hvt : v = t
    · subst hvt
      have hu' : thread u = .sleeping p a := by rwa [Function.update_of_ne huv] at hu
      exact (hnew v u p b a huv.symm huv hv hu').symm
    · rw [Function.update_of_ne hvt] at hv
      exact hnew u v p a b huv hvt hu hv

/-- The request of a thread starts when its sleep ends. -/
theorem Booked.send (h : Booked settings thread sent) {provider : Provider} {start : K}
    (hasleep : thread t = .sleeping provider start) :
    Booked settings (Function.update thread t (.requesting provider))
      (Function.update sent provider (start :: sent provider)) := by
  have hawake : ∀ p a, (.requesting provider : Phase K) ≠ .sleeping p a := nofun
  constructor
  · intro p
    by_cases hp : p = provider
    · subst hp
      rw [Function.update_self, List.pairwise_cons]
      exact ⟨h.asleep t p start hasleep, h.spaced p⟩
    · rw [Function.update_of_ne hp]
      exact h.spaced p
  · intro u p a hu earlier hearlier
    obtain ⟨hut, hu'⟩ := of_update_eq (hawake _ _) hu
    by_cases hp : p = provider
    · subst hp
      rw [Function.update_self, List.mem_cons] at hearlier
      rcases hearlier with rfl | hearlier
      · exact h.distinct u t p a earlier hut hu' hasleep
      · exact h.asleep u p a hu' earlier hearlier
    · rw [Function.update_of_ne hp] at hearlier
      exact h.asleep u p a hu' earlier hearlier
  · intro u v p a b huv hu hv
    exact h.distinct u v p a b huv (of_update_eq (hawake _ _) hu).2 (of_update_eq (hawake _ _) hv).2

omit [DecidableEq T] [CommRing K] [LinearOrder K] in
theorem State.Given.asleep {u : T} {provider : Provider} {start : K}
    (h : s.thread u = .sleeping provider start) : s.Given provider start := .inr ⟨u, h⟩

variable [IsStrictOrderedRing K]

omit [DecidableEq T] in
/-- What covers the starts given out keeps the next one away from them. -/
theorem late_of_covered (hcovered : s.Covered settings .ai) {start : K} (hgiven : s.Given .ai start) :
    start + settings.interval .ai ≤
      s.clock + sleepTime (settings.interval .ai) s.aiLast s.clock := by
  rcases hcovered start hgiven with ⟨last, hbase, hle⟩ | hpast
  · have hnext := le_add_sleepTime (settings.interval .ai) s.clock hbase
    linarith
  · have hsleep := sleepTime_nonneg (settings.interval .ai) s.aiLast s.clock
    linarith

omit [DecidableEq T] in
theorem late_of_reserved (hcovered : s.Covered settings .go) {start : K} (hgiven : s.Given .go start) :
    start + settings.interval .go ≤ s.clock + waitTime (settings.interval .go) s.goLast s.clock := by
  rcases hcovered start hgiven with ⟨last, hbase, hle⟩ | hpast
  · obtain rfl : s.goLast = last := Option.some_inj.mp hbase
    have hnext := le_add_waitTime (settings.interval .go) s.goLast s.clock
    linarith
  · have hwait := waitTime_nonneg (settings.interval .go) s.goLast s.clock
    linarith

theorem booked_step {action : Action T K} (hallowed : Stamped settings s action)
    (hlocked : Locked settings s) (h : Booked settings s.thread s.sent)
    (htaken : step settings s action = some s') : Booked settings s'.thread s'.sent := by
  cases action with
  | tick now =>
    obtain ⟨-, rfl⟩ : s.clock ≤ now ∧ { s with clock := now } = s' := by simpa [step] using htaken
    exact h
  | acquire t =>
    simp only [step] at htaken
    split at htaken <;> try contradiction
    split at htaken <;> cases htaken
    exact h.move nofun
  | check t =>
    simp only [step] at htaken
    split at htaken <;> try contradiction
    split at htaken <;> cases htaken
    exact h.move nofun
  | stamp t =>
    simp only [step] at htaken
    split at htaken <;> cases htaken
    have hlate := hlocked.late t _ ‹_›
    exact h.sleep (fun earlier hearlier => hlate earlier (.inl hearlier))
      fun u other hu => hlate other (.asleep hu)
  | reserve t =>
    simp only [step] at htaken
    split at htaken <;> cases htaken
    exact h.sleep (fun earlier hearlier => late_of_reserved hallowed (.inl hearlier))
      fun u other hu => late_of_reserved hallowed (.asleep hu)
  | send t =>
    simp only [step] at htaken
    split at htaken <;> try contradiction
    split at htaken <;> cases htaken
    next hsleeping hnow =>
      subst hnow
      exact h.send hsleeping
  | finish t =>
    simp only [step] at htaken
    split at htaken <;> cases htaken
    · exact h.move nofun
    · exact h.move nofun
  | drop t =>
    simp only [step] at htaken
    split at htaken <;> cases htaken
    exact h.move nofun

omit [CommRing K] [LinearOrder K] [IsStrictOrderedRing K] in
theorem of_enter_eq {phase found : Phase K} {u : T} (h : (s.enter t phase).thread u = found)
    (hne : phase ≠ found) : u ≠ t ∧ s.thread u = found := of_update_eq hne h

omit [DecidableEq T] [IsStrictOrderedRing K] in
theorem Locked.move (h : Locked settings s) (hlock : s'.intervalLock = s.intervalLock)
    (hclock : s.clock = s'.clock)
    (hchecked : ∀ u sleep, s'.thread u = .checked sleep → s.thread u = .checked sleep)
    (hgiven : ∀ start, s'.Given .ai start → s.Given .ai start) : Locked settings s' := by
  constructor
  · intro u sleep hu
    exact hlock.trans (h.held u sleep (hchecked u sleep hu))
  · intro u sleep hu
    exact h.nonneg u sleep (hchecked u sleep hu)
  · intro u sleep hu start hstart
    exact hclock ▸ h.late u sleep (hchecked u sleep hu) start (hgiven start hstart)

omit [CommRing K] [LinearOrder K] [IsStrictOrderedRing K] in
theorem given_of_enter {phase : Phase K} (hawake : ∀ start, phase ≠ .sleeping .ai start) (start : K)
    (h : (s.enter t phase).Given .ai start) : s.Given .ai start := by
  rcases h with hsent | ⟨u, hu⟩
  · exact .inl hsent
  · have hmoved := of_update_eq (hawake start) hu
    exact .asleep hmoved.2

omit [IsStrictOrderedRing K] in
/-- A thread that neither enters the AI lock nor sleeps for an AI request. -/
theorem Locked.enter (h : Locked settings s) {phase : Phase K}
    (hawake : ∀ start, phase ≠ .sleeping .ai start) (hphase : ∀ sleep, phase ≠ .checked sleep) :
    Locked settings (s.enter t phase) :=
  h.move rfl rfl (fun _ sleep hu => (of_enter_eq hu (hphase sleep)).2) (given_of_enter hawake)

theorem locked_step {action : Action T K} (hallowed : Stamped settings s action)
    (h : Locked settings s) (htaken : step settings s action = some s') : Locked settings s' := by
  cases action with
  | tick now =>
    obtain ⟨hnow, rfl⟩ : s.clock ≤ now ∧ { s with clock := now } = s' := by simpa [step] using htaken
    refine ⟨h.held, h.nonneg, fun u sleep hu start hstart => ?_⟩
    have hlate := h.late u sleep hu start hstart
    dsimp only
    linarith
  | acquire t =>
    simp only [step] at htaken
    split at htaken <;> try contradiction
    split at htaken <;> cases htaken
    have hmoved : Locked settings (s.enter t .admitted) := h.enter nofun nofun
    exact hmoved.move rfl rfl (fun _ _ => id) fun _ => id
  | check t =>
    simp only [step] at htaken
    split at htaken <;> try contradiction
    split at htaken <;> cases htaken
    next hfree =>
      have hnone : ∀ u sleep, s.thread u ≠ .checked sleep := by
        intro u sleep hu
        have hheld := h.held u sleep hu
        rw [hfree] at hheld
        cases hheld
      have honly : ∀ u sleep, (s.enter t (.checked (sleepTime (settings.interval .ai) s.aiLast
          s.clock))).thread u = .checked sleep →
            u = t ∧ sleep = sleepTime (settings.interval .ai) s.aiLast s.clock := by
        intro u sleep hu
        by_cases hut : u = t
        · subst hut
          dsimp only [State.enter] at hu
          rw [Function.update_self] at hu
          cases hu
          exact ⟨rfl, rfl⟩
        · dsimp only [State.enter] at hu
          rw [Function.update_of_ne hut] at hu
          exact absurd hu (hnone u sleep)
      constructor
      · intro u sleep hu
        rw [(honly u sleep hu).1]
        rfl
      · intro u sleep hu
        rw [(honly u sleep hu).2]
        exact sleepTime_nonneg _ _ _
      · intro u sleep hu start hstart
        rw [(honly u sleep hu).2]
        have hgiven : s.Given .ai start := given_of_enter nofun start hstart
        exact late_of_covered hallowed hgiven
  | stamp t =>
    simp only [step] at htaken
    split at htaken <;> cases htaken
    next hchecked =>
      have hnone : ∀ u sleep, ¬ (u ≠ t ∧ s.thread u = .checked sleep) := by
        rintro u sleep ⟨hut, hu⟩
        have hsame := (h.held u sleep hu).symm.trans (h.held t _ hchecked)
        exact hut (Option.some_inj.mp hsame)
      exact ⟨fun u sleep hu => absurd (of_enter_eq hu nofun) (hnone u sleep),
        fun u sleep hu => absurd (of_enter_eq hu nofun) (hnone u sleep),
        fun u sleep hu => absurd (of_enter_eq hu nofun) (hnone u sleep)⟩
  | reserve t =>
    simp only [step] at htaken
    split at htaken <;> cases htaken
    have hmoved : Locked settings (s.enter t (.sleeping .go
        (s.clock + waitTime (settings.interval .go) s.goLast s.clock))) := h.enter nofun nofun
    exact hmoved.move rfl rfl (fun _ _ => id) fun _ => id
  | send t =>
    simp only [step] at htaken
    split at htaken <;> try contradiction
    split at htaken <;> cases htaken
    next provider start hsleeping hnow =>
      refine h.move rfl rfl (fun u sleep hu => (of_enter_eq hu nofun).2) ?_
      rintro other (hsent | ⟨u, hu⟩)
      · by_cases hp : Provider.ai = provider
        · subst hp
          change other ∈ Function.update s.sent .ai (s.clock :: s.sent .ai) .ai at hsent
          rw [Function.update_self, List.mem_cons] at hsent
          rcases hsent with rfl | hsent
          · exact .asleep (hnow ▸ hsleeping)
          · exact .inl hsent
        · change other ∈ Function.update s.sent provider (s.clock :: s.sent provider) .ai at hsent
          rw [Function.update_of_ne hp] at hsent
          exact .inl hsent
      · exact .asleep (of_enter_eq hu nofun).2
  | finish t =>
    simp only [step] at htaken
    split at htaken <;> cases htaken
    · have hmoved : Locked settings (s.enter t .idle) := h.enter nofun nofun
      exact hmoved.move rfl rfl (fun _ _ => id) fun _ => id
    · have hmoved : Locked settings (s.enter t .idle) := h.enter nofun nofun
      exact hmoved.move rfl rfl (fun _ _ => id) fun _ => id
  | drop t =>
    simp only [step] at htaken
    split at htaken <;> cases htaken
    exact h.enter nofun nofun

end Steps

variable [IsStrictOrderedRing K]

/-- The requests of an instance are spaced in every run in which no thread enters a lock section
whose stamp has fallen behind the starts given out. -/
theorem stamped_runs_spaced (settings : Settings K) {s : State T K}
    (h : (machine T settings).Reachable (Stamped settings) s) (provider : Provider) :
    Spaced settings s provider := by
  have hinv : Locked settings s ∧ Booked settings s.thread s.sent := by
    refine h.invariant (I := fun s => Locked settings s ∧ Booked settings s.thread s.sent) ?_ ?_
    · rintro _ ⟨now, rfl⟩
      exact ⟨⟨nofun, nofun, nofun⟩, ⟨fun _ => .nil, nofun, nofun⟩⟩
    · rintro s action s' ⟨hlocked, hbooked⟩ hallowed htaken
      exact ⟨locked_step hallowed hlocked htaken, booked_step hallowed hlocked hbooked htaken⟩
  exact hinv.2.spaced provider

/-- The default settings, in seconds. -/
def defaults : Settings ℤ := ⟨fun provider => match provider with | .ai => 3 | .go => 1, some 3⟩

/-- The state in which the instances have just been made, at a given time. -/
def made (settings : Settings ℤ) (now : ℤ) : State ℕ ℤ :=
  ⟨now, settings.permits, none, none, 0, fun _ => .idle, fun _ => []⟩

theorem start_made (now : ℤ) : (machine ℕ defaults).start (made defaults now) := ⟨now, rfl⟩

omit [DecidableEq T] [IsStrictOrderedRing K] in
/-- With every thread awake the stamp has only the requests sent to cover. -/
theorem covered_of_awake {settings : Settings K} {s : State T K} {provider : Provider}
    (hawake : ∀ t start, s.thread t ≠ .sleeping provider start)
    (hsent : ∀ start ∈ s.sent provider, ∃ last, s.base provider = some last ∧ start ≤ last) :
    s.Covered settings provider := by
  rintro start (hmem | ⟨t, ht⟩)
  · exact .inl (hsent start hmem)
  · exact absurd ht (hawake t start)

/-- The second of two AI requests waits for its turn. -/
theorem second_request_waits : ∃ s, (machine ℕ defaults).Reachable (Stamped defaults) s ∧
    s.sent .ai = [103, 100] ∧ Spaced defaults s .ai := by
  have hrun : ∃ s t u v w, (machine ℕ defaults).step (made defaults 100) (.acquire 0) = some s ∧
      (machine ℕ defaults).step s (.check 0) = some t ∧
      (machine ℕ defaults).exec t [.stamp 0, .send 0, .acquire 1] = some u ∧
      (machine ℕ defaults).step u (.check 1) = some v ∧
      (machine ℕ defaults).exec v [.stamp 1, .tick 103, .send 1] = some w ∧
      s.sent .ai = [] ∧ (∀ i start, s.thread i ≠ .sleeping .ai start) ∧
      u.sent .ai = [100] ∧ u.base .ai = some 100 ∧ (∀ i start, u.thread i ≠ .sleeping .ai start) ∧
      w.sent .ai = [103, 100] := by
    refine ⟨_, _, _, _, _, rfl, rfl, rfl, rfl, rfl, rfl, ?_, rfl, rfl, ?_, rfl⟩
    · intro i start
      match i with
      | 0 => nofun
      | i + 1 => nofun
    · intro i start
      match i with
      | 0 => nofun
      | 1 => nofun
      | i + 2 => nofun
  obtain ⟨s, t, u, v, w, hacquire, hcheck, hfirst, hcheck', hsecond, hsent, hawake, hsent', hbase,
    hawake', hstarts⟩ := hrun
  have hcovered : Stamped defaults s (.check 0) := covered_of_awake hawake (by simp [hsent])
  have hcovered' : Stamped defaults u (.check 1) := by
    apply covered_of_awake hawake'
    intro start hmem
    rw [hsent', List.mem_singleton] at hmem
    exact ⟨100, hbase, hmem.le⟩
  have hfree : Stamped defaults (made defaults 100) (.acquire 0) := trivial
  have ht : (machine ℕ defaults).Reachable (Stamped defaults) t :=
    ((Machine.Reachable.start (start_made 100)).tail hfree hacquire).tail hcovered hcheck
  have hu := ht.run (Machine.run_of_exec_of (by simp [Stamped]) hfirst)
  have hw := (hu.tail hcovered' hcheck').run (Machine.run_of_exec_of (by simp [Stamped]) hsecond)
  exact ⟨w, hw, hstarts, stamped_runs_spaced defaults hw .ai⟩

/-- The third of three AI requests is given the start of the second one, and a TikuGo request that
ends while another thread sleeps has the next one start together with it. -/
theorem overlapping_requests : ∃ s, (machine ℕ defaults).Reachable Machine.free s ∧
    ¬ Spaced defaults s .ai ∧ ¬ Spaced defaults s .go := by
  have hrun : ∃ s, (machine ℕ defaults).exec (made defaults 100)
      [.acquire 0, .acquire 1, .acquire 2, .check 0, .stamp 0, .check 1, .stamp 1, .check 2, .stamp 2,
        .send 0, .reserve 3, .reserve 4, .send 3, .finish 3, .reserve 5, .tick 101, .send 4, .send 5,
        .tick 103, .send 1, .send 2] = some s ∧
      s.sent .ai = [103, 103, 100] ∧ s.sent .go = [101, 101, 100] :=
    ⟨_, rfl, rfl, rfl⟩
  obtain ⟨s, hs, hai, hgo⟩ := hrun
  refine ⟨s, Machine.reachable_of_exec _ (start_made 100) hs, ?_, ?_⟩
  · rw [Spaced, hai]
    simp [Apart, defaults]
  · rw [Spaced, hgo]
    simp [Apart, defaults]

end UniversityHelper.Throttle
