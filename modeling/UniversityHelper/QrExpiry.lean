import UniversityHelper.QrLoginSafety

/-! The expiry of QR sessions and adapters, on a clock that never goes back: what
`cleanup_expired_entries` finds in one critical section it removes in another. -/
namespace UniversityHelper.QrLogin
variable {C : Type*} [DecidableEq C]

/-- `installed` holds the adapters installed for a user, the newest first, and `collected` what it
held when a clean-up last listed the expired adapters. -/
structure Timed (C : Type*) where
  base : State C
  clock : ℚ
  installed : String → List AdapterId
  collected : C → String → List AdapterId

inductive TimedAction (C : Type*)
  | tick (now : ℚ)
  | act (a : Action C)

/-- The reading of the clock that an action makes. -/
def Action.time : Action C → Option ℚ
  | .request _ _ _ now | .handler _ (.at now) | .handler _ (.register _ now)
  | .worker _ (.showQr _ now) | .worker _ (.finish now) => some now
  | _ => none

/-- The adapter that an action installs. -/
def installs (s : State C) : Action C → Option (String × AdapterId)
  | .handler c (.at _) =>
    match s.call c with
    | some ⟨user, _, .installing serial⟩ => some (user, .password serial)
    | _ => none
  | .worker id (.finish _) =>
    match s.login id with
    | some ⟨user, .succeeding true, _, _⟩ =>
      if (s.qrSessions.get id).isSome then some (user, .qr id) else none
    | _ => none
  | _ => none

/-- The clean-up that lists the expired adapters. -/
def collects (s : State C) : Action C → Option C
  | .handler c .proceed =>
    match s.call c with
    | some ⟨_, _, .findingAdapters _⟩ => some c
    | _ => none
  | _ => none

def Timed.record (s : Timed C) (a : Action C) (t : State C) : Timed C :=
  { s with
    base := t
    installed :=
      match installs s.base a with
      | some (user, adapter) => Function.update s.installed user (adapter :: s.installed user)
      | none => s.installed
    collected :=
      match collects s.base a with
      | some c => Function.update s.collected c s.installed
      | none => s.collected }

def Timed.step (s : Timed C) : TimedAction C → Option (Timed C)
  | .tick now => if s.clock ≤ now then some { s with clock := now } else none
  | .act a =>
    if a.time.all (· = s.clock) then (QrLogin.step s.base a).map (s.record a) else none

def timedMachine (C : Type*) [DecidableEq C] : Machine (Timed C) (TimedAction C) where
  start s := Start s.base ∧ ∀ user, s.installed user = []
  step := Timed.step

/-- The sessions that a clean-up is about to remove have not been refreshed for their lifetime. -/
def SessionsExpired (s : Timed C) : TimedAction C → Prop
  | .act (.handler c .proceed) => ∀ call ids now, s.base.call c = some call →
      call.phase = .cancelling ids (.findAdapters now) →
        ∀ id ∈ ids, ∀ session, s.base.qrSessions.get id = some session →
          qrSessionTtlSeconds < s.clock - session.updatedAt
  | _ => True

/-- The adapter that a clean-up removes has not been used for its lifetime, and none was installed
for the user since the clean-up listed it. -/
def AdaptersExpired (s : Timed C) (a : TimedAction C) (t : Timed C) : Prop :=
  ∀ c call now user adapter rest, a = .act (.handler c .proceed) → s.base.call c = some call →
    call.phase = .dropping now user adapter rest →
      ∀ entry, s.base.userAdapters.get user = some entry → t.base.userAdapters.get user = none →
        userAdapterTtlSeconds < s.clock - entry.lastAccess ∧ s.installed user = s.collected c user

/-- No login thread refreshes a session between the two critical sections of a clean-up that
found it expired. -/
def Unrefreshed (s : Timed C) : TimedAction C → Prop
  | .act (.worker id (.showQr _ _)) | .act (.worker id (.finish _)) =>
    (s.base.qrSessions.get id).isSome → ∀ c call ids now, s.base.call c = some call →
      call.phase = .cancelling ids (.findAdapters now) → id ∉ ids
  | _ => True

/-- The reading of the clock that a clean-up goes by. -/
def Phase.time : Phase → Option ℚ
  | .expiring now | .cancelling _ (.findAdapters now) | .signalling _ (.findAdapters now)
  | .findingAdapters now | .inspecting now _ | .dropping now _ _ _ => some now
  | _ => none

/-- The password login that a handler is about to install. -/
def Phase.serial : Phase → Option ℕ
  | .awaitingPassword serial | .installing serial | .listing (.install serial)
  | .cancelling _ (.install serial) | .signalling _ (.install serial) => some serial
  | _ => none

/-- The adapters that a clean-up has listed and not yet been through. -/
def Phase.candidates : Phase → List (String × AdapterId)
  | .inspecting _ expired => expired
  | .dropping _ user adapter rest => (user, adapter) :: rest
  | _ => []

/-- A handler goes on to a phase that lists nothing anew. -/
structure Phase.Follows (new old : Phase) : Prop where
  time : new.time = old.time ∨ new.time = none
  serial : new.serial = old.serial ∨ new.serial = none
  candidates : ∀ x ∈ new.candidates, x ∈ old.candidates
  cancelling : ∀ ids now, new ≠ .cancelling ids (.findAdapters now)
  listing : ∀ now, new ≠ .listing (.findAdapters now)
  starting : ∀ id, new ≠ .startingThread id

/-- What one critical section of a handler does to adapters and login threads. -/
inductive HandlerMove (s : State C) (c : C) (call : Call) : Move → State C → Prop
  | kept {s' : State C} {move : Move} {phase : Phase} (calls : s'.call = s.call)
      (serials : s'.passwordLogins = s.passwordLogins)
      (adapters : ∀ user entry, s'.userAdapters.get user = some entry →
        ∃ old, s.userAdapters.get user = some old ∧ old.adapter = entry.adapter)
      (workers : ∀ id, (s'.login id).map Login.worker = (s.login id).map Login.worker)
      (follows : phase.Follows call.phase)
      (installs : ∀ serial, call.phase ≠ .installing serial)
      (collects : ∀ now, call.phase ≠ .findingAdapters now) :
      HandlerMove s c call move (s'.goto c call phase)
  | listed (now : ℚ) (expiring : call.phase = .expiring now) :
      HandlerMove s c call .proceed
        (s.goto c call (.cancelling (expiredSessions s.qrSessions now) (.findAdapters now)))
  | collected (now : ℚ) (finding : call.phase = .findingAdapters now) :
      HandlerMove s c call .proceed
        (s.goto c call (.inspecting now (expiredAdapters s.userAdapters now)))
  | registered (id : SessionId) (now : ℚ) (registering : call.phase = .registering)
      (fresh : s.login id = none) :
      HandlerMove s c call (.register id now)
        ((s.registerLogin call.user id now).goto c call (.startingThread id))
  | started {move : Move} {phase : Phase} (id : SessionId) (worker : Worker)
      (starting : call.phase = .startingThread id) (follows : phase.Follows call.phase) :
      HandlerMove s c call move
        ((s.setLogin id fun l => { l with worker := worker }).goto c call phase)
  | installed (serial : ℕ) (now : ℚ) (installing : call.phase = .installing serial)
      (answer : Reply) :
      HandlerMove s c call (.at now)
        ({ s with userAdapters := s.userAdapters.set call.user ⟨.password serial, now⟩ }.goto c call
          (.done answer))

omit [DecidableEq C] in
theorem worker_setLogin (s : State C) (id : SessionId) {f : Login → Login}
    (hf : ∀ login, (f login).worker = login.worker) (x : SessionId) :
    ((s.setLogin id f).login x).map Login.worker = (s.login x).map Login.worker := by
  by_cases hx : x = id
  · subst hx
    simp only [State.setLogin, Function.update_self, Option.map_map]
    congr 1
    funext login
    exact hf login
  · simp [State.setLogin, hx]

theorem HandlerMove.plain {s : State C} {c : C} {call : Call} {move : Move} {phase : Phase}
    (follows : phase.Follows call.phase) (installs : ∀ serial, call.phase ≠ .installing serial)
    (collects : ∀ now, call.phase ≠ .findingAdapters now) :
    HandlerMove s c call move (s.goto c call phase) :=
  .kept rfl rfl (fun _ entry h => ⟨entry, h, rfl⟩) (fun _ => rfl) follows installs collects

theorem Phase.Follows.done {old : Phase} (answer : Reply) : Phase.Follows (.done answer) old :=
  ⟨.inr rfl, .inr rfl, nofun, nofun, nofun, nofun⟩

theorem Phase.Follows.of_none {new old : Phase} (time : new.time = none) (serial : new.serial = none)
    (candidates : new.candidates = []) (listing : ∀ now, new ≠ .listing (.findAdapters now))
    (starting : ∀ id, new ≠ .startingThread id) : Phase.Follows new old := by
  refine ⟨.inr time, .inr serial, ?_, ?_, listing, starting⟩
  · rw [candidates]
    nofun
  · rintro ids now rfl
    cases time

theorem Request.follows_afterCleanup (user : String) (request : Request) (old : Phase) :
    Phase.Follows (request.afterCleanup user) old := by
  cases request with
  | startQrLogin =>
    rw [Request.afterCleanup]
    split_ifs
    · exact .done _
    · exact .of_none rfl rfl rfl (by simp) (by simp)
  | loginStatus id => exact .of_none rfl rfl rfl (by simp [Request.afterCleanup]) (by simp [Request.afterCleanup])
  | _ => exact .done _

theorem handle_move {s t : State C} {c : C} {call : Call} {move : Move}
    (hlisting : ∀ now, call.phase ≠ .listing (.findAdapters now))
    (h : s.handle c call move = some t) : HandlerMove s c call move t := by
  unfold State.handle at h
  split at h
  case h_1 now hphase =>
    obtain rfl := Option.some_inj.mp h
    exact .listed now hphase
  case h_2 ids next hphase =>
    obtain rfl := Option.some_inj.mp h
    refine .kept rfl rfl (fun _ entry h => ⟨entry, h, rfl⟩) (fun _ => rfl) ?_ (by simp [hphase])
      (by simp [hphase])
    rw [hphase]
    cases next <;> constructor <;> simp [Phase.time, Phase.serial, Phase.candidates]
  case h_3 id ids next hphase =>
    obtain rfl := Option.some_inj.mp h
    refine .kept rfl rfl (fun _ entry h => ⟨entry, h, rfl⟩) (worker_setLogin s id fun _ => rfl) ?_
      (by simp [hphase]) (by simp [hphase])
    rw [hphase]
    cases next <;> constructor <;> simp [Phase.time, Phase.serial, Phase.candidates]
  case h_4 next hphase =>
    obtain rfl := Option.some_inj.mp h
    refine .plain ?_ (by simp [hphase]) (by simp [hphase])
    rw [hphase]
    cases next <;> constructor <;> simp [Next.phase, Phase.time, Phase.serial, Phase.candidates]
  case h_5 now hphase =>
    obtain rfl := Option.some_inj.mp h
    exact .collected now hphase
  case h_6 now hphase =>
    obtain rfl := Option.some_inj.mp h
    exact .plain (Request.follows_afterCleanup _ _ _) (by simp [hphase]) (by simp [hphase])
  case h_7 now user adapter rest status hphase =>
    obtain rfl := Option.some_inj.mp h
    refine .plain ?_ (by simp [hphase]) (by simp [hphase])
    rw [hphase]
    split <;> constructor <;> simp +contextual [Phase.time, Phase.serial, Phase.candidates]
  case h_8 now user adapter rest hphase =>
    obtain rfl := Option.some_inj.mp h
    refine .kept rfl rfl (fun x entry hentry => ⟨entry, ?_, rfl⟩) (fun _ => rfl) ?_ (by simp [hphase])
      (by simp [hphase])
    · rw [dropAdapter, OrderedDict.get_filter, Option.filter_eq_some_iff] at hentry
      exact hentry.1
    · rw [hphase]
      constructor <;> simp +contextual [Phase.time, Phase.serial, Phase.candidates]
  case h_9 next hphase =>
    obtain rfl := Option.some_inj.mp h
    refine .plain ?_ (by simp [hphase]) (by simp [hphase])
    rw [hphase] at hlisting ⊢
    cases next with
    | findAdapters now => exact absurd rfl (hlisting now)
    | _ => constructor <;> simp [Phase.time, Phase.serial, Phase.candidates]
  case h_10 hphase =>
    obtain rfl := Option.some_inj.mp h
    exact .plain (.of_none rfl rfl rfl (by simp) (by simp)) (by simp [hphase]) (by simp [hphase])
  case h_11 id now hphase =>
    split at h
    · rename_i hfresh
      obtain rfl := Option.some_inj.mp h
      exact .registered id now hphase (by simpa using hfresh.1)
    · cases h
  case h_12 id hphase =>
    obtain rfl := Option.some_inj.mp h
    exact .started id .loggingIn hphase (.of_none rfl rfl rfl (by simp) (by simp))
  case h_13 id causes hphase =>
    obtain rfl := Option.some_inj.mp h
    exact .started id .returned hphase (.of_none rfl rfl rfl (by simp) (by simp))
  case h_14 id hphase =>
    split at h
    · obtain rfl := Option.some_inj.mp h
      exact .plain (.of_none rfl rfl rfl (by simp) (by simp)) (by simp [hphase]) (by simp [hphase])
    · cases h
  case h_15 id hphase =>
    obtain rfl := Option.some_inj.mp h
    exact .plain (.of_none rfl rfl rfl (by simp) (by simp)) (by simp [hphase]) (by simp [hphase])
  case h_16 id hphase =>
    obtain rfl := Option.some_inj.mp h
    exact .plain (.done _) (by simp [hphase]) (by simp [hphase])
  case h_17 serial answer hphase =>
    obtain rfl := Option.some_inj.mp h
    refine .plain ?_ (by simp [hphase]) (by simp [hphase])
    cases answer with
    | success =>
      rw [hphase]
      constructor <;> simp [Phase.time, Phase.serial, Phase.candidates]
    | _ => exact .done _
  case h_18 serial now hphase =>
    obtain rfl := Option.some_inj.mp h
    exact .installed serial now hphase _
  case h_19 now hphase =>
    obtain rfl := Option.some_inj.mp h
    refine .kept rfl rfl (fun user entry hentry => ?_) (fun _ => rfl) ?_ (by simp [hphase])
      (by simp [hphase])
    · simp only [State.touchAdapter, OrderedDict.get_modify] at hentry
      split at hentry
      · obtain ⟨old, hold, rfl⟩ := Option.map_eq_some_iff.mp hentry
        exact ⟨old, hold, rfl⟩
      · exact ⟨entry, hentry, rfl⟩
    · split <;> exact .of_none rfl rfl rfl (by simp) (by simp)
  case h_20 hphase =>
    obtain rfl := Option.some_inj.mp h
    exact .plain (.of_none rfl rfl rfl (by simp) (by simp)) (by simp [hphase]) (by simp [hphase])
  case h_21 hphase =>
    obtain rfl := Option.some_inj.mp h
    exact .plain (.done _) (by simp [hphase]) (by simp [hphase])
  case h_22 hphase =>
    obtain rfl := Option.some_inj.mp h
    refine .kept rfl rfl (fun user entry hentry => ⟨entry, ?_, rfl⟩) (fun _ => rfl)
      (.of_none rfl rfl rfl (by simp) (by simp)) (by simp [hphase]) (by simp [hphase])
    rw [OrderedDict.get_erase] at hentry
    split at hentry
    · cases hentry
    · exact hentry
  case h_23 hphase =>
    obtain rfl := Option.some_inj.mp h
    exact .plain (.done _) (by simp [hphase]) (by simp [hphase])
  case h_24 => cases h

/-- The moves of a login thread that refresh its session. -/
def WorkerMove.refreshes : WorkerMove → Bool
  | .showQr _ _ | .finish _ => true
  | .loggedIn _ | .raised _ => false

/-- A step of a login thread touches no session but its own, and that one only to refresh it. -/
def Refreshed (s t : State C) (id : SessionId) (move : WorkerMove) : Prop :=
  ∀ x session, t.qrSessions.get x = some session → s.qrSessions.get x = some session ∨
    x = id ∧ move.refreshes = true ∧ (s.qrSessions.get id).isSome

omit [DecidableEq C] in
theorem Refreshed.same {s t : State C} {id : SessionId} {move : WorkerMove}
    (h : t.qrSessions = s.qrSessions) : Refreshed s t id move := by
  intro x session hsession
  rw [h] at hsession
  exact .inl hsession

omit [DecidableEq C] in
theorem Refreshed.modify {s t : State C} {id : SessionId} {move : WorkerMove} {f : QrSession → QrSession}
    (hmove : move.refreshes = true) (h : t.qrSessions = s.qrSessions.modify id f) :
    Refreshed s t id move := by
  intro x session hsession
  rw [h, OrderedDict.get_modify] at hsession
  split at hsession
  · rename_i hx
    obtain ⟨old, hold, -⟩ := Option.map_eq_some_iff.mp hsession
    refine .inr ⟨hx, hmove, ?_⟩
    rw [← hx, hold]
    rfl
  · exact .inl hsession

/-- What one step of a login thread does to sessions, adapters and threads. -/
inductive Worked (s : State C) (id : SessionId) (login : Login) : WorkerMove → State C → Prop
  | kept {move : WorkerMove} {t : State C} (calls : t.call = s.call)
      (serials : t.passwordLogins = s.passwordLogins) (adapters : t.userAdapters = s.userAdapters)
      (others : ∀ x, x ≠ id → t.login x = s.login x)
      (alive : login.worker ≠ .starting ∧ login.worker ≠ .returned)
      (sessions : Refreshed s t id move) (quiet : installs s (.worker id move) = none) : Worked s id login move t
  | installed {t : State C} (now : ℚ) (calls : t.call = s.call)
      (serials : t.passwordLogins = s.passwordLogins)
      (adapters : t.userAdapters = s.userAdapters.set login.user ⟨.qr id, now⟩)
      (others : ∀ x, x ≠ id → t.login x = s.login x)
      (alive : login.worker ≠ .starting ∧ login.worker ≠ .returned)
      (returned : (t.login id).map Login.worker = some .returned)
      (sessions : Refreshed s t id (.finish now))
      (installs : installs s (.worker id (.finish now)) = some (login.user, .qr id)) :
      Worked s id login (.finish now) t

omit [DecidableEq C] in
theorem login_setLogin_of_ne {s : State C} {id x : SessionId} {f : Login → Login} (h : x ≠ id) :
    (s.setLogin id f).login x = s.login x := by
  simp [State.setLogin, h]

omit [DecidableEq C] in
theorem work_worked {s t : State C} {id : SessionId} {login : Login} {move : WorkerMove}
    (hlogin : s.login id = some login) (h : s.work id login move = some t) :
    Worked s id login move t := by
  unfold State.work at h
  split at h
  case h_1 qrCode now hworker =>
    split at h
    · rename_i hpresent
      obtain rfl := Option.some_inj.mp h
      exact .kept rfl rfl rfl (fun x hx => login_setLogin_of_ne hx) (by simp [hworker])
        (.modify rfl rfl) rfl
    · obtain rfl := Option.some_inj.mp h
      exact .kept rfl rfl rfl (fun _ _ => rfl) (by simp [hworker]) (.same rfl) rfl
  case h_2 success hworker =>
    obtain rfl := Option.some_inj.mp h
    exact .kept rfl rfl rfl (fun x hx => login_setLogin_of_ne hx) (by simp [hworker]) (.same rfl) rfl
  case h_3 message hworker =>
    obtain rfl := Option.some_inj.mp h
    exact .kept rfl rfl rfl (fun x hx => login_setLogin_of_ne hx) (by simp [hworker]) (.same rfl) rfl
  case h_4 success now hworker =>
    obtain ⟨user, worker, ready, cancelled⟩ := login
    dsimp only at hworker h
    subst hworker
    split at h
    · rename_i hpresent
      obtain rfl := Option.some_inj.mp h
      cases success with
      | true =>
        refine .installed now rfl rfl rfl (fun x hx => login_setLogin_of_ne hx) (by simp) ?_
          (.modify rfl rfl) ?_
        · simp [State.setLogin, hlogin]
        · simp [QrLogin.installs, hlogin, hpresent]
      | false =>
        exact .kept rfl rfl rfl (fun x hx => login_setLogin_of_ne hx) (by simp)
          (.modify rfl rfl) (by simp [QrLogin.installs, hlogin])
    · rename_i habsent
      obtain rfl := Option.some_inj.mp h
      refine .kept rfl rfl rfl (fun x hx => login_setLogin_of_ne hx) (by simp) (.same rfl) ?_
      cases success with
      | true =>
        simp only [QrLogin.installs, hlogin]
        rw [if_neg habsent]
      | false => simp [QrLogin.installs, hlogin]
  case h_5 message now hworker =>
    obtain ⟨user, worker, ready, cancelled⟩ := login
    dsimp only at hworker h
    subst hworker
    obtain rfl := Option.some_inj.mp h
    exact .kept rfl rfl rfl (fun x hx => login_setLogin_of_ne hx) (by simp) (.modify rfl rfl)
      (by simp [QrLogin.installs, hlogin])
  case h_6 => cases h

end UniversityHelper.QrLogin
