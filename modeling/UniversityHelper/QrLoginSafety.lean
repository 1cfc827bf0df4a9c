import UniversityHelper.QrLogin

/-! A QR login whose session left the registry installs nothing any more. Logging out, or
logging in anew, leaves no older session of the user registered. -/
set_option linter.unusedSectionVars false

namespace UniversityHelper.QrLogin
variable {C : Type*} [DecidableEq C]

/-- The continuations of `_cancel_qr_sessions_for_user`. -/
def Next.clears : Next → Bool
  | .register | .install _ | .closeTasks => true
  | .findAdapters _ | .reply _ => false

def NoneOf (sessions : OrderedDict SessionId QrSession) (user : String) : Prop :=
  ∀ id session, sessions.get id = some session → session.userId ≠ user

/-- What a handler of `user` has cleared by the time it is in a phase. -/
def Phase.Clear (sessions : OrderedDict SessionId QrSession) (user : String) : Phase → Prop
  | .cancelling ids next => next.clears = true →
      ∀ id session, sessions.get id = some session → session.userId = user → id ∈ ids
  | .signalling _ next => next.clears = true → NoneOf sessions user
  | .registering | .installing _ | .closingTasks => NoneOf sessions user
  | _ => True

/-- Between two states no login is forgotten and no session registered. -/
structure Keeps (s t : State C) : Prop where
  login : ∀ id login, s.login id = some login →
    ∃ later, t.login id = some later ∧ later.user = login.user
  session : ∀ id session, t.qrSessions.get id = some session →
    ∃ old, s.qrSessions.get id = some old ∧ old.userId = session.userId

theorem Keeps.refl (s : State C) : Keeps s s :=
  ⟨fun _ login h => ⟨login, h, rfl⟩, fun _ session h => ⟨session, h, rfl⟩⟩

theorem Keeps.trans {s t u : State C} (h : Keeps s t) (g : Keeps t u) : Keeps s u := by
  constructor
  · intro id login hlogin
    obtain ⟨later, hlater, huser⟩ := h.login id login hlogin
    obtain ⟨last, hlast, hlastuser⟩ := g.login id later hlater
    exact ⟨last, hlast, hlastuser.trans huser⟩
  · intro id session hsession
    obtain ⟨old, hold, huser⟩ := g.session id session hsession
    obtain ⟨first, hfirst, hfirstuser⟩ := h.session id old hold
    exact ⟨first, hfirst, hfirstuser.trans huser⟩

theorem Keeps.setLogin (s : State C) (id : SessionId) {f : Login → Login}
    (hf : ∀ login, (f login).user = login.user) : Keeps s (s.setLogin id f) := by
  constructor
  · intro x login hlogin
    by_cases hx : x = id
    · subst hx
      exact ⟨f login, by simp [State.setLogin, hlogin], hf login⟩
    · exact ⟨login, by simp [State.setLogin, hx, hlogin], rfl⟩
  · intro x session hsession
    exact ⟨session, hsession, rfl⟩

theorem Keeps.sessions {s t : State C} (login : t.login = s.login)
    (h : ∀ id session, t.qrSessions.get id = some session →
      ∃ old, s.qrSessions.get id = some old ∧ old.userId = session.userId) : Keeps s t :=
  ⟨fun _ l hl => ⟨l, by rw [login]; exact hl, rfl⟩, h⟩

theorem get_popSessions {sessions : OrderedDict SessionId QrSession} {ids : List SessionId}
    {id : SessionId} {session : QrSession} :
    (popSessions sessions ids).get id = some session ↔
      sessions.get id = some session ∧ id ∉ ids := by
  simp [popSessions, Option.filter_eq_some_iff]

theorem Keeps.modifySession {s t : State C} {id : SessionId} {f : QrSession → QrSession}
    (login : t.login = s.login) (sessions : t.qrSessions = s.qrSessions.modify id f)
    (hf : ∀ session, (f session).userId = session.userId) : Keeps s t := by
  refine .sessions login fun x session h => ?_
  rw [sessions, OrderedDict.get_modify] at h
  by_cases hx : x = id
  · rw [if_pos hx] at h
    obtain ⟨old, hold, rfl⟩ := Option.map_eq_some_iff.mp h
    exact ⟨old, hold, (hf old).symm⟩
  · rw [if_neg hx] at h
    exact ⟨session, h, rfl⟩

theorem mem_sessionsOf {sessions : OrderedDict SessionId QrSession} {user : String}
    {id : SessionId} {session : QrSession} (h : sessions.get id = some session)
    (huser : session.userId = user) : id ∈ sessionsOf sessions user := by
  rw [sessionsOf, OrderedDict.mem_keys]
  exact ⟨session, by simp [h, huser]⟩

theorem NoneOf.mono {s t : State C} (h : Keeps s t) {user : String}
    (hnone : NoneOf s.qrSessions user) : NoneOf t.qrSessions user := by
  intro id session hsession
  obtain ⟨old, hold, huser⟩ := h.session id session hsession
  rw [← huser]
  exact hnone id old hold

theorem Phase.Clear.mono {s t : State C} (h : Keeps s t) {user : String} {phase : Phase}
    (hclear : phase.Clear s.qrSessions user) : phase.Clear t.qrSessions user := by
  cases phase with
  | cancelling ids next =>
    intro hnext id session hsession huser
    obtain ⟨old, hold, hsame⟩ := h.session id session hsession
    exact hclear hnext id old hold (hsame.trans huser)
  | signalling ids next => exact fun hnext => (hclear hnext).mono h
  | registering | installing serial | closingTasks => exact NoneOf.mono h hclear
  | _ => trivial

theorem clear_of_waiting {sessions : OrderedDict SessionId QrSession} {user : String} {phase : Phase}
    (h : phase.waiting = true) : phase.Clear sessions user := by
  cases phase <;> trivial

theorem Next.clear_phase {sessions : OrderedDict SessionId QrSession} {user : String} {next : Next}
    (h : next.clears = true → NoneOf sessions user) : next.phase.Clear sessions user := by
  cases next with
  | register | install serial | closeTasks => exact h rfl
  | findAdapters now | reply answer => trivial

/-- Between the two states the adapter of the QR login `id` came into the registry. -/
def Installs (s t : State C) (id : SessionId) : Prop :=
  ∃ user entry, t.userAdapters.get user = some entry ∧ entry.adapter = .qr id ∧
    ∀ old, s.userAdapters.get user = some old → old.adapter ≠ .qr id

theorem not_installs {s t : State C} {id : SessionId}
    (h : ∀ user entry, t.userAdapters.get user = some entry → entry.adapter = .qr id →
      ∃ old, s.userAdapters.get user = some old ∧ old.adapter = .qr id) : ¬ Installs s t id := by
  rintro ⟨user, entry, hentry, hid, hold⟩
  obtain ⟨old, hmem, hsame⟩ := h user entry hentry hid
  exact hold old hmem hsame

theorem not_installs_of_eq {s t : State C} {id : SessionId} (h : t.userAdapters = s.userAdapters) :
    ¬ Installs s t id :=
  not_installs fun _ entry hentry hid => ⟨entry, by rw [← h]; exact hentry, hid⟩

/-- The registration of a QR login. -/
def State.registerLogin (s : State C) (user : String) (id : SessionId) (now : ℚ) : State C :=
  { s with
    qrSessions := s.qrSessions.set id (newSession user now)
    login := Function.update s.login id (some ⟨user, .starting, false, false⟩) }

/-- What one critical section of a handler does to the sessions. -/
inductive Handled (s : State C) (c : C) (call : Call) : Move → State C → Prop
  | moved {s' : State C} {move : Move} (phase : Phase) (calls : s'.call = s.call)
      (keeps : Keeps s s') (installs : ∀ id, ¬ Installs s s' id)
      (clear : call.phase.Clear s.qrSessions call.user → phase.Clear s'.qrSessions call.user) :
      Handled s c call move (s'.goto c call phase)
  | registered (id : SessionId) (now : ℚ) (registering : call.phase = .registering)
      (fresh : s.login id = none) :
      Handled s c call (.register id now)
        ((s.registerLogin call.user id now).goto c call (.startingThread id))

theorem Handled.plain {s : State C} {c : C} {call : Call} {move : Move} {phase : Phase}
    (clear : ∀ sessions, phase.Clear sessions call.user) :
    Handled s c call move (s.goto c call phase) :=
  .moved phase rfl (.refl s) (fun _ => not_installs_of_eq rfl) fun _ => clear _

theorem handle_handled {s t : State C} {c : C} {call : Call} {move : Move}
    (h : s.handle c call move = some t) : Handled s c call move t := by
  unfold State.handle at h
  split at h
  case h_1 now hphase =>
    obtain rfl := Option.some_inj.mp h
    exact .plain fun _ hnext => by cases hnext
  case h_2 ids next hphase =>
    obtain rfl := Option.some_inj.mp h
    refine .moved _ rfl (.sessions rfl fun id session hsession =>
      ⟨session, (get_popSessions.mp hsession).1, rfl⟩) (fun _ => not_installs_of_eq rfl)
      fun hclear hnext id session hsession huser => ?_
    rw [hphase] at hclear
    obtain ⟨hold, hout⟩ := get_popSessions.mp hsession
    exact hout (hclear hnext id session hold huser)
  case h_3 id ids next hphase =>
    obtain rfl := Option.some_inj.mp h
    refine .moved _ rfl (.setLogin s id fun _ => rfl) (fun _ => not_installs_of_eq rfl)
      fun hclear => ?_
    rw [hphase] at hclear
    exact hclear
  case h_4 next hphase =>
    obtain rfl := Option.some_inj.mp h
    refine .moved _ rfl (.refl s) (fun _ => not_installs_of_eq rfl) fun hclear => ?_
    rw [hphase] at hclear
    exact Next.clear_phase hclear
  case h_5 now hphase =>
    obtain rfl := Option.some_inj.mp h
    exact .plain fun _ => trivial
  case h_6 now hphase =>
    obtain rfl := Option.some_inj.mp h
    refine .plain fun sessions => ?_
    cases hrequest : call.request with
    | startQrLogin => by_cases huser : call.user = "" <;> simp [Request.afterCleanup, huser, Phase.Clear]
    | _ => trivial
  case h_7 now user adapter rest status hphase =>
    obtain rfl := Option.some_inj.mp h
    refine .plain fun sessions => ?_
    split <;> trivial
  case h_8 now user adapter rest hphase =>
    obtain rfl := Option.some_inj.mp h
    refine .moved _ rfl (.sessions rfl fun _ session hs => ⟨session, hs, rfl⟩)
      (fun id => not_installs fun x entry hentry hid => ⟨entry, ?_, hid⟩) fun _ => trivial
    rw [dropAdapter, OrderedDict.get_filter, Option.filter_eq_some_iff] at hentry
    exact hentry.1
  case h_9 next hphase =>
    obtain rfl := Option.some_inj.mp h
    exact .moved _ rfl (.refl s) (fun _ => not_installs_of_eq rfl) fun _ _ id session hs huser => mem_sessionsOf hs huser
  case h_10 hphase =>
    obtain rfl := Option.some_inj.mp h
    exact .plain fun _ hnext => by cases hnext
  case h_11 id now hphase =>
    split at h
    · rename_i hfresh
      obtain rfl := Option.some_inj.mp h
      exact .registered id now hphase (by simpa using hfresh.1)
    · cases h
  case h_12 id hphase =>
    obtain rfl := Option.some_inj.mp h
    exact .moved _ rfl (.setLogin s id fun _ => rfl) (fun _ => not_installs_of_eq rfl) fun _ => trivial
  case h_13 id causes hphase =>
    obtain rfl := Option.some_inj.mp h
    exact .moved _ rfl (.setLogin s id fun _ => rfl) (fun _ => not_installs_of_eq rfl) fun _ hnext => by cases hnext
  case h_14 id hphase =>
    split at h
    · obtain rfl := Option.some_inj.mp h
      exact .plain fun _ => trivial
    · cases h
  case h_15 id hphase =>
    obtain rfl := Option.some_inj.mp h
    exact .plain fun _ hnext => by cases hnext
  case h_16 id hphase =>
    obtain rfl := Option.some_inj.mp h
    exact .plain fun _ => trivial
  case h_17 serial answer hphase =>
    obtain rfl := Option.some_inj.mp h
    refine .plain fun sessions => ?_
    cases answer <;> trivial
  case h_18 serial now hphase =>
    obtain rfl := Option.some_inj.mp h
    refine .moved _ rfl (.sessions rfl fun _ session hs => ⟨session, hs, rfl⟩)
      (fun id => not_installs fun user entry hentry hid => ⟨entry, ?_, hid⟩) fun _ => trivial
    rw [OrderedDict.get_set] at hentry
    split at hentry
    · obtain rfl := Option.some_inj.mp hentry
      cases hid
    · exact hentry
  case h_19 now hphase =>
    obtain rfl := Option.some_inj.mp h
    refine .moved _ rfl (.sessions rfl fun _ session hs => ⟨session, hs, rfl⟩)
      (fun id => not_installs fun user entry hentry hid => ?_) fun _ => ?_
    · simp only [State.touchAdapter, OrderedDict.get_modify] at hentry
      split at hentry
      · obtain ⟨old, hold, rfl⟩ := Option.map_eq_some_iff.mp hentry
        exact ⟨old, hold, hid⟩
      · exact ⟨entry, hentry, hid⟩
    · split <;> trivial
  case h_20 hphase =>
    obtain rfl := Option.some_inj.mp h
    exact .plain fun _ => trivial
  case h_21 hphase =>
    obtain rfl := Option.some_inj.mp h
    exact .plain fun _ => trivial
  case h_22 hphase =>
    obtain rfl := Option.some_inj.mp h
    refine .moved _ rfl (.sessions rfl fun _ session hs => ⟨session, hs, rfl⟩)
      (fun id => not_installs fun user entry hentry hid => ⟨entry, ?_, hid⟩) fun _ => trivial
    rw [OrderedDict.get_erase] at hentry
    split at hentry
    · cases hentry
    · exact hentry
  case h_23 hphase =>
    obtain rfl := Option.some_inj.mp h
    exact .plain fun _ => trivial
  case h_24 => cases h

/-- A login thread moves no handler, registers no session and touches no other login. -/
theorem work_keeps {s t : State C} {id : SessionId} {login : Login} {move : WorkerMove}
    (h : s.work id login move = some t) : Keeps s t ∧ t.call = s.call ∧ t.loop = s.loop := by
  unfold State.work at h
  split at h
  case h_1 qrCode now hworker =>
    split at h
    · obtain rfl := Option.some_inj.mp h
      have hshown : Keeps s { s with qrSessions := s.qrSessions.modify id (showQr qrCode now) } :=
        .modifySession rfl rfl fun _ => rfl
      exact ⟨hshown.trans (.setLogin _ id fun _ => rfl), rfl, rfl⟩
    · obtain rfl := Option.some_inj.mp h
      exact ⟨.refl s, rfl, rfl⟩
  case h_2 success hworker =>
    obtain rfl := Option.some_inj.mp h
    exact ⟨.setLogin s id fun _ => rfl, rfl, rfl⟩
  case h_3 message hworker =>
    obtain rfl := Option.some_inj.mp h
    exact ⟨.setLogin s id fun _ => rfl, rfl, rfl⟩
  case h_4 success now hworker =>
    split at h
    · obtain rfl := Option.some_inj.mp h
      have hconcluded : Keeps s { s with
          qrSessions := s.qrSessions.modify id (conclude success now)
          userAdapters :=
            if success = true then s.userAdapters.set login.user ⟨.qr id, now⟩ else s.userAdapters } :=
        .modifySession rfl rfl fun _ => rfl
      exact ⟨hconcluded.trans (.setLogin _ id fun _ => rfl), rfl, rfl⟩
    · obtain rfl := Option.some_inj.mp h
      exact ⟨.setLogin s id fun _ => rfl, rfl, rfl⟩
  case h_5 message now hworker =>
    obtain rfl := Option.some_inj.mp h
    have hrecorded : Keeps s { s with
        qrSessions := s.qrSessions.modify id (recordFailure message now) } :=
      .modifySession rfl rfl fun _ => rfl
    exact ⟨hrecorded.trans (.setLogin _ id fun _ => rfl), rfl, rfl⟩
  case h_6 => cases h

/-- A registered session belongs to a login of its user; only the handler that holds the loop is
between two awaits; and a handler has cleared what its phase says. -/
structure Inv (s : State C) : Prop where
  owner : ∀ id session, s.qrSessions.get id = some session →
    ∃ login, s.login id = some login ∧ login.user = session.userId
  single : ∀ c call, s.call c = some call → s.loop = some c ∨ call.phase.waiting = true
  clear : ∀ c call, s.call c = some call → call.phase.Clear s.qrSessions call.user

theorem Inv.start {s : State C} (h : Start s) : Inv s := by
  obtain ⟨hsessions, -, -, -, hcall⟩ := h
  constructor
  · intro id session hsession
    rw [hsessions] at hsession
    cases hsession
  · intro c call h
    rw [hcall c] at h
    cases h
  · intro c call h
    rw [hcall c] at h
    cases h

theorem Inv.owner_keeps {s t : State C} (h : Inv s) (keeps : Keeps s t) (id : SessionId)
    (session : QrSession) (hsession : t.qrSessions.get id = some session) :
    ∃ login, t.login id = some login ∧ login.user = session.userId := by
  obtain ⟨old, hold, huser⟩ := keeps.session id session hsession
  obtain ⟨login, hlogin, howner⟩ := h.owner id old hold
  obtain ⟨later, hlater, hsame⟩ := keeps.login id login hlogin
  exact ⟨later, hlater, hsame.trans (howner.trans huser)⟩

/-- When handler `c` moves, every other handler waits. -/
theorem Inv.others_wait {s : State C} (h : Inv s) {c d : C} {call : Call} (hd : s.call d = some call)
    (hne : d ≠ c) (turn : s.loop = some c ∨ s.loop = none) : call.phase.waiting = true := by
  rcases h.single d call hd with hloop | hwait
  · rcases turn with hturn | hturn
    · exact absurd (Option.some_inj.mp (hloop.symm.trans hturn)) hne
    · rw [hturn] at hloop
      cases hloop
  · exact hwait

theorem Inv.goto {s s' : State C} (h : Inv s) {c : C} {call : Call} {phase : Phase}
    (calls : s'.call = s.call) (turn : s.loop = some c ∨ s.loop = none)
    (owner : ∀ id session, s'.qrSessions.get id = some session →
      ∃ login, s'.login id = some login ∧ login.user = session.userId)
    (clear : phase.Clear s'.qrSessions call.user) : Inv (s'.goto c call phase) := by
  have hother : ∀ d other, d ≠ c → (s'.goto c call phase).call d = some other →
      other.phase.waiting = true := by
    intro d other hne hd
    simp only [State.goto, Function.update_of_ne hne, calls] at hd
    exact h.others_wait hd hne turn
  have hself : ∀ other, (s'.goto c call phase).call c = some other →
      other = { call with phase := phase } := by
    intro other hc
    simp only [State.goto, Function.update_self] at hc
    exact (Option.some_inj.mp hc).symm
  constructor
  · exact owner
  · intro d other hd
    by_cases hne : d = c
    · subst hne
      obtain rfl := hself other hd
      by_cases hwait : phase.waiting = true
      · exact .inr hwait
      · left
        simp [State.goto, hwait]
    · exact .inr (hother d other hne hd)
  · intro d other hd
    by_cases hne : d = c
    · subst hne
      obtain rfl := hself other hd
      exact clear
    · exact clear_of_waiting (hother d other hne hd)

theorem Request.entry_clear (sessions : OrderedDict SessionId QrSession) (user : String) (now : ℚ)
    (serial : ℕ) (request : Request) : (request.entry user now serial).Clear sessions user := by
  cases request <;> simp only [Request.entry] <;> (try split) <;> trivial

theorem Inv.preserved {s t : State C} {a : Action C} (h : Inv s) (taken : step s a = some t) :
    Inv t := by
  cases a with
  | request c user request now =>
    simp only [step] at taken
    split at taken
    · rename_i hfree
      obtain rfl := Option.some_inj.mp taken
      exact h.goto rfl (.inr hfree.1) h.owner (Request.entry_clear _ _ _ _ _)
    · cases taken
  | handler c move =>
    simp only [step] at taken
    split at taken
    · cases taken
    · rename_i call hcall
      split at taken
      · rename_i hturn
        have turn : s.loop = some c ∨ s.loop = none := hturn.imp id And.left
        cases handle_handled taken with
        | moved phase calls keeps installs clear =>
          exact h.goto calls turn (h.owner_keeps keeps) (clear (h.clear c call hcall))
        | registered id now registering fresh =>
          refine h.goto rfl turn (fun x session hsession => ?_) trivial
          simp only [State.registerLogin, OrderedDict.get_set] at hsession ⊢
          by_cases hx : x = id
          · subst hx
            rw [if_pos rfl] at hsession
            obtain rfl := Option.some_inj.mp hsession
            exact ⟨_, Function.update_self .., rfl⟩
          · rw [if_neg hx] at hsession
            obtain ⟨login, hlogin, huser⟩ := h.owner x session hsession
            exact ⟨login, by rw [Function.update_of_ne hx]; exact hlogin, huser⟩
      · cases taken
  | worker id move =>
    simp only [step] at taken
    split at taken
    · cases taken
    · obtain ⟨keeps, calls, loop⟩ := work_keeps taken
      refine ⟨h.owner_keeps keeps, fun c call hcall => ?_, fun c call hcall => ?_⟩
      · rw [calls] at hcall
        rw [loop]
        exact h.single c call hcall
      · rw [calls] at hcall
        exact (h.clear c call hcall).mono keeps

theorem Inv.of_reachable {s : State C} (h : (machine C).Reachable Machine.free s) : Inv s :=
  h.invariant (fun _ => Inv.start) fun _ _ _ hs _ taken => hs.preserved taken

/-- The login was started and its session is no longer registered. -/
def Closed (s : State C) (id : SessionId) : Prop :=
  (s.login id).isSome ∧ s.qrSessions.get id = none

theorem Closed.of_keeps {s t : State C} {id : SessionId} (h : Closed s id) (keeps : Keeps s t) :
    Closed t id := by
  obtain ⟨hlogin, hnone⟩ := h
  obtain ⟨login, hlogin⟩ := Option.isSome_iff_exists.mp hlogin
  obtain ⟨later, hlater, -⟩ := keeps.login id login hlogin
  refine ⟨by rw [hlater]; rfl, Option.eq_none_iff_forall_not_mem.mpr fun session hsession => ?_⟩
  obtain ⟨old, hold, -⟩ := keeps.session id session hsession
  rw [hnone] at hold
  cases hold

/-- Ids are drawn fresh, so a closed session stays closed. -/
theorem Closed.preserved {s t : State C} {a : Action C} {id : SessionId} (h : Closed s id)
    (taken : step s a = some t) : Closed t id := by
  cases a with
  | request c user request now =>
    simp only [step] at taken
    split at taken
    · obtain rfl := Option.some_inj.mp taken
      exact h
    · cases taken
  | handler c move =>
    simp only [step] at taken
    split at taken
    · cases taken
    · split at taken
      · cases handle_handled taken with
        | moved phase calls keeps installs clear =>
          have hclosed := h.of_keeps keeps
          exact hclosed
        | registered new now registering fresh =>
          have hne : id ≠ new := by
            rintro rfl
            rw [Closed, fresh] at h
            exact absurd h.1 (by simp)
          simpa [Closed, State.goto, State.registerLogin, hne] using h
      · cases taken
  | worker x move =>
    simp only [step] at taken
    split at taken
    · cases taken
    · exact h.of_keeps (work_keeps taken).1

/-- A closed login's thread still runs to its end, but it changes no adapter. -/
theorem Closed.work_adapters {s t : State C} {id : SessionId} {login : Login} {move : WorkerMove}
    (h : Closed s id) (taken : s.work id login move = some t) : t.userAdapters = s.userAdapters := by
  have hnone : (s.qrSessions.get id).isSome = false := by simp [h.2]
  unfold State.work at taken
  split at taken
  case h_1 qrCode now hworker =>
    rw [if_neg (by simp [hnone])] at taken
    obtain rfl := Option.some_inj.mp taken
    rfl
  case h_4 success now hworker =>
    rw [if_neg (by simp [hnone])] at taken
    obtain rfl := Option.some_inj.mp taken
    rfl
  case h_6 => cases taken
  all_goals
    obtain rfl := Option.some_inj.mp taken
    rfl

/-- A thread only ever installs the adapter of its own login. -/
theorem work_not_installs {s t : State C} {id x : SessionId} {login : Login} {move : WorkerMove}
    (hne : id ≠ x) (taken : s.work x login move = some t) : ¬ Installs s t id := by
  unfold State.work at taken
  split at taken
  case h_1 qrCode now hworker =>
    split at taken <;> obtain rfl := Option.some_inj.mp taken <;> exact not_installs_of_eq rfl
  case h_4 success now hworker =>
    split at taken
    · obtain rfl := Option.some_inj.mp taken
      cases success with
      | false => exact not_installs_of_eq rfl
      | true =>
        refine not_installs fun user entry hentry hid => ⟨entry, ?_, hid⟩
        simp only [State.setLogin, if_true, OrderedDict.get_set] at hentry
        split at hentry
        · obtain rfl := Option.some_inj.mp hentry
          exact absurd (AdapterId.qr.inj hid).symm hne
        · exact hentry
    · obtain rfl := Option.some_inj.mp taken
      exact not_installs_of_eq rfl
  case h_6 => cases taken
  all_goals
    obtain rfl := Option.some_inj.mp taken
    exact not_installs_of_eq rfl

theorem Closed.not_installs {s t : State C} {a : Action C} {id : SessionId} (h : Closed s id)
    (taken : step s a = some t) : ¬ Installs s t id := by
  cases a with
  | request c user request now =>
    simp only [step] at taken
    split at taken
    · obtain rfl := Option.some_inj.mp taken
      exact not_installs_of_eq rfl
    · cases taken
  | handler c move =>
    simp only [step] at taken
    split at taken
    · cases taken
    · split at taken
      · cases handle_handled taken with
        | moved phase calls keeps installs clear => exact installs id
        | registered new now registering fresh => exact not_installs_of_eq rfl
      · cases taken
  | worker x move =>
    simp only [step] at taken
    split at taken
    · cases taken
    · by_cases hx : id = x
      · subst hx
        exact not_installs_of_eq (h.work_adapters taken)
      · exact work_not_installs hx taken

/-- From `t` on the adapter of the login `id` does not come into the registry, and the thread of
this login leaves the adapters alone. -/
def NeverInstalls (t : State C) (id : SessionId) : Prop :=
  ∀ u a v, (machine C).Run Machine.free t u → step u a = some v →
    ¬ Installs u v id ∧ ∀ move, a = .worker id move → v.userAdapters = u.userAdapters

theorem Closed.never_installs {t : State C} {id : SessionId} (h : Closed t id) :
    NeverInstalls t id := by
  intro u a v run taken
  have hu : Closed u id :=
    run.keeps (I := fun w => Closed w id) (fun _ _ _ hs _ taken => hs.preserved taken) h
  refine ⟨hu.not_installs taken, ?_⟩
  rintro move rfl
  simp only [step] at taken
  split at taken
  · cases taken
  · exact hu.work_adapters taken

theorem NoneOf.closed {s : State C} {user : String} (h : NoneOf s.qrSessions user) (inv : Inv s)
    {id : SessionId} {login : Login} (hlogin : s.login id = some login) (huser : login.user = user) :
    Closed s id := by
  refine ⟨by simp [hlogin], Option.eq_none_iff_forall_not_mem.mpr fun session hsession => ?_⟩
  obtain ⟨owner, howner, hsame⟩ := inv.owner id session hsession
  obtain rfl := Option.some_inj.mp (hlogin.symm.trans howner)
  exact h id session hsession (hsame.symm.trans huser)

theorem handler_step {s t : State C} {c : C} {call : Call} {move : Move} (hcall : s.call c = some call)
    (taken : step s (.handler c move) = some t) :
    (s.loop = some c ∨ s.loop = none) ∧ s.handle c call move = some t := by
  simp only [step, hcall] at taken
  split at taken
  · rename_i hturn
    exact ⟨hturn.imp id And.left, taken⟩
  · cases taken

theorem register_phase {s t : State C} {c : C} {call : Call} {new : SessionId} {now : ℚ}
    (h : s.handle c call (.register new now) = some t) : call.phase = .registering := by
  unfold State.handle at h
  split at h
  case h_11 hphase _ => exact hphase
  case h_24 => cases h
  all_goals contradiction

/-- When a logout returns, no handler is between two awaits, and no QR login of the user that was
started by then installs its adapter any more. A newer QR login, from its registration on, and a
password login, from its installation on, silence every older QR login of the user. -/
theorem older_logins_never_install :
    (∀ (s t : State C) (c : C) (call : Call), (machine C).Reachable Machine.free s →
      s.call c = some call → call.phase = .closingTasks →
      step s (.handler c .proceed) = some t →
        t.call c = some { call with phase := .done (.success "Logout successful") } ∧
        (∀ d other, t.call d = some other → other.phase.waiting = true) ∧
        ∀ id login, t.login id = some login → login.user = call.user → NeverInstalls t id) ∧
    (∀ (s t : State C) (c : C) (call : Call) (new : SessionId) (now : ℚ),
      (machine C).Reachable Machine.free s → s.call c = some call →
      step s (.handler c (.register new now)) = some t →
        ∀ id login, s.login id = some login → login.user = call.user → NeverInstalls t id) ∧
    (∀ (s t : State C) (c : C) (call : Call) (serial : ℕ) (now : ℚ),
      (machine C).Reachable Machine.free s → s.call c = some call →
      call.phase = .installing serial → step s (.handler c (.at now)) = some t →
        ∀ id login, s.login id = some login → login.user = call.user → NeverInstalls t id) := by
  refine ⟨fun s t c call hs hcall hphase taken => ?_, fun s t c call new now hs hcall taken => ?_,
    fun s t c call serial now hs hcall hphase taken => ?_⟩
  · have inv := Inv.of_reachable hs
    obtain ⟨turn, hhandle⟩ := handler_step hcall taken
    have hclear := inv.clear c call hcall
    rw [hphase] at hclear
    obtain rfl : s.goto c call (.done (.success "Logout successful")) = t := by
      simpa [State.handle, hphase] using hhandle
    refine ⟨by simp [State.goto], fun d other hd => ?_, fun id login hlogin huser => ?_⟩
    · by_cases hne : d = c
      · subst hne
        simp only [State.goto, Function.update_self] at hd
        obtain rfl := Option.some_inj.mp hd
        rfl
      · simp only [State.goto, Function.update_of_ne hne] at hd
        exact inv.others_wait hd hne turn
    · have hclosed : Closed s id := NoneOf.closed hclear inv hlogin huser
      exact (hclosed.preserved taken).never_installs
  · intro id login hlogin huser
    have inv := Inv.of_reachable hs
    obtain ⟨-, hhandle⟩ := handler_step hcall taken
    have hphase := register_phase hhandle
    have hclear := inv.clear c call hcall
    rw [hphase] at hclear
    exact ((NoneOf.closed hclear inv hlogin huser).preserved taken).never_installs
  · intro id login hlogin huser
    have inv := Inv.of_reachable hs
    have hclear := inv.clear c call hcall
    rw [hphase] at hclear
    exact ((NoneOf.closed hclear inv hlogin huser).preserved taken).never_installs

def emptyServer : State Bool := ⟨.empty, .empty, fun _ => none, 0, none, fun _ => none⟩

/-- A logout that has dropped the adapter of its user while a QR login is still under way. -/
def logoutHalfway : List (Action Bool) :=
  [.request true "u" .startQrLogin 0, .handler true .proceed, .handler true .proceed,
    .handler true .proceed, .handler true .proceed, .handler true .proceed, .handler true .proceed,
    .handler true .proceed, .handler true .proceed, .handler true (.register "a" 0),
    .handler true (.startThread none), .worker "a" (.showQr "q" 1), .worker "a" (.loggedIn true),
    .request false "u" .logout 2, .handler false (.at 2), .handler false .proceed]

def logoutRest : List (Action Bool) := List.replicate 5 (.handler false .proceed)

def adapterAfter (actions : List (Action Bool)) : Option (Option AdapterId) :=
  ((machine Bool).exec emptyServer actions).map fun s => (s.userAdapters.get "u").map UserAdapter.adapter

-- The thread that ends after the logout is silent; the one that ends while the logout stands
-- between its two registries has installed its adapter before the return, and it stays there.
example : adapterAfter (logoutHalfway ++ logoutRest ++ [.worker "a" (.finish 3)]) = some none := by
  rfl

example : adapterAfter (logoutHalfway ++ .worker "a" (.finish 3) :: logoutRest) =
    some (some (.qr "a")) := by
  rfl

end UniversityHelper.QrLogin
