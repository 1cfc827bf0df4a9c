import UniversityHelper.QrExpiry

/-! A clean-up removes no adapter that was used or replaced since it was listed, in every run, and
no session that was refreshed, in every run without a refresh between its two critical sections. -/
namespace UniversityHelper.QrLogin
variable {C : Type*} [DecidableEq C]

/-- What the phase of a handler `c` promises. -/
structure Phase.Sound (s : Timed C) (c : C) (phase : Phase) : Prop where
  past : ∀ now, phase.time = some now → now ≤ s.clock
  listing : ∀ now, phase ≠ .listing (.findAdapters now)
  starting : ∀ id, phase = .startingThread id →
    (s.base.login id).map Login.worker = some .starting
  serial : ∀ n, phase.serial = some n →
    n < s.base.passwordLogins ∧ ∀ user, .password n ∉ s.installed user
  candidates : ∀ user adapter, (user, adapter) ∈ phase.candidates →
    (s.collected c user).head? = some adapter ∧ s.collected c user <:+ s.installed user

/-- The adapters installed so far are all different, and the registered one is the newest. -/
structure Ledger (s : Timed C) : Prop where
  current : ∀ user entry, s.base.userAdapters.get user = some entry →
    (s.installed user).head? = some entry.adapter
  once : ∀ user, (s.installed user).Nodup
  logins : ∀ user id, .qr id ∈ s.installed user →
    (s.base.login id).map Login.worker = some .returned
  passwords : ∀ user n, .password n ∈ s.installed user → n < s.base.passwordLogins

structure Sound (s : Timed C) : Prop where
  reachable : (machine C).Reachable Machine.free s.base
  phases : ∀ c call, s.base.call c = some call → call.phase.Sound s c
  distinct : ∀ c d call other n, c ≠ d → s.base.call c = some call → s.base.call d = some other →
    call.phase.serial = some n → other.phase.serial ≠ some n
  ledger : Ledger s

section Steps
variable {s t : Timed C}

omit [DecidableEq C] in
/-- A phase that carries no task ids, no login number and no adapter to look at. -/
theorem Phase.Sound.of_plain {c : C} {phase : Phase} (past : ∀ now, phase.time = some now → now ≤ s.clock)
    (listing : ∀ now, phase ≠ .listing (.findAdapters now)) (starting : ∀ id, phase ≠ .startingThread id)
    (serial : phase.serial = none) (candidates : phase.candidates = []) : phase.Sound s c := by
  refine ⟨past, listing, fun id hid => absurd hid (starting id), fun n hn => ?_, fun user adapter hmem => ?_⟩
  · rw [serial] at hn
    cases hn
  · rw [candidates] at hmem
    cases hmem

omit [DecidableEq C] in
theorem Phase.Sound.mono {c : C} {phase : Phase} (h : phase.Sound s c) (clock : s.clock ≤ t.clock)
    (serials : s.base.passwordLogins ≤ t.base.passwordLogins)
    (workers : ∀ id, phase = .startingThread id →
      (s.base.login id).map Login.worker = some .starting →
        (t.base.login id).map Login.worker = some .starting)
    (installed : ∀ user, s.installed user <:+ t.installed user)
    (collected : t.collected c = s.collected c)
    (fresh : ∀ n, phase.serial = some n → ∀ user, .password n ∉ t.installed user) :
    phase.Sound t c := by
  refine ⟨fun now hnow => (h.past now hnow).trans clock, h.listing,
    fun id hid => workers id hid (h.starting id hid),
    fun n hn => ⟨(h.serial n hn).1.trans_le serials, fresh n hn⟩, fun user adapter hmem => ?_⟩
  obtain ⟨hhead, hsuffix⟩ := h.candidates user adapter hmem
  rw [collected]
  exact ⟨hhead, hsuffix.trans (installed user)⟩

omit [DecidableEq C] in
/-- A phase that follows another one promises no more. -/
theorem Phase.Follows.sound {c : C} {new old : Phase} (h : new.Follows old) (hold : old.Sound t c) :
    new.Sound t c := by
  refine ⟨fun now hnow => ?_, h.listing, fun id hid => absurd hid (h.starting id), fun n hn => ?_,
    fun user adapter hmem => hold.candidates user adapter (h.candidates _ hmem)⟩
  · rcases h.time with hsame | hnone
    · exact hold.past now (hsame ▸ hnow)
    · rw [hnone] at hnow
      cases hnow
  · rcases h.serial with hsame | hnone
    · exact hold.serial n (hsame ▸ hn)
    · rw [hnone] at hn
      cases hn

/-- Handler `c` goes on while the others wait. -/
theorem Sound.goto (h : Sound s) {c : C} {call : Call} {phase : Phase} {base : State C}
    (moved : t.base = base.goto c call phase) (calls : base.call = s.base.call)
    (reachable : (machine C).Reachable Machine.free t.base) (clock : t.clock = s.clock)
    (serials : s.base.passwordLogins ≤ base.passwordLogins)
    (turn : s.base.loop = some c ∨ s.base.loop = none)
    (installed : ∀ user, s.installed user <:+ t.installed user)
    (collected : ∀ d, d ≠ c → t.collected d = s.collected d)
    (fresh : ∀ d other n, d ≠ c → s.base.call d = some other → other.phase.serial = some n →
      ∀ user, .password n ∉ t.installed user)
    (sound : phase.Sound t c)
    (serial : ∀ d other n, d ≠ c → s.base.call d = some other → phase.serial = some n →
      other.phase.serial ≠ some n)
    (ledger : Ledger t) : Sound t := by
  have hinv := Inv.of_reachable h.reachable
  have hself : ∀ other, t.base.call c = some other → other.phase = phase := by
    intro other hc
    simp only [moved, State.goto, Function.update_self] at hc
    rw [← Option.some_inj.mp hc]
  have hothers : ∀ d other, d ≠ c → t.base.call d = some other → s.base.call d = some other := by
    intro d other hne hd
    simpa only [moved, State.goto, Function.update_of_ne hne, calls] using hd
  refine ⟨reachable, fun d other hd => ?_, fun d e other last n hne hd he hserial => ?_, ledger⟩
  · by_cases hdc : d = c
    · subst hdc
      rw [hself other hd]
      exact sound
    · have hold := hothers d other hdc hd
      have hwait := hinv.others_wait hold hdc turn
      refine (h.phases d other hold).mono clock.ge ?_ ?_ installed (collected d hdc)
        fun n => fresh d other n hdc hold
      · rw [moved]
        exact serials
      · intro id hid
        rw [hid] at hwait
        cases hwait
  · by_cases hdc : d = c
    · subst hdc
      rw [hself other hd] at hserial
      exact serial e last n hne.symm (hothers e last hne.symm he) hserial
    · by_cases hec : e = c
      · subst hec
        rw [hself last he]
        intro hphase
        exact serial d other n hdc (hothers d other hdc hd) hphase hserial
      · exact h.distinct d e other last n hne (hothers d other hdc hd) (hothers e last hec he) hserial

omit [DecidableEq C] in
/-- A step that installs no adapter. -/
theorem Ledger.keep (h : Ledger s) (installed : t.installed = s.installed)
    (adapters : ∀ user entry, t.base.userAdapters.get user = some entry →
      ∃ old, s.base.userAdapters.get user = some old ∧ old.adapter = entry.adapter)
    (workers : ∀ id, (s.base.login id).map Login.worker = some .returned →
      (t.base.login id).map Login.worker = some .returned)
    (serials : s.base.passwordLogins ≤ t.base.passwordLogins) : Ledger t := by
  constructor
  · intro user entry hentry
    obtain ⟨old, hold, hsame⟩ := adapters user entry hentry
    rw [installed, ← hsame]
    exact h.current user old hold
  · rw [installed]
    exact h.once
  · rw [installed]
    exact fun user id hmem => workers id (h.logins user id hmem)
  · rw [installed]
    exact fun user n hmem => (h.passwords user n hmem).trans_le serials

theorem suffix_install {installed installed' : String → List AdapterId} {user : String}
    {adapter : AdapterId}
    (h : installed' = Function.update installed user (adapter :: installed user)) (x : String) :
    installed x <:+ installed' x := by
  rw [h]
  by_cases hx : x = user
  · subst hx
    rw [Function.update_self]
    exact List.suffix_cons _ _
  · rw [Function.update_of_ne hx]

theorem mem_install {installed installed' : String → List AdapterId} {user x : String}
    {adapter other : AdapterId}
    (h : installed' = Function.update installed user (adapter :: installed user))
    (hmem : other ∈ installed' x) : other = adapter ∨ other ∈ installed x := by
  rw [h] at hmem
  by_cases hx : x = user
  · subst hx
    rw [Function.update_self] at hmem
    exact List.mem_cons.mp hmem
  · rw [Function.update_of_ne hx] at hmem
    exact .inr hmem

omit [DecidableEq C] in
theorem Ledger.install (h : Ledger s) {user : String} {adapter : AdapterId} {now : ℚ}
    (installed : t.installed = Function.update s.installed user (adapter :: s.installed user))
    (adapters : t.base.userAdapters = s.base.userAdapters.set user ⟨adapter, now⟩)
    (fresh : adapter ∉ s.installed user)
    (workers : ∀ id, (s.base.login id).map Login.worker = some .returned →
      (t.base.login id).map Login.worker = some .returned)
    (serials : s.base.passwordLogins ≤ t.base.passwordLogins)
    (login : ∀ id, adapter = .qr id → (t.base.login id).map Login.worker = some .returned)
    (password : ∀ n, adapter = .password n → n < t.base.passwordLogins) : Ledger t := by
  have hmem : ∀ x other, other ∈ t.installed x → other = adapter ∨ other ∈ s.installed x :=
    fun x other hother => mem_install installed hother
  constructor
  · intro x entry hentry
    rw [adapters, OrderedDict.get_set] at hentry
    rw [installed]
    by_cases hx : x = user
    · subst hx
      rw [if_pos rfl] at hentry
      rw [Function.update_self, ← Option.some_inj.mp hentry]
      rfl
    · rw [if_neg hx] at hentry
      rw [Function.update_of_ne hx]
      exact h.current x entry hentry
  · intro x
    rw [installed]
    by_cases hx : x = user
    · subst hx
      rw [Function.update_self]
      exact List.nodup_cons.mpr ⟨fresh, h.once x⟩
    · rw [Function.update_of_ne hx]
      exact h.once x
  · intro x id hid
    rcases hmem x _ hid with hnew | hold
    · exact login id hnew.symm
    · exact workers id (h.logins x id hold)
  · intro x n hn
    rcases hmem x _ hn with hnew | hold
    · exact password n hnew.symm
    · exact (h.passwords x n hold).trans_le serials

omit [DecidableEq C] in
theorem installs_handler {s : State C} {c : C} {call : Call} {move : Move}
    (hcall : s.call c = some call) (h : ∀ serial, call.phase ≠ .installing serial) :
    installs s (.handler c move) = none := by
  obtain ⟨user, request, phase⟩ := call
  cases move with
  | «at» now =>
    simp only [installs, hcall]
    split
    · rename_i hphase
      cases hphase
      exact absurd rfl (h _)
    · rfl
  | _ => rfl

omit [DecidableEq C] in
theorem collects_handler {s : State C} {c : C} {call : Call} {move : Move}
    (hcall : s.call c = some call) (h : ∀ now, call.phase ≠ .findingAdapters now) :
    collects s (.handler c move) = none := by
  obtain ⟨user, request, phase⟩ := call
  cases move with
  | proceed =>
    simp only [collects, hcall]
    split
    · rename_i hphase
      cases hphase
      exact absurd rfl (h _)
    · rfl
  | _ => rfl

theorem record_installed {s : Timed C} {a : Action C} {u : State C}
    (h : installs s.base a = none) : (s.record a u).installed = s.installed := by
  simp only [Timed.record, h]

theorem record_collected {s : Timed C} {a : Action C} {u : State C}
    (h : collects s.base a = none) : (s.record a u).collected = s.collected := by
  simp only [Timed.record, h]

/-- A handler that installs nothing goes on. -/
theorem Sound.goto_quiet (h : Sound s) {c : C} {call : Call} {move : Move} {phase : Phase}
    {base : State C} (hcall : s.base.call c = some call)
    (taken : QrLogin.step s.base (.handler c move) = some (base.goto c call phase))
    (calls : base.call = s.base.call) (serials : base.passwordLogins = s.base.passwordLogins)
    (turn : s.base.loop = some c ∨ s.base.loop = none)
    (installs : ∀ serial, call.phase ≠ .installing serial)
    (adapters : ∀ user entry, base.userAdapters.get user = some entry →
      ∃ old, s.base.userAdapters.get user = some old ∧ old.adapter = entry.adapter)
    (workers : ∀ id, (s.base.login id).map Login.worker = some .returned →
      (base.login id).map Login.worker = some .returned)
    (collected : ∀ d, d ≠ c →
      (s.record (.handler c move) (base.goto c call phase)).collected d = s.collected d)
    (sound : phase.Sound (s.record (.handler c move) (base.goto c call phase)) c)
    (serial : phase.serial = call.phase.serial ∨ phase.serial = none) :
    Sound (s.record (.handler c move) (base.goto c call phase)) := by
  have hquiet : QrLogin.installs s.base (.handler c move) = none :=
    installs_handler hcall installs
  have hinstalled := record_installed (u := base.goto c call phase) hquiet
  refine h.goto (t := s.record (.handler c move) (base.goto c call phase)) rfl calls ?_ rfl
    serials.ge turn ?_ collected ?_ sound ?_ ?_
  · have hfree : Machine.free s.base (Action.handler c move) := trivial
    exact h.reachable.tail hfree taken
  · intro user
    rw [hinstalled]
  · intro d other n _ hd hn user
    rw [hinstalled]
    exact ((h.phases d other hd).serial n hn).2 user
  · intro d other n hne hd hn
    rcases serial with hsame | hnone
    · rw [hsame] at hn
      exact h.distinct c d call other n hne.symm hcall hd hn
    · rw [hnone] at hn
      cases hn
  · exact h.ledger.keep hinstalled adapters workers serials.ge

theorem mem_expiredAdapters {adapters : OrderedDict String UserAdapter} {now : ℚ} {user : String}
    {adapter : AdapterId} (h : (user, adapter) ∈ expiredAdapters adapters now) :
    ∃ entry, adapters.get user = some entry ∧ entry.adapter = adapter := by
  rw [expiredAdapters, List.mem_map] at h
  obtain ⟨⟨key, entry⟩, hmem, hpair⟩ := h
  obtain ⟨rfl, rfl⟩ := Prod.mk.inj hpair
  have hget := OrderedDict.get_eq_some.mpr hmem
  rw [OrderedDict.get_filter, Option.filter_eq_some_iff] at hget
  exact ⟨entry, hget.1, rfl⟩

theorem Sound.handler (h : Sound s) {c : C} {move : Move} {u : State C}
    (taken : QrLogin.step s.base (.handler c move) = some u) :
    Sound (s.record (.handler c move) u) := by
  obtain ⟨call, hcall⟩ : ∃ call, s.base.call c = some call := by
    cases hcall : s.base.call c with
    | none => simp [QrLogin.step, hcall] at taken
    | some call => exact ⟨call, rfl⟩
  obtain ⟨turn, hhandle⟩ := handler_step hcall taken
  have hphase := h.phases c call hcall
  cases handle_move hphase.listing hhandle with
  | @kept s' _ phase calls serials adapters workers follows installs collects =>
    have hnone : QrLogin.collects s.base (.handler c move) = none := collects_handler hcall collects
    have hcollected := record_collected (u := s'.goto c call phase) hnone
    have hquiet : QrLogin.installs s.base (.handler c move) = none :=
      installs_handler hcall installs
    have hinstalled := record_installed (u := s'.goto c call phase) hquiet
    have hnew : ∀ x, (s'.login x).map Login.worker = (s.base.login x).map Login.worker := workers
    refine h.goto_quiet hcall taken calls serials turn installs adapters (fun id hid => ?_)
      (fun d _ => by rw [hcollected]) (follows.sound ?_) follows.serial
    · rw [hnew id]
      exact hid
    · refine hphase.mono le_rfl serials.ge (fun id _ hid => ?_) (fun user => ?_) (by rw [hcollected])
        fun n hn user => ?_
      · change (s'.login id).map Login.worker = some .starting
        rw [hnew id]
        exact hid
      · rw [hinstalled]
      · rw [hinstalled]
        exact (hphase.serial n hn).2 user
  | listed now expiring =>
    refine h.goto_quiet hcall taken rfl rfl turn (by simp [expiring])
      (fun _ entry hentry => ⟨entry, hentry, rfl⟩) (fun _ hid => hid)
      (fun d _ => by rw [record_collected (collects_handler hcall (by simp [expiring]))]) ?_ (.inr rfl)
    refine .of_plain (fun now' hnow => ?_) (by simp) (by simp) rfl rfl
    cases hnow
    have hpast := hphase.past
    rw [expiring] at hpast
    exact hpast now rfl
  | collected now finding =>
    have hinstalls : ∀ serial, call.phase ≠ .installing serial := by simp [finding]
    have hcollects : collects s.base (.handler c .proceed) = some c := by
      obtain ⟨user, request, phase⟩ := call
      obtain rfl : phase = .findingAdapters now := finding
      simp [collects, hcall]
    refine h.goto_quiet hcall taken rfl rfl turn hinstalls
      (fun _ entry hentry => ⟨entry, hentry, rfl⟩) (fun _ hid => hid) (fun d hd => ?_) ?_ (.inr rfl)
    · simp only [Timed.record, hcollects, Function.update_of_ne hd]
    · refine ⟨fun now' hnow => ?_, by simp, by simp, by simp [Phase.serial],
        fun user adapter hmem => ?_⟩
      · cases hnow
        have hpast := hphase.past
        rw [finding] at hpast
        exact hpast now rfl
      · obtain ⟨entry, hentry, rfl⟩ := mem_expiredAdapters hmem
        have hquiet : QrLogin.installs s.base (.handler c .proceed) = none :=
          installs_handler hcall hinstalls
        have hinstalled := record_installed (u := s.base.goto c call
          (.inspecting now (expiredAdapters s.base.userAdapters now))) hquiet
        rw [hinstalled]
        simp only [Timed.record, hcollects, Function.update_self]
        exact ⟨h.ledger.current user entry hentry, List.suffix_rfl⟩
  | registered id now registering fresh =>
    refine h.goto_quiet hcall taken rfl rfl turn (by simp [registering])
      (fun _ entry hentry => ⟨entry, hentry, rfl⟩) (fun x hx => ?_)
      (fun d _ => by rw [record_collected (collects_handler hcall (by simp [registering]))]) ?_ (.inr rfl)
    · have hne : x ≠ id := by
        rintro rfl
        rw [fresh] at hx
        cases hx
      simpa [State.registerLogin, Function.update_of_ne hne] using hx
    · refine ⟨by simp [Phase.time], by simp, fun x hx => ?_, by simp [Phase.serial],
        by simp [Phase.candidates]⟩
      cases hx
      simp [Timed.record, State.goto, State.registerLogin]
  | @started move phase id worker starting follows =>
    have hstarting := hphase.starting id starting
    refine h.goto_quiet hcall taken rfl rfl turn (by simp [starting])
      (fun _ entry hentry => ⟨entry, hentry, rfl⟩) (fun x hx => ?_)
      (fun d _ => by rw [record_collected (collects_handler hcall (by simp [starting]))]) ?_
      follows.serial
    · have hne : x ≠ id := by
        rintro rfl
        rw [hstarting] at hx
        cases hx
      rw [login_setLogin_of_ne hne]
      exact hx
    · rw [starting] at follows
      refine ⟨fun now hnow => ?_, follows.listing, fun x hx => absurd hx (follows.starting x),
        fun n hn => ?_, fun user adapter hmem => absurd (follows.candidates _ hmem) List.not_mem_nil⟩
      · rcases follows.time with hsame | hnone
        · rw [hsame] at hnow
          cases hnow
        · rw [hnone] at hnow
          cases hnow
      · rcases follows.serial with hsame | hnone
        · rw [hsame] at hn
          cases hn
        · rw [hnone] at hn
          cases hn
  | installed serial now installing answer =>
    have hserial := hphase.serial serial (by rw [installing]; rfl)
    have hinstalls : installs s.base (.handler c (.at now)) = some (call.user, .password serial) := by
      obtain ⟨user, request, phase⟩ := call
      obtain rfl : phase = .installing serial := installing
      simp [installs, hcall]
    have hinstalled : ∀ u, (s.record (.handler c (.at now)) u).installed =
        Function.update s.installed call.user (.password serial :: s.installed call.user) := by
      intro u
      simp only [Timed.record, hinstalls]
    have hdone : Phase.Sound (s.record (.handler c (.at now))
        ({ s.base with userAdapters := s.base.userAdapters.set call.user ⟨.password serial, now⟩ }.goto c
          call (.done answer))) c (.done answer) :=
      .of_plain (by simp [Phase.time]) (by simp) (by simp) rfl rfl
    have hfree : Machine.free s.base (Action.handler c (.at now)) := trivial
    refine h.goto (t := s.record (.handler c (.at now)) _) rfl rfl (h.reachable.tail hfree taken) rfl
      le_rfl turn (suffix_install (hinstalled _)) (fun d _ => rfl) (fun d other n hd hother hn user hmem => ?_)
      hdone (by simp [Phase.serial])
      (h.ledger.install (hinstalled _) rfl (hserial.2 call.user) (fun _ hid => hid) le_rfl (by simp)
        fun n hn => ?_)
    · rcases mem_install (hinstalled _) hmem with hnew | hold
      · obtain rfl := AdapterId.password.inj hnew
        exact h.distinct c d call other n hd.symm hcall hother (by rw [installing]; rfl) hn
      · exact ((h.phases d other hother).serial n hn).2 user hold
    · obtain rfl := AdapterId.password.inj hn
      exact hserial.1

theorem Sound.request (h : Sound s) {c : C} {user : String} {request : Request} {now : ℚ}
    {u : State C} (htime : now = s.clock)
    (taken : QrLogin.step s.base (.request c user request now) = some u) :
    Sound (s.record (.request c user request now) u) := by
  have hfree : Machine.free s.base (Action.request c user request now) := trivial
  have hreach := h.reachable.tail hfree taken
  have htaken := taken
  simp only [QrLogin.step] at htaken
  split at htaken
  · rename_i hidle
    obtain rfl := Option.some_inj.mp htaken
    have hentry : ∀ phase, phase = request.entry user now s.base.passwordLogins →
        (∀ past, phase.time = some past → past = now) ∧ (∀ last, phase ≠ .listing (.findAdapters last)) ∧
        (∀ id, phase ≠ .startingThread id) ∧ phase.candidates = [] ∧
        ∀ n, phase.serial = some n → n = s.base.passwordLogins := by
      rintro phase rfl
      cases request <;> simp only [Request.entry] <;> (try split_ifs) <;>
        simp +contextual [Phase.time, Phase.candidates, Phase.serial, eq_comm]
    obtain ⟨hpast, hlisting, hstarting, hcandidates, hserial⟩ := hentry _ rfl
    refine h.goto (t := s.record (.request c user request now) _) rfl rfl hreach rfl
      (Nat.le_succ _) (.inr hidle.1) (fun _ => List.suffix_rfl) (fun _ _ => rfl)
      (fun d other n _ hd hn => ((h.phases d other hd).serial n hn).2)
      ⟨fun past hnow => ?_, hlisting, fun id hid => absurd hid (hstarting id), fun n hn => ?_, ?_⟩
      (fun d other n _ hd hn hother => ?_)
      (h.ledger.keep rfl (fun _ entry hentry => ⟨entry, hentry, rfl⟩) (fun _ hid => hid) (Nat.le_succ _))
    · rw [hpast past hnow, htime]
      exact le_rfl
    · rw [hserial n hn]
      refine ⟨Nat.lt_succ_self _, fun x hmem => ?_⟩
      exact lt_irrefl _ (h.ledger.passwords x _ hmem)
    · rw [hcandidates]
      simp
    · rw [hserial n hn] at hother
      exact lt_irrefl _ ((h.phases d other hd).serial _ hother).1
  · cases htaken

theorem worker_step {s t : State C} {id : SessionId} {move : WorkerMove}
    (taken : QrLogin.step s (.worker id move) = some t) :
    ∃ login, s.login id = some login ∧ Worked s id login move t := by
  cases hlogin : s.login id with
  | none => simp [QrLogin.step, hlogin] at taken
  | some login =>
    simp only [QrLogin.step, hlogin] at taken
    exact ⟨login, rfl, work_worked hlogin taken⟩

theorem Sound.worker (h : Sound s) {id : SessionId} {move : WorkerMove} {u : State C}
    (taken : QrLogin.step s.base (.worker id move) = some u) :
    Sound (s.record (.worker id move) u) := by
  have hfree : Machine.free s.base (Action.worker id move : Action C) := trivial
  have hreach := h.reachable.tail hfree taken
  obtain ⟨login, hlogin, hworked⟩ := worker_step taken
  have hkeeps : ∀ worker, login.worker ≠ worker → (∀ x, x ≠ id → u.login x = s.base.login x) →
      ∀ x, (s.base.login x).map Login.worker = some worker →
        (u.login x).map Login.worker = some worker := by
    intro worker hne others x hx
    have hxid : x ≠ id := by
      rintro rfl
      rw [hlogin] at hx
      exact hne (Option.some_inj.mp hx)
    rw [others x hxid]
    exact hx
  have hcollected : (s.record (.worker id move) u).collected = s.collected := rfl
  have hothers : u.call = s.base.call → ∀ c d call other n, c ≠ d → u.call c = some call →
      u.call d = some other → call.phase.serial = some n → other.phase.serial ≠ some n := by
    intro hcalls
    rw [hcalls]
    exact h.distinct
  cases hworked with
  | kept calls serials adapters others alive sessions quiet =>
    have hinstalled := record_installed (u := u) quiet
    refine ⟨hreach, fun c call hcall => ?_, hothers calls, h.ledger.keep hinstalled ?_
      (hkeeps .returned alive.2 others) serials.ge⟩
    · have hold : s.base.call c = some call := calls ▸ hcall
      refine (h.phases c call hold).mono le_rfl serials.ge (fun x _ => hkeeps .starting alive.1 others x)
        (fun user => by rw [hinstalled]) rfl fun n hn user => ?_
      rw [hinstalled]
      exact ((h.phases c call hold).serial n hn).2 user
    · intro user entry hentry
      change u.userAdapters.get user = some entry at hentry
      rw [adapters] at hentry
      exact ⟨entry, hentry, rfl⟩
  | installed now calls serials adapters others alive returned sessions installs =>
    have hinstalled : (s.record (.worker id (.finish now)) u).installed =
        Function.update s.installed login.user (.qr id :: s.installed login.user) := by
      simp only [Timed.record, installs]
    have hfresh : ∀ user, .qr id ∉ s.installed user := by
      intro user hmem
      have hreturned := h.ledger.logins user id hmem
      rw [hlogin] at hreturned
      exact alive.2 (Option.some_inj.mp hreturned)
    refine ⟨hreach, fun c call hcall => ?_, hothers calls, h.ledger.install hinstalled adapters
      (hfresh login.user) (hkeeps .returned alive.2 others) serials.ge (fun x hx => ?_) nofun⟩
    · have hold : s.base.call c = some call := calls ▸ hcall
      refine (h.phases c call hold).mono le_rfl serials.ge (fun x _ => hkeeps .starting alive.1 others x)
        (suffix_install hinstalled) rfl fun n hn user hmem => ?_
      rcases mem_install hinstalled hmem with hnew | hmem
      · cases hnew
      · exact ((h.phases c call hold).serial n hn).2 user hmem
    · obtain rfl := AdapterId.qr.inj hx
      exact returned

theorem Sound.preserved (h : Sound s) {a : TimedAction C} (taken : s.step a = some t) : Sound t := by
  cases a with
  | tick now =>
    obtain ⟨hnow, rfl⟩ : s.clock ≤ now ∧ { s with clock := now } = t := by
      simpa [Timed.step] using taken
    refine ⟨h.reachable, fun c call hcall => ?_, h.distinct,
      h.ledger.keep rfl (fun _ entry hentry => ⟨entry, hentry, rfl⟩) (fun _ hid => hid) le_rfl⟩
    exact (h.phases c call hcall).mono hnow le_rfl (fun _ _ hid => hid) (fun _ => List.suffix_rfl) rfl
      fun n hn => ((h.phases c call hcall).serial n hn).2
  | act a =>
    simp only [Timed.step] at taken
    split_ifs at taken with htime
    obtain ⟨u, hu, rfl⟩ := Option.map_eq_some_iff.mp taken
    cases a with
    | request c user request now =>
      have hnow : now = s.clock := by simpa [Action.time] using htime
      exact h.request hnow hu
    | handler c move => exact h.handler hu
    | worker id move => exact h.worker hu

theorem Sound.of_reachable {ok : Timed C → TimedAction C → Prop}
    (h : (timedMachine C).Reachable ok s) : Sound s := by
  refine h.invariant (I := Sound) ?_ fun s a t hs _ taken => hs.preserved taken
  rintro s ⟨hbase, hinstalled⟩
  have hreach : (machine C).Reachable Machine.free s.base := .start hbase
  obtain ⟨-, hadapters, -, -, hcall⟩ := hbase
  refine ⟨hreach, ?_, ?_, ⟨?_, ?_, ?_, ?_⟩⟩
  · intro c call h
    rw [hcall c] at h
    cases h
  · intro c d call other n _ h
    rw [hcall c] at h
    cases h
  · intro user entry hentry
    rw [hadapters] at hentry
    cases hentry
  · intro user
    rw [hinstalled user]
    exact .nil
  · intro user id hmem
    rw [hinstalled user] at hmem
    cases hmem
  · intro user n hmem
    rw [hinstalled user] at hmem
    cases hmem

theorem act_step {a : Action C} (taken : s.step (.act a) = some t) :
    ∃ u, QrLogin.step s.base a = some u ∧ t = s.record a u := by
  simp only [Timed.step] at taken
  split_ifs at taken
  obtain ⟨u, hu, rfl⟩ := Option.map_eq_some_iff.mp taken
  exact ⟨u, hu, rfl⟩

omit [DecidableEq C] in
theorem dropped_adapter {adapters : OrderedDict String UserAdapter} {now : ℚ} {user : String}
    {adapter : AdapterId} {entry : UserAdapter} (hentry : adapters.get user = some entry)
    (hgone : (dropAdapter adapters now user adapter).get user = none) :
    entry.adapter = adapter ∧ userAdapterTtlSeconds < now - entry.lastAccess := by
  rw [dropAdapter, OrderedDict.get_filter, hentry, Option.filter_eq_none_iff] at hgone
  obtain ⟨hsame, hold⟩ : entry.adapter = adapter ∧
      userAdapterTtlSeconds + entry.lastAccess < now := by simpa using hgone entry rfl
  exact ⟨hsame, by linarith⟩

/-- The newest of a list without repetitions is the newest of no other end of it. -/
theorem eq_of_suffix_of_head {α : Type*} {xs ys : List α} {x : α} (hsuffix : ys <:+ xs)
    (hnodup : xs.Nodup) (hxs : xs.head? = some x) (hys : ys.head? = some x) : xs = ys := by
  obtain ⟨before, rfl⟩ := hsuffix
  cases before with
  | nil => rfl
  | cons first before =>
    obtain rfl : first = x := Option.some_inj.mp hxs
    have hmem : first ∈ before ++ ys := List.mem_append_right _ (List.mem_of_mem_head? hys)
    exact absurd hmem (List.nodup_cons.mp hnodup).1

/-- The adapter half holds in every run. -/
theorem Sound.adapters_expired (h : Sound s) {a : TimedAction C} (taken : s.step a = some t) :
    AdaptersExpired s a t := by
  rintro c call now user adapter rest rfl hcall hphase entry hentry hgone
  obtain ⟨u, hu, rfl⟩ := act_step taken
  obtain ⟨-, hhandle⟩ := handler_step hcall hu
  have hsound := h.phases c call hcall
  rw [hphase] at hsound
  obtain rfl : State.goto { s.base with
      userAdapters := dropAdapter s.base.userAdapters now user adapter } c call
        (.inspecting now rest) = u := by
    simpa [State.handle, hphase] using hhandle
  obtain ⟨rfl, hold⟩ := dropped_adapter hentry hgone
  have hpast := hsound.past now rfl
  obtain ⟨hhead, hsuffix⟩ := hsound.candidates user entry.adapter List.mem_cons_self
  refine ⟨by linarith, ?_⟩
  exact eq_of_suffix_of_head hsuffix (h.ledger.once user) (h.ledger.current user entry hentry) hhead

/-- What a clean-up has listed is still expired. -/
def Listed (s : Timed C) : Prop :=
  ∀ c call ids now, s.base.call c = some call → call.phase = .cancelling ids (.findAdapters now) →
    ∀ id ∈ ids, ∀ session, s.base.qrSessions.get id = some session →
      qrSessionTtlSeconds < now - session.updatedAt

theorem mem_expiredSessions {sessions : OrderedDict SessionId QrSession} {now : ℚ} {id : SessionId}
    {session : QrSession} (hsession : sessions.get id = some session) :
    id ∈ expiredSessions sessions now ↔ qrSessionTtlSeconds < now - session.updatedAt := by
  rw [expiredSessions, OrderedDict.mem_keys, OrderedDict.get_filter, hsession]
  simp [Option.filter_eq_some_iff]

/-- After a handler has moved, no other one is between two critical sections. -/
theorem Listed.of_goto (h : Sound s) {c : C} {call : Call} {phase : Phase} {base : State C}
    (moved : t.base = base.goto c call phase) (calls : base.call = s.base.call)
    (turn : s.base.loop = some c ∨ s.base.loop = none)
    (hphase : ∀ ids now, phase = .cancelling ids (.findAdapters now) →
      ∀ id ∈ ids, ∀ session, t.base.qrSessions.get id = some session →
        qrSessionTtlSeconds < now - session.updatedAt) : Listed t := by
  have hinv := Inv.of_reachable h.reachable
  intro d other ids now hd hlisting
  by_cases hdc : d = c
  · subst hdc
    simp only [moved, State.goto, Function.update_self] at hd
    obtain rfl := Option.some_inj.mp hd
    exact hphase ids now hlisting
  · simp only [moved, State.goto, Function.update_of_ne hdc, calls] at hd
    have hwait := hinv.others_wait hd hdc turn
    rw [hlisting] at hwait
    cases hwait

theorem Listed.preserved (sound : Sound s) (h : Listed s) {a : TimedAction C}
    (allowed : Unrefreshed s a) (taken : s.step a = some t) : Listed t := by
  cases a with
  | tick now =>
    obtain ⟨-, rfl⟩ : s.clock ≤ now ∧ { s with clock := now } = t := by
      simpa [Timed.step] using taken
    exact h
  | act a =>
    obtain ⟨u, hu, rfl⟩ := act_step taken
    cases a with
    | request c user request now =>
      simp only [QrLogin.step] at hu
      split at hu
      · rename_i hidle
        obtain rfl := Option.some_inj.mp hu
        refine Listed.of_goto sound rfl rfl (.inr hidle.1) fun ids past hphase => ?_
        cases request <;> simp only [Request.entry] at hphase <;> (try split_ifs at hphase) <;>
          cases hphase
      · cases hu
    | handler c move =>
      obtain ⟨call, hcall⟩ : ∃ call, s.base.call c = some call := by
        cases hcall : s.base.call c with
        | none => simp [QrLogin.step, hcall] at hu
        | some call => exact ⟨call, rfl⟩
      obtain ⟨turn, hhandle⟩ := handler_step hcall hu
      cases handle_move (sound.phases c call hcall).listing hhandle with
      | kept calls serials adapters workers follows installs collects =>
        exact .of_goto sound rfl calls turn fun ids past hphase =>
          absurd hphase (follows.cancelling ids past)
      | listed now expiring =>
        refine .of_goto sound rfl rfl turn fun ids past hphase => ?_
        obtain ⟨rfl, hpast⟩ := Phase.cancelling.inj hphase
        obtain rfl := Next.findAdapters.inj hpast
        exact fun id hid session hsession => (mem_expiredSessions hsession).mp hid
      | collected now finding => exact .of_goto sound rfl rfl turn (by simp)
      | registered id now registering fresh => exact .of_goto sound rfl rfl turn (by simp)
      | started id worker starting follows =>
        exact .of_goto sound rfl rfl turn fun ids past hphase =>
          absurd hphase (follows.cancelling ids past)
      | installed serial now installing answer => exact .of_goto sound rfl rfl turn (by simp)
    | worker id move =>
      obtain ⟨login, -, hworked⟩ := worker_step hu
      have hkept : u.call = s.base.call → Refreshed s.base u id move →
          Listed (s.record (.worker id move) u) := by
        intro hcalls hrefreshed c call ids now hcall hphase x hx session hsession
        have hold : s.base.call c = some call := hcalls ▸ hcall
        rcases hrefreshed x session hsession with hsame | ⟨rfl, hmove, hpresent⟩
        · exact h c call ids now hold hphase x hx session hsame
        · cases move with
          | showQr qrCode now' => exact absurd hx (allowed hpresent c call ids now hold hphase)
          | finish now' => exact absurd hx (allowed hpresent c call ids now hold hphase)
          | loggedIn success => cases hmove
          | raised message => cases hmove
      cases hworked with
      | kept calls serials adapters others alive sessions quiet => exact hkept calls sessions
      | installed now calls serials adapters others alive returned sessions installs =>
        exact hkept calls sessions

end Steps

/-- Expiry removes only what is expired: no session that was refreshed since it was listed, as long
as no login thread refreshes it between the two critical sections, and, in any case, no adapter
that was used or replaced. -/
theorem expiry_removes_expired {s t : Timed C} {a : TimedAction C}
    (hs : (timedMachine C).Reachable Unrefreshed s) (taken : s.step a = some t) :
    SessionsExpired s a ∧ AdaptersExpired s a t := by
  have hsound := Sound.of_reachable hs
  have hlisted : Listed s := by
    refine hs.invariant_under (J := Sound) (I := Listed) (fun _ => Sound.of_reachable) ?_
      fun s a t sound listed allowed taken => listed.preserved sound allowed taken
    rintro s ⟨⟨-, -, -, -, hcall⟩, -⟩ c call ids now h
    rw [hcall c] at h
    cases h
  refine ⟨?_, hsound.adapters_expired taken⟩
  cases a with
  | tick now => trivial
  | act a =>
    cases a with
    | handler c move =>
      cases move with
      | proceed =>
        intro call ids now hcall hphase id hid session hsession
        have hold := hlisted c call ids now hcall hphase id hid session hsession
        have hpast := (hsound.phases c call hcall).past now (by rw [hphase]; rfl)
        linarith
      | _ => trivial
    | _ => trivial

def firstTick : Timed Bool := ⟨emptyServer, 0, fun _ => [], fun _ _ => []⟩

theorem start_firstTick : (timedMachine Bool).start firstTick :=
  ⟨⟨rfl, rfl, fun _ => rfl, rfl, fun _ => rfl⟩, fun _ => rfl⟩

/-- A QR login up to its first QR code; ten minutes later, a clean-up. -/
def qrStarted : List (TimedAction Bool) :=
  .act (.request true "u" .startQrLogin 0) :: List.replicate 8 (.act (.handler true .proceed)) ++
    [.act (.handler true (.register "a" 0)), .act (.handler true (.startThread none)), .tick 1]

def cleanupCalled : List (TimedAction Bool) :=
  [.act (.handler true (.qrWaited true)), .act (.handler true .proceed), .tick 700,
    .act (.request false "" .periodicCleanup 700)]

def shownAt (qrCode : String) (now : ℚ) : QrSession := ⟨.pending, "Waiting for scan", some qrCode, now, "u"⟩

theorem listed_shown {sessions : OrderedDict SessionId QrSession}
    (h : sessions.get "a" = some (shownAt "q" 1)) : "a" ∈ expiredSessions sessions 700 := by
  rw [mem_expiredSessions h]
  norm_num [shownAt, qrSessionTtlSeconds]

theorem get_popSessions_of_mem {sessions : OrderedDict SessionId QrSession} {ids : List SessionId}
    {id : SessionId} (h : id ∈ ids) : (popSessions sessions ids).get id = none := by
  cases hget : (popSessions sessions ids).get id with
  | none => rfl
  | some session => exact absurd h (get_popSessions.mp hget).2

theorem abandoned_session_removed : ∃ s t, (timedMachine Bool).Reachable Unrefreshed s ∧
    s.step (.act (.handler false .proceed)) = some t ∧
    s.base.qrSessions.get "a" = some (shownAt "q" 1) ∧ t.base.qrSessions.get "a" = none ∧
    SessionsExpired s (.act (.handler false .proceed)) := by
  have hrun : ∃ q r s t u, (timedMachine Bool).exec firstTick qrStarted = some q ∧
      q.step (.act (.worker "a" (.showQr "q" 1))) = some r ∧
      (timedMachine Bool).exec r cleanupCalled = some s ∧
      (timedMachine Bool).exec s [.act (.handler false .proceed)] = some t ∧
      t.step (.act (.handler false .proceed)) = some u ∧
      q.base.call true = some ⟨"u", .startQrLogin, .awaitingQr "a"⟩ ∧ q.base.call false = none ∧
      s.base.qrSessions.get "a" = some (shownAt "q" 1) ∧ t.base.qrSessions = s.base.qrSessions ∧
      u.base.qrSessions = popSessions t.base.qrSessions (expiredSessions s.base.qrSessions 700) :=
    ⟨_, _, _, _, _, rfl, rfl, rfl, rfl, rfl, rfl, rfl, rfl, rfl, rfl⟩
  obtain ⟨q, r, s, t, u, hq, hshown, hs, ht, hu, htrue, hfalse, hsession, hkept, hpopped⟩ := hrun
  have hallowed : Unrefreshed q (.act (.worker "a" (.showQr "q" 1))) := by
    intro _ c call ids now hcall hphase
    cases c with
    | false =>
      rw [hfalse] at hcall
      cases hcall
    | true =>
      rw [htrue] at hcall
      cases hcall
      cases hphase
  have hstart : (timedMachine Bool).Reachable Unrefreshed q := by
    refine ⟨_, start_firstTick, Machine.run_of_exec_of ?_ hq⟩
    simp [qrStarted, Unrefreshed]
  have hcalled := (hstart.tail hallowed hshown).run
    (Machine.run_of_exec_of (by simp [cleanupCalled, Unrefreshed]) hs)
  have hlisted := hcalled.run (Machine.run_of_exec_of (by simp [Unrefreshed]) ht)
  refine ⟨t, u, hlisted, hu, hkept ▸ hsession, ?_, (expiry_removes_expired hlisted hu).1⟩
  rw [hpopped]
  exact get_popSessions_of_mem (listed_shown hsession)

/-- The login thread shows a new QR code after the clean-up has listed its session. -/
theorem refreshed_session_removed : ∃ s t, (timedMachine Bool).Reachable Machine.free s ∧
    s.step (.act (.handler false .proceed)) = some t ∧
    s.base.qrSessions.get "a" = some (shownAt "r" 700) ∧ t.base.qrSessions.get "a" = none ∧
    ¬ SessionsExpired s (.act (.handler false .proceed)) := by
  have hrun : ∃ r s t, (timedMachine Bool).exec firstTick
        (qrStarted ++ .act (.worker "a" (.showQr "q" 1)) :: cleanupCalled) = some r ∧
      (timedMachine Bool).exec r
        [.act (.handler false .proceed), .act (.worker "a" (.showQr "r" 700))] = some s ∧
      s.step (.act (.handler false .proceed)) = some t ∧
      r.base.qrSessions.get "a" = some (shownAt "q" 1) ∧
      s.base.qrSessions.get "a" = some (shownAt "r" 700) ∧ s.clock = 700 ∧
      s.base.call false = some ⟨"", .periodicCleanup,
        .cancelling (expiredSessions r.base.qrSessions 700) (.findAdapters 700)⟩ ∧
      t.base.qrSessions = popSessions s.base.qrSessions (expiredSessions r.base.qrSessions 700) :=
    ⟨_, _, _, rfl, rfl, rfl, rfl, rfl, rfl, rfl, rfl⟩
  obtain ⟨r, s, t, hr, hs, ht, hold, hsession, hclock, hcall, hpopped⟩ := hrun
  have hreach := (Machine.reachable_of_exec _ start_firstTick hr).run (Machine.run_of_exec hs)
  have hlisted := listed_shown hold
  refine ⟨s, t, hreach, ht, hsession, ?_, fun hexpired => ?_⟩
  · rw [hpopped]
    exact get_popSessions_of_mem hlisted
  · have hage := hexpired _ _ _ hcall rfl "a" hlisted _ hsession
    rw [hclock] at hage
    norm_num [shownAt, qrSessionTtlSeconds] at hage

end UniversityHelper.QrLogin
