import UniversityHelper.UpdateChecker

/-! How often GitHub is asked, and what administrators are shown: the checker never asks more often than its
interval allows, and a tag brings nothing but white space, digits and the characters of a pre-release into the
commands that it shows. A request counts once, with the redirects that it follows. -/
namespace UniversityHelper.UpdateChecker
open UpdateCheck

/-! ### What a tag may consist of -/

section Tag
variable {cs rest digits : List Char} {c : Char}

/-- White space, decimal digits of any script, and the characters of a pre-release. -/
def isHarmless (c : Char) : Bool := isSpace c || isDecimal c || isPreChar c

theorem number_eq (h : number cs = some (digits, rest)) :
    cs = digits ++ rest ∧ ∀ c ∈ digits, isHarmless c = true := by
  simp only [number] at h
  split_ifs at h
  cases h
  refine ⟨(List.takeWhile_append_dropWhile).symm, fun c hc => ?_⟩
  simp [isHarmless, List.mem_takeWhile_imp hc]

theorem dot_eq (h : dot cs = some rest) : cs = '.' :: rest := by
  cases cs with
  | nil => cases h
  | cons c cs =>
    simp only [dot] at h
    split_ifs at h with hc
    cases h
    rw [hc]

theorem suffix_harmless {pre : Option (List Char)} (h : suffix cs = some pre) : ∀ c ∈ cs, isHarmless c = true := by
  have hpre : ∀ c, isPreChar c = true → isHarmless c = true := fun c hc => by simp [isHarmless, hc]
  cases cs with
  | nil => exact nofun
  | cons c cs =>
    simp only [suffix] at h
    split_ifs at h with hsplit hall
    · intro d hd
      rcases List.mem_cons.mp hd with rfl | hd
      · refine hpre d ?_
        rcases hsplit.1 with rfl | rfl <;> rfl
      · exact hpre d (List.all_eq_true.mp hsplit.2.2 d hd)
    · exact fun d hd => hpre d (List.all_eq_true.mp hall d hd)

theorem matchVersion_harmless {groups : Groups} (h : matchVersion cs = some groups) :
    ∀ c ∈ cs, isHarmless c = true := by
  simp only [matchVersion, Option.bind_eq_bind, Option.bind_eq_some_iff, Prod.exists] at h
  obtain ⟨major, rest, hmajor, afterMajor, hdot, minor, rest', hminor, afterMinor, hdot', patch, rest'', hpatch,
    pre, hpre, -⟩ := h
  obtain ⟨hcore, hmajor⟩ := number_eq hmajor
  obtain ⟨hrest, hminor⟩ := number_eq hminor
  obtain ⟨hrest', hpatch⟩ := number_eq hpatch
  have hsuffix := suffix_harmless hpre
  rw [dot_eq hdot, hrest, dot_eq hdot', hrest'] at hcore
  have hall : ∀ c ∈ (if cs.head? = some 'v' then cs.tail else cs), isHarmless c = true := by
    intro c hc
    rw [hcore] at hc
    simp only [List.mem_append, List.mem_cons] at hc
    rcases hc with hc | rfl | hc | rfl | hc | hc
    · exact hmajor c hc
    · rfl
    · exact hminor c hc
    · rfl
    · exact hpatch c hc
    · exact hsuffix c hc
  split_ifs at hall with hv
  · obtain ⟨tail, rfl⟩ : ∃ tail, cs = 'v' :: tail := by
      cases cs with
      | nil => cases hv
      | cons c cs =>
        obtain rfl : c = 'v' := by simpa using hv
        exact ⟨cs, rfl⟩
    intro c hc
    rcases List.mem_cons.mp hc with rfl | hc
    · rfl
    · exact hall c hc
  · exact hall

/-- A tag that `parse_version` accepts. -/
theorem tag_harmless {tag : String} {key : VersionKey} (h : parseVersion (some tag) = some (some key)) :
    ∀ c ∈ tag.toList, isHarmless c = true := by
  have hstripped : ∀ c ∈ stripChars tag.toList, isHarmless c = true := by
    simp only [parseVersion, Option.getD_some, strip, String.toList_ofList] at h
    split at h
    · cases h
    · rename_i groups hmatch
      exact matchVersion_harmless hmatch
  have hspace : ∀ c, isSpace c = true → isHarmless c = true := fun c hc => by simp [isHarmless, hc]
  intro c hc
  rw [← List.takeWhile_append_dropWhile (p := isSpace) (l := tag.toList)] at hc
  rcases List.mem_append.mp hc with hc | hc
  · exact hspace c (List.mem_takeWhile_imp hc)
  · have hsplit : stripChars tag.toList ++ (tag.toList.dropWhile isSpace).rtakeWhile isSpace =
        tag.toList.dropWhile isSpace := List.rdropWhile_append_rtakeWhile
    rw [← hsplit] at hc
    rcases List.mem_append.mp hc with hc | hc
    · exact hstripped c hc
    · exact hspace c (List.mem_rtakeWhile_imp hc)

theorem accept_harmless {checkedAt : ℕ} {response : Response} {release : Release}
    (h : accept checkedAt response = some (some release)) : ∀ c ∈ release.tag.toList, isHarmless c = true := by
  cases response with
  | failed => cases h
  | answered statusCode data =>
    simp only [accept] at h
    split_ifs at h
    · cases h
    · cases data with
      | none => cases h
      | some data =>
        simp only at h
        split_ifs at h
        · cases h
        · obtain ⟨key, hkey, hrelease⟩ := Option.map_eq_some_iff.mp h
          obtain ⟨found, rfl, rfl⟩ := Option.map_eq_some_iff.mp hrelease
          exact tag_harmless hkey

/-- A status whose commands are the fixed words around a harmless version. -/
def Status.Harmless (status : Status) : Prop :=
  ∀ bash powershell, status.commands = some (bash, powershell) → ∃ version : String,
    bash = bashCommand version ∧ powershell = powershellCommand version ∧
      ∀ c ∈ version.toList, isHarmless c = true

theorem statusOf_harmless {current : String} {release : Option Release} {status : Status}
    (h : statusOf current release = some status)
    (harmless : ∀ r, release = some r → ∀ c ∈ r.tag.toList, isHarmless c = true) : status.Harmless := by
  cases release with
  | none =>
    cases h
    exact nofun
  | some release =>
    simp only [statusOf, Option.map_eq_some_iff] at h
    obtain ⟨hasUpdate, -, rfl⟩ := h
    intro bash powershell hcommands
    simp only [updateCommands, Option.some_inj, Prod.mk.injEq] at hcommands
    obtain ⟨rfl, rfl⟩ := hcommands
    refine ⟨stripV (stripV release.tag), rfl, rfl, fun c hc => harmless release rfl c ?_⟩
    simp only [stripV, String.toList_ofList] at hc
    exact (List.dropWhile_suffix _).subset ((List.dropWhile_suffix _).subset hc)

end Tag

/-! ### The requests -/

variable {ι : Type*} [DecidableEq ι] {settings : Settings} {s t : State ι} {a : Action ι}

/-- A request of a call comes after the interval, one of the loop after its sleep. -/
def Spaced (settings : Settings) (first second : Request) : Prop :=
  (second.byLoop = false → first.sentAt + settings.ttl ≤ second.sentAt) ∧
    (first.byLoop = true → second.byLoop = true → first.sentAt + settings.period ≤ second.sentAt)

/-- What every step keeps of the requests, apart from the phases of the calls. -/
structure Asked (settings : Settings) (now : ℕ) (lastAttempt : Option ℕ) (loop : LoopPhase)
    (requests : List Request) : Prop where
  spaced : requests.Pairwise (Spaced settings)
  last : ∀ r ∈ requests, ∃ last, lastAttempt = some last ∧ r.sentAt ≤ last
  past : ∀ last, lastAttempt = some last → last ≤ now
  sleeps : ∀ wake, loop = .sleeping wake →
    ∀ r ∈ requests, r.byLoop = true → r.sentAt + settings.period ≤ wake

variable {now : ℕ} {lastAttempt : Option ℕ} {loop : LoopPhase} {requests : List Request}

theorem Asked.tick (h : Asked settings now lastAttempt loop requests) :
    Asked settings (now + 1) lastAttempt loop requests :=
  ⟨h.spaced, h.last, fun last hlast => (h.past last hlast).trans (Nat.le_succ _), h.sleeps⟩

theorem Asked.send (h : Asked settings now lastAttempt loop requests) {byLoop : Bool} {loop' : LoopPhase}
    (hspaced : ∀ r ∈ requests, Spaced settings r ⟨byLoop, now⟩)
    (hloop : loop' = .fetching ∨ loop' = loop ∧ byLoop = false) :
    Asked settings now (some now) loop' (requests ++ [⟨byLoop, now⟩]) where
  spaced := List.pairwise_append.mpr ⟨h.spaced, List.pairwise_singleton _ _, fun r hr r' hr' => by
    rw [List.mem_singleton.mp hr']
    exact hspaced r hr⟩
  last r hr := by
    refine ⟨now, rfl, ?_⟩
    rcases List.mem_append.mp hr with hr | hr
    · obtain ⟨last, hlast, hle⟩ := h.last r hr
      exact hle.trans (h.past last hlast)
    · rw [List.mem_singleton.mp hr]
  past last hlast := by
    cases hlast
    exact le_rfl
  sleeps wake hwake r hr hbyLoop := by
    rcases hloop with rfl | ⟨rfl, rfl⟩
    · cases hwake
    · rcases List.mem_append.mp hr with hr | hr
      · exact h.sleeps wake hwake r hr hbyLoop
      · rw [List.mem_singleton.mp hr] at hbyLoop
        cases hbyLoop

omit [DecidableEq ι] in
/-- A call only sends where the checker is stale. -/
theorem Asked.spaced_of_stale (h : Asked settings s.now s.lastAttempt loop requests)
    (hstale : s.isStale settings = true) : ∀ r ∈ requests, Spaced settings r ⟨false, s.now⟩ := by
  intro r hr
  refine ⟨fun _ => ?_, nofun⟩
  obtain ⟨last, hlast, hle⟩ := h.last r hr
  have hpast := h.past last hlast
  rw [State.isStale, hlast] at hstale
  have hage : settings.ttl ≤ s.now - last := by simpa using hstale
  dsimp only
  omega

theorem Asked.rest (h : Asked settings now lastAttempt .fetching requests) :
    Asked settings now lastAttempt (.sleeping (now + settings.period)) requests where
  spaced := h.spaced
  last := h.last
  past := h.past
  sleeps wake hwake r hr _ := by
    cases hwake
    obtain ⟨last, hlast, hle⟩ := h.last r hr
    have hpast := h.past last hlast
    omega

/-- The lock: only the call that holds it is asking. -/
structure Exclusive (call : ι → CallPhase) (locked : Bool) : Prop where
  held : ∀ x, call x = .fetching → locked = true
  alone : ∀ x y, call x = .fetching → call y = .fetching → x = y

section Lock
variable {call : ι → CallPhase} {locked : Bool} {x y : ι} {phase : CallPhase}

theorem fetching_of_update (hphase : phase ≠ .fetching) (hy : Function.update call x phase y = .fetching) :
    y ≠ x ∧ call y = .fetching := by
  obtain rfl | hyx := eq_or_ne y x
  · rw [Function.update_self] at hy
    exact absurd hy hphase
  · rw [Function.update_of_ne hyx] at hy
    exact ⟨hyx, hy⟩

theorem Exclusive.leave (h : Exclusive call locked) (x : ι) (hphase : phase ≠ .fetching) :
    Exclusive (Function.update call x phase) locked where
  held y hy := h.held y (fetching_of_update hphase hy).2
  alone y z hy hz := h.alone y z (fetching_of_update hphase hy).2 (fetching_of_update hphase hz).2

/-- The call that holds the lock gives it back. -/
theorem Exclusive.unlock (h : Exclusive call locked) (hx : call x = .fetching) :
    Exclusive (Function.update call x .ended) false := by
  have hnone : ∀ y, Function.update call x .ended y ≠ .fetching := fun y hy => by
    obtain ⟨hyx, hy⟩ := fetching_of_update (show CallPhase.ended ≠ .fetching from nofun) hy
    exact hyx (h.alone y x hy hx)
  exact ⟨fun y hy => absurd hy (hnone y), fun y z hy _ => absurd hy (hnone y)⟩

theorem Exclusive.lock (h : Exclusive call false) (x : ι) : Exclusive (Function.update call x .fetching) true := by
  have honly : ∀ y, Function.update call x .fetching y = .fetching → y = x := fun y hy => by
    by_contra hyx
    rw [Function.update_of_ne hyx] at hy
    cases h.held y hy
  exact ⟨fun _ _ => rfl, fun y z hy hz => (honly y hy).trans (honly z hz).symm⟩

end Lock

structure Invariant (settings : Settings) (s : State ι) : Prop where
  asked : Asked settings s.now s.lastAttempt s.loop s.requests
  exclusive : Exclusive s.call s.locked
  release : ∀ r, s.release = some r → ∀ c ∈ r.tag.toList, isHarmless c = true
  shown : ∀ status ∈ s.shown, status.Harmless

omit [DecidableEq ι] in
theorem Invariant.respond (h : Invariant settings s) : Invariant settings (s.respond settings) where
  asked := h.asked
  exclusive := h.exclusive
  release := h.release
  shown status hstatus := by
    rcases List.mem_append.mp hstatus with hold | hnew
    · exact h.shown status hold
    · exact statusOf_harmless (Option.mem_toList.mp hnew) h.release

omit [DecidableEq ι] in
theorem Invariant.store (h : Invariant settings s) (checkedAt : ℕ) (response : Response) :
    Invariant settings (s.store (accept checkedAt response)) where
  asked := h.asked
  exclusive := h.exclusive
  release r hr := by
    simp only [State.store] at hr
    cases haccept : accept checkedAt response with
    | none =>
      rw [haccept] at hr
      exact h.release r hr
    | some kept =>
      rw [haccept] at hr
      cases kept with
      | none => exact h.release r hr
      | some release =>
        cases hr
        exact accept_harmless haccept
  shown := h.shown

theorem Invariant.leave (h : Invariant settings s) (x : ι) {phase : CallPhase} (hphase : phase ≠ .fetching) :
    Invariant settings (s.goTo x phase) := ⟨h.asked, h.exclusive.leave x hphase, h.release, h.shown⟩

theorem Invariant.unlock (h : Invariant settings s) {x : ι} (hx : s.call x = .fetching) :
    Invariant settings ({ s with locked := false }.goTo x .ended) :=
  ⟨h.asked, h.exclusive.unlock hx, h.release, h.shown⟩

theorem Invariant.fetch (h : Invariant settings s) (x : ι) (hfree : s.locked = false)
    (hstale : s.isStale settings = true) :
    Invariant settings ({ s.send false with locked := true }.goTo x .fetching) := by
  have hexclusive := h.exclusive
  rw [hfree] at hexclusive
  exact ⟨h.asked.send (h.asked.spaced_of_stale hstale) (.inr ⟨rfl, rfl⟩), hexclusive.lock x, h.release, h.shown⟩

theorem Invariant.preserved (h : Invariant settings s) (taken : step settings s a = some t) :
    Invariant settings t := by
  cases a with
  | tick =>
    cases taken
    exact ⟨h.asked.tick, h.exclusive, h.release, h.shown⟩
  | call x =>
    simp only [step] at taken
    split at taken
    · split_ifs at taken with hstale hlocked <;> cases taken
      · exact h.leave x nofun
      · exact h.fetch x (by simpa using hlocked) hstale
      · exact h.respond.leave x nofun
    · cases taken
  | acquire x =>
    simp only [step] at taken
    split at taken
    · split_ifs at taken with hlocked hstale <;> cases taken
      · exact h.fetch x (by simpa using hlocked) hstale
      · exact h.respond.leave x nofun
    · cases taken
  | finish x checkedAt response =>
    simp only [step] at taken
    split at taken
    · rename_i hphase
      have hstored := (h.store checkedAt response).unlock hphase
      split_ifs at taken <;> cases taken
      · exact hstored.respond
      · exact hstored
    · cases taken
  | cancel x =>
    simp only [step] at taken
    split at taken
    · cases taken
      exact h.leave x nofun
    · rename_i hphase
      cases taken
      exact h.unlock hphase
    · cases taken
  | wake =>
    simp only [step] at taken
    split at taken
    · rename_i wake hloop
      split_ifs at taken with hwake
      cases taken
      have hspaced : ∀ r ∈ s.requests, Spaced settings r ⟨true, s.now⟩ := fun r hr =>
        ⟨nofun, fun hbyLoop _ => (h.asked.sleeps wake hloop r hr hbyLoop).trans hwake⟩
      exact ⟨h.asked.send hspaced (.inl rfl), h.exclusive, h.release, h.shown⟩
    · cases taken
  | finishLoop checkedAt response =>
    simp only [step] at taken
    split at taken
    · rename_i hloop
      cases taken
      have hstored := h.store checkedAt response
      have hasked := hstored.asked
      rw [show (s.store (accept checkedAt response)).loop = .fetching from hloop] at hasked
      exact ⟨hasked.rest, hstored.exclusive, hstored.release, hstored.shown⟩
    · cases taken
  | stop =>
    cases taken
    exact ⟨⟨h.asked.spaced, h.asked.last, h.asked.past, nofun⟩, h.exclusive, h.release, h.shown⟩

theorem Invariant.of_reachable (h : (machine ι settings).Reachable Machine.free s) : Invariant settings s := by
  refine h.invariant (fun s hs => ?_) fun s a t hs _ taken => hs.preserved taken
  obtain ⟨hlast, hrelease, -, hcall, hloop, hrequests, hshown⟩ := hs
  refine ⟨⟨?_, ?_, ?_, ?_⟩, ⟨?_, ?_⟩, ?_, ?_⟩
  · rw [hrequests]
    exact .nil
  · rw [hrequests]
    exact nofun
  · rw [hlast]
    exact nofun
  · rw [hrequests]
    exact fun _ _ => nofun
  · rw [hcall]
    exact nofun
  · rw [hcall]
    exact nofun
  · rw [hrelease]
    exact nofun
  · rw [hshown]
    exact nofun

/-- Requests that are that far apart do not both fall into a span. -/
theorem length_le_one {kept : List Request} {d start : ℕ}
    (h : kept.Pairwise fun first second => first.sentAt + d ≤ second.sentAt)
    (span : ∀ r ∈ kept, start ≤ r.sentAt ∧ r.sentAt < start + d) : kept.length ≤ 1 := by
  match kept with
  | [] => exact Nat.zero_le _
  | [_] => exact le_rfl
  | first :: second :: _ =>
    have hapart := List.rel_of_pairwise_cons h List.mem_cons_self
    have hfirst := (span first List.mem_cons_self).1
    have hsecond := (span second (List.mem_cons_of_mem _ List.mem_cons_self)).2
    omega

def Request.isWithin (start length : ℕ) (r : Request) : Bool := start ≤ r.sentAt && r.sentAt < start + length

omit [DecidableEq ι] in
theorem requests_within (h : s.requests.Pairwise (Spaced settings)) (start : ℕ) :
    (s.requests.filter (Request.isWithin start settings.ttl)).length ≤ 2 := by
  have hperiod : settings.ttl ≤ settings.period := Nat.mul_le_mul_right _ (le_max_right _ _)
  have hkept := h.filter (Request.isWithin start settings.ttl)
  have hspan : ∀ r ∈ s.requests.filter (Request.isWithin start settings.ttl),
      start ≤ r.sentAt ∧ r.sentAt < start + settings.ttl := fun r hr => by
    simpa [Request.isWithin] using (List.mem_filter.mp hr).2
  generalize s.requests.filter (Request.isWithin start settings.ttl) = within at hkept hspan ⊢
  have hcalls : (within.filter fun r => !r.byLoop).length ≤ 1 := by
    refine length_le_one (d := settings.ttl) ?_ fun r hr => hspan r (List.mem_of_mem_filter hr)
    refine (hkept.filter _).imp_of_mem fun {first second} _ hsecond hspaced => ?_
    exact hspaced.1 (by simpa using (List.mem_filter.mp hsecond).2)
  have hloop : (within.filter Request.byLoop).length ≤ 1 := by
    refine length_le_one (d := settings.ttl) ?_ fun r hr => hspan r (List.mem_of_mem_filter hr)
    refine (hkept.filter _).imp_of_mem fun {first second} hfirst hsecond hspaced => ?_
    have hapart := hspaced.2 (List.mem_filter.mp hfirst).2 (List.mem_filter.mp hsecond).2
    omega
  have hsplit := List.length_eq_length_filter_add (l := within) Request.byLoop
  omega

/-- However status calls, their cancellations and the background loop interleave: two requests at most in any
span of the interval, one status call at most that is asking, and only commands with harmless versions. -/
theorem updates_bounded (h : (machine ι settings).Reachable Machine.free s) :
    (∀ start, (s.requests.filter (Request.isWithin start settings.ttl)).length ≤ 2) ∧
    (∀ x y, s.call x = .fetching → s.call y = .fetching → x = y) ∧ ∀ status ∈ s.shown, status.Harmless := by
  have hinv := Invariant.of_reachable h
  exact ⟨requests_within hinv.asked.spaced, hinv.exclusive.alone, hinv.shown⟩

def justStarted : State Bool :=
  ⟨0, none, none, false, fun _ => .absent, .sleeping (0 + 30 * second), [], []⟩

/-- Two calls at once: the second one is not stale any more, and is answered without a release. -/
def twoCalls : List (Action Bool) :=
  [.call true, .call false, .finish true 1700000000 (.answered 200 (some ⟨false, false, "v1.7.0", "", "", none⟩))]

theorem updates_bounded_two_calls : ∃ s : State Bool, s.requests.length = 1 ∧ s.shown.length = 2 ∧
    (∀ start, (s.requests.filter (Request.isWithin start (Settings.mk "1.6.0" 21600).ttl)).length ≤ 2) ∧
    (∀ x y, s.call x = .fetching → s.call y = .fetching → x = y) ∧ ∀ status ∈ s.shown, status.Harmless := by
  have hrun : ((machine Bool ⟨"1.6.0", 21600⟩).exec justStarted twoCalls).any
      (fun s => s.requests.length = 1 && s.shown.length = 2) = true := by decide +kernel
  rw [Option.any_eq_true] at hrun
  obtain ⟨s, hexec, hcheck⟩ := hrun
  simp only [Bool.and_eq_true, decide_eq_true_eq] at hcheck
  have hstart : (machine Bool ⟨"1.6.0", 21600⟩).start justStarted := ⟨rfl, rfl, rfl, rfl, rfl, rfl, rfl⟩
  exact ⟨s, hcheck.1, hcheck.2, updates_bounded (Machine.reachable_of_exec twoCalls hstart hexec)⟩

end UniversityHelper.UpdateChecker
