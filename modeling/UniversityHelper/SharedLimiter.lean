import UniversityHelper.RateLimiter
import UniversityHelper.RecordedRun
import UniversityHelper.Simulation

/-! `RateLimiter` with its database: any number of processes with a cache each count the requests of a
client in one table of PostgreSQL, and fall back on their caches where it does not answer. -/
namespace UniversityHelper.SharedLimiter
open RateLimiter (checkInMemory checkRateLimit maybeCleanup)

def dbCleanupInterval : ℕ := 500

/-- `_current_window_start` divides by the window, in seconds. -/
structure Limits where
  requests : ℕ
  window : ℕ
  window_pos : 0 < window

/-- The clock counts microseconds. -/
def Limits.settings (limits : Limits) : RateLimiter.Settings ℤ := ⟨limits.requests, limits.window * 10 ^ 6⟩

def currentWindowStart (limits : Limits) (now : ℤ) : ℤ :=
  now.tdiv (10 ^ 6) / limits.window * limits.window

/-- `rate_limit_counters`, keyed by client and window. -/
abbrev Counters := OrderedDict (String × ℤ) ℕ

/-- How a call of `_check_via_db` ends; after `unconfirmed` the transaction is committed all the same. -/
inductive Outcome
  | answered
  | failed
  | unconfirmed
  deriving DecidableEq

/-- Where a call of `check_rate_limit` stands: before the clock is read, before the database is asked, before
the look into the cache. -/
inductive Phase (P : Type*)
  | idle
  | cleaned (p : P) (client : String)
  | timed (p : P) (client : String) (now : ℤ)
  | unanswered (p : P) (client : String) (now : ℤ)

structure State (P C : Type*) where
  limiter : P → RateLimiter.State ℤ
  counters : Counters
  call : C → Phase P

inductive Action (P C : Type*)
  | check (c : C) (p : P) (client : String) (now : ℤ)
  | readClock (c : C) (now : ℤ)
  | database (c : C) (outcome : Outcome)
  | memory (c : C) (opened : ℤ)

variable {P C : Type*} [DecidableEq P] [DecidableEq C]

/-- The transaction of `_check_via_db`, and the count that it returns. -/
def countRequest (limits : Limits) (sweeps : Bool) (client : String) (now : ℤ) (counters : Counters) :
    Counters × ℕ :=
  let windowStart := currentWindowStart limits now
  let count := (counters.get (client, windowStart)).getD 0 + 1
  let counters := counters.set (client, windowStart) count
  (if sweeps then counters.filter fun row => ¬ row.1.2 < windowStart - 2 * limits.window else counters, count)

def State.goto (s : State P C) (c : C) (next : Phase P) : State P C :=
  { s with call := Function.update s.call c next }

def sweeps (s : State P C) (p : P) : Bool := (s.limiter p).requestCount % dbCleanupInterval = 0

def step (limits : Limits) (s : State P C) : Action P C → Option (State P C)
  | .check c p client now =>
    match s.call c with
    | .idle =>
      some { s.goto c (.cleaned p client) with
        limiter := Function.update s.limiter p (maybeCleanup limits.settings (s.limiter p) now) }
    | _ => none
  | .readClock c now =>
    match s.call c with
    | .cleaned p client => some (s.goto c (.timed p client now))
    | _ => none
  | .database c outcome =>
    match s.call c with
    | .timed p client now =>
      let counters := (countRequest limits (sweeps s p) client now s.counters).1
      match outcome with
      | .answered => some { s.goto c .idle with counters := counters }
      | .failed => some (s.goto c (.unanswered p client now))
      | .unconfirmed => some { s.goto c (.unanswered p client now) with counters := counters }
    | _ => none
  | .memory c opened =>
    match s.call c with
    | .unanswered p client now =>
      let cache := (checkInMemory limits.settings (s.limiter p).cache ⟨client, now, now, opened⟩).1
      some { s.goto c .idle with
        limiter := Function.update s.limiter p { s.limiter p with cache := cache } }
    | _ => none

def machine (P C : Type*) [DecidableEq P] [DecidableEq C] (limits : Limits) :
    Machine (State P C) (Action P C) where
  start s := (∀ p, s.limiter p = RateLimiter.initial) ∧ s.counters = .empty ∧ ∀ c, s.call c = .idle
  step := step limits

/-! ### Decisions -/

/-- What the table was used for: `counted` is a request with what `_check_via_db` answered, if it did. -/
inductive Event
  | counted (client : String) (now : ℤ) (allowed : Option Bool)
  | swept (before : ℤ)

/-- What a step does to the table. -/
def note (limits : Limits) (s : State P C) (a : Action P C) (history : List Event) : List Event :=
  match a with
  | .database c outcome =>
    match s.call c with
    | .timed p client now =>
      let count := (countRequest limits (sweeps s p) client now s.counters).2
      let swept := if sweeps s p then [Event.swept (currentWindowStart limits now - 2 * limits.window)] else []
      match outcome with
      | .answered => history ++ .counted client now (some (decide (count ≤ limits.requests))) :: swept
      | .failed => history
      | .unconfirmed => history ++ .counted client now none :: swept
    | _ => history
  | _ => history

def recorded (P C : Type*) [DecidableEq P] [DecidableEq C] (limits : Limits) :
    Machine (State P C × List Event) (Action P C) := (machine P C limits).recording [] (note limits)

/-- No row of the window has been swept. -/
def Live (history : List Event) (windowStart : ℤ) : Prop :=
  ∀ before, Event.swept before ∈ history → before ≤ windowStart

/-- No request is counted in a window whose rows have been swept: none takes two windows to get from the
clock to the database, and no clock is two windows behind another. -/
def Prompt (limits : Limits) (s : State P C × List Event) : Action P C → Prop
  | .database c _ => ∀ p client now, s.1.call c = .timed p client now →
      Live s.2 (currentWindowStart limits now)
  | _ => True

def Event.isCounted (limits : Limits) (client : String) (windowStart : ℤ) : Event → Bool
  | .counted other now _ => other = client ∧ currentWindowStart limits now = windowStart
  | .swept _ => false

def Event.isAllowed : Event → Bool
  | .counted _ _ allowed => allowed = some true
  | .swept _ => false

def Event.isWithin (client : String) (first last : ℤ) : Event → Bool
  | .counted other now _ => other = client ∧ first ≤ now ∧ now ≤ last
  | .swept _ => false

/-- A request is allowed where fewer than the limit were counted in its window before it. -/
def Fair (limits : Limits) (before : List Event) : Event → Prop
  | .counted client now (some allowed) => allowed = true ↔
      before.countP (Event.isCounted limits client (currentWindowStart limits now)) < limits.requests
  | _ => True

/-- Every event of a history stands so to those before it. -/
def Throughout (p : List Event → Event → Prop) (history : List Event) : Prop :=
  ∀ before e after, history = before ++ e :: after → p before e

theorem Throughout.concat {p : List Event → Event → Prop} {history : List Event} {e : Event}
    (h : Throughout p history) (he : p history e) : Throughout p (history ++ [e]) := by
  intro before x after hsplit
  rcases List.eq_nil_or_concat after with rfl | ⟨after, last, rfl⟩
  · obtain ⟨rfl, hx⟩ := List.append_inj' hsplit rfl
    obtain rfl := List.singleton_inj.mp hx
    exact he
  · rw [List.concat_eq_append, ← List.cons_append, ← List.append_assoc] at hsplit
    obtain ⟨hinit, -⟩ := List.append_inj' hsplit rfl
    exact h before x after hinit

/-- The counters are right about the windows that have not been swept. -/
structure Ledger (limits : Limits) (counters : Counters) (history : List Event) : Prop where
  counts : ∀ client windowStart, Live history windowStart →
    (counters.get (client, windowStart)).getD 0 =
      history.countP (Event.isCounted limits client windowStart)
  fair : Throughout (Fair limits) history

variable {limits : Limits} {history : List Event} {counters : Counters}

theorem get_countRequest {sweeps : Bool} {client other : String} {now windowStart : ℤ}
    (kept : sweeps = true → currentWindowStart limits now - 2 * limits.window ≤ windowStart) :
    ((countRequest limits sweeps client now counters).1.get (other, windowStart)).getD 0 =
      (counters.get (other, windowStart)).getD 0 +
        if other = client ∧ windowStart = currentWindowStart limits now then 1 else 0 := by
  have hset : ((counters.set (client, currentWindowStart limits now)
      ((counters.get (client, currentWindowStart limits now)).getD 0 + 1)).get (other, windowStart)).getD 0 =
      (counters.get (other, windowStart)).getD 0 +
        if other = client ∧ windowStart = currentWindowStart limits now then 1 else 0 := by
    rw [OrderedDict.get_set]
    by_cases hkey : other = client ∧ windowStart = currentWindowStart limits now
    · obtain ⟨rfl, rfl⟩ := hkey
      simp
    · rw [if_neg hkey, if_neg fun h => hkey (Prod.mk.inj h)]
      rfl
  rw [countRequest]
  cases sweeps with
  | false => exact hset
  | true =>
    have hbound := kept rfl
    dsimp only
    rw [if_pos rfl, OrderedDict.get_filter, ← hset]
    congr 1
    have hkeep : (fun count : ℕ => decide (¬ ((other, windowStart), count).1.2 <
        currentWindowStart limits now - 2 * limits.window)) = fun _ => true := by
      funext count
      simpa using hbound
    rw [hkeep]
    generalize (counters.set (client, currentWindowStart limits now) _).get (other, windowStart) = row
    cases row <;> rfl

theorem Live.of_append {added : List Event} {windowStart : ℤ} (h : Live (history ++ added) windowStart) :
    Live history windowStart := fun before hbefore => h before (List.mem_append_left _ hbefore)

/-- A request that is counted in a live window. -/
theorem Ledger.count {sweeps : Bool} {client : String} {now : ℤ} {allowed : Option Bool}
    (h : Ledger limits counters history) (live : Live history (currentWindowStart limits now))
    (answer : ∀ b, allowed = some b →
      b = decide ((countRequest limits sweeps client now counters).2 ≤ limits.requests)) :
    Ledger limits (countRequest limits sweeps client now counters).1
      (history ++ .counted client now allowed ::
        if sweeps then [.swept (currentWindowStart limits now - 2 * limits.window)] else []) := by
  have hsplit : history ++ Event.counted client now allowed ::
      (if sweeps then [.swept (currentWindowStart limits now - 2 * limits.window)] else []) =
      (history ++ [.counted client now allowed]) ++
        if sweeps then [.swept (currentWindowStart limits now - 2 * limits.window)] else [] := by
    rw [List.append_assoc, List.singleton_append]
  have hfair : Fair limits history (.counted client now allowed) := by
    cases allowed with
    | none => trivial
    | some b =>
      rw [Fair, answer b rfl, decide_eq_true_iff, ← h.counts client _ live]
      exact Nat.succ_le_iff
  rw [hsplit]
  refine ⟨fun other windowStart hlive => ?_, ?_⟩
  · have hkept : sweeps = true → currentWindowStart limits now - 2 * limits.window ≤ windowStart := by
      rintro rfl
      exact hlive _ (List.mem_append_right _ (List.mem_singleton_self _))
    have hswept : (if sweeps = true then [Event.swept (currentWindowStart limits now - 2 * limits.window)]
        else []).countP (Event.isCounted limits other windowStart) = 0 := by
      cases sweeps <;> rfl
    rw [get_countRequest hkept, h.counts other windowStart hlive.of_append.of_append, List.countP_append,
      hswept, List.countP_append, List.countP_singleton, add_zero]
    congr 1
    simp only [Event.isCounted, decide_eq_true_eq]
    exact if_congr ⟨fun h => ⟨h.1.symm, h.2.symm⟩, fun h => ⟨h.1.symm, h.2.symm⟩⟩ rfl rfl
  · have hcounted := h.fair.concat hfair
    cases sweeps with
    | false => rwa [if_neg Bool.false_ne_true, List.append_nil]
    | true => exact hcounted.concat trivial

theorem ledger_of_reachable {σ : State P C × List Event}
    (h : (recorded P C limits).Reachable (Prompt limits) σ) : Ledger limits σ.1.counters σ.2 := by
  refine h.invariant (I := fun σ => Ledger limits σ.1.counters σ.2) ?_ ?_
  · rintro ⟨s, history⟩ ⟨⟨-, hcounters, -⟩, rfl⟩
    refine ⟨fun client windowStart _ => ?_, fun before e after hsplit => ?_⟩
    · rw [hcounters]
      rfl
    · cases before <;> cases hsplit
  · rintro ⟨s, history⟩ a ⟨t, history'⟩ hs allowed taken
    obtain ⟨taken, rfl⟩ := Machine.step_recording.mp taken
    dsimp only at hs taken ⊢
    cases a with
    | check c p client now =>
      simp only [machine, step] at taken
      split at taken
      · cases taken
        exact hs
      · cases taken
    | readClock c now =>
      simp only [machine, step] at taken
      split at taken
      · cases taken
        exact hs
      · cases taken
    | database c outcome =>
      cases hphase : s.call c with
      | timed p client now =>
        have hlive := allowed p client now hphase
        simp only [machine, step, note, hphase] at taken ⊢
        cases outcome with
        | answered =>
          cases taken
          exact hs.count hlive fun b hb => (Option.some_inj.mp hb).symm
        | failed =>
          cases taken
          exact hs
        | unconfirmed =>
          cases taken
          exact hs.count hlive nofun
      | _ => simp [machine, step, hphase] at taken
    | memory c opened =>
      simp only [machine, step] at taken
      split at taken
      · cases taken
        exact hs
      · cases taken

/-! ### The limit -/

/-- Where only the first `n` counted events are allowed, no more than `n` are. -/
theorem countP_le_of_throughout (counted : Event → Bool) {chosen : Event → Bool} {n : ℕ}
    (h : Throughout (fun before e => chosen e = true → counted e = true ∧ before.countP counted < n) history) :
    history.countP chosen ≤ n := by
  induction history using List.reverseRecOn with
  | nil => exact Nat.zero_le _
  | append_singleton history e ih =>
    have hinit : Throughout (fun before e => chosen e = true → counted e = true ∧ before.countP counted < n)
        history := by
      intro before x after hsplit
      exact h before x (after ++ [e]) (by rw [hsplit, List.append_assoc, List.cons_append])
    rw [List.countP_append, List.countP_singleton]
    cases hchosen : chosen e with
    | false => simpa using ih hinit
    | true =>
      obtain ⟨-, hless⟩ := h history e [] rfl hchosen
      have hle : history.countP chosen ≤ history.countP counted := by
        refine List.countP_mono_left fun x hx hxchosen => ?_
        obtain ⟨before, after, hsplit⟩ := List.append_of_mem hx
        exact (hinit before x after hsplit hxchosen).1
      simp only [if_true]
      omega

theorem allowed_le (h : Throughout (Fair limits) history) (client : String) (windowStart : ℤ) :
    history.countP (fun e => e.isAllowed && e.isCounted limits client windowStart) ≤ limits.requests := by
  refine countP_le_of_throughout (Event.isCounted limits client windowStart) ?_
  intro before e after hsplit hchosen
  rw [Bool.and_eq_true] at hchosen
  cases e with
  | swept bound => cases hchosen.1
  | counted other now allowed =>
    have hfair := h before _ after hsplit
    obtain ⟨hallowed, hcounted⟩ := hchosen
    obtain rfl : allowed = some true := by simpa [Event.isAllowed] using hallowed
    refine ⟨hcounted, ?_⟩
    simp only [Event.isCounted, decide_eq_true_eq] at hcounted
    rw [← hcounted.1, ← hcounted.2]
    exact hfair.mp rfl

theorem tdiv_cases (a : ℤ) : a.tdiv (10 ^ 6) = if 0 ≤ a then a / 10 ^ 6 else -(-a / 10 ^ 6) := by
  rcases le_or_gt 0 a with h | h
  · rw [if_pos h, Int.tdiv_eq_ediv_of_nonneg h]
  · have hneg : (-a).tdiv (10 ^ 6) = -a / 10 ^ 6 := Int.tdiv_eq_ediv_of_nonneg (by omega)
    rw [if_neg (by omega), ← hneg, Int.neg_tdiv, neg_neg]

/-- A time within a window's length of another one lies in the same window or in the next. -/
theorem windowStart_within {first now : ℤ} (hfirst : first ≤ now)
    (hlast : now ≤ first + limits.window * 10 ^ 6) :
    currentWindowStart limits now = currentWindowStart limits first ∨
      currentWindowStart limits now = currentWindowStart limits first + limits.window := by
  have hpos : (0 : ℤ) < limits.window := by exact_mod_cast limits.window_pos
  have hle : first.tdiv (10 ^ 6) ≤ now.tdiv (10 ^ 6) := by
    rw [tdiv_cases, tdiv_cases]
    split_ifs <;> omega
  have hnext : now.tdiv (10 ^ 6) ≤ first.tdiv (10 ^ 6) + limits.window := by
    rw [tdiv_cases, tdiv_cases]
    split_ifs <;> omega
  have hlow := Int.ediv_le_ediv hpos hle
  have hhigh := Int.ediv_le_ediv hpos hnext
  rw [Int.add_ediv_of_dvd_right (dvd_refl _), Int.ediv_self hpos.ne'] at hhigh
  rw [currentWindowStart, currentWindowStart]
  rcases hlow.eq_or_lt with heq | hlt
  · exact .inl (by rw [heq])
  · have hone : now.tdiv (10 ^ 6) / limits.window = first.tdiv (10 ^ 6) / limits.window + 1 := by omega
    exact .inr (by rw [hone, add_mul, one_mul])

theorem countP_le_add {p q r : Event → Bool} (h : ∀ e, p e = true → q e = true ∨ r e = true) :
    history.countP p ≤ history.countP q + history.countP r := by
  induction history with
  | nil => exact Nat.zero_le _
  | cons e history ih =>
    have hhead : (if p e = true then 1 else 0) ≤
        (if q e = true then 1 else 0) + if r e = true then 1 else 0 := by
      by_cases hp : p e = true
      · rcases h e hp with hq | hr
        · rw [if_pos hp, if_pos hq]
          exact Nat.le_add_right _ _
        · rw [if_pos hp, if_pos hr]
          exact Nat.le_add_left _ _
      · rw [if_neg hp]
        exact Nat.zero_le _
    rw [List.countP_cons, List.countP_cons, List.countP_cons]
    omega

theorem counted_of_within {client : String} {first : ℤ} {e : Event}
    (h : e.isWithin client first (first + limits.window * 10 ^ 6) = true) :
    e.isCounted limits client (currentWindowStart limits first) = true ∨
      e.isCounted limits client (currentWindowStart limits first + limits.window) = true := by
  cases e with
  | swept bound => cases h
  | counted other now allowed =>
    simp only [Event.isWithin, Event.isCounted, decide_eq_true_eq] at h ⊢
    obtain ⟨rfl, hfirst, hlast⟩ := h
    exact (windowStart_within hfirst hlast).imp (fun h => ⟨rfl, h⟩) fun h => ⟨rfl, h⟩

theorem allowed_within_le (h : Throughout (Fair limits) history) (client : String) (first : ℤ) :
    history.countP (fun e => e.isAllowed &&
      e.isWithin client first (first + limits.window * 10 ^ 6)) ≤ 2 * limits.requests := by
  have hsame := allowed_le h client (currentWindowStart limits first)
  have hnext := allowed_le h client (currentWindowStart limits first + limits.window)
  have hboth : _ ≤ history.countP _ + history.countP _ := countP_le_add
    (p := fun e => e.isAllowed && e.isWithin client first (first + limits.window * 10 ^ 6))
    (q := fun e => e.isAllowed && e.isCounted limits client (currentWindowStart limits first))
    (r := fun e => e.isAllowed && e.isCounted limits client (currentWindowStart limits first + limits.window))
    fun e he => by
      rw [Bool.and_eq_true] at he
      exact (counted_of_within he.2).imp (fun h => by rw [he.1, h]; rfl) fun h => by rw [he.1, h]; rfl
  omega

/-- All processes together keep the limit that each of them is set: the database allows the first requests of
a client in each window and no other, whoever asks, and no more than twice as many in any span of its length. -/
theorem shared_limit {σ : State P C × List Event}
    (h : (recorded P C limits).Reachable (Prompt limits) σ) :
    Throughout (Fair limits) σ.2 ∧
    (∀ client windowStart, σ.2.countP
      (fun e => e.isAllowed && e.isCounted limits client windowStart) ≤ limits.requests) ∧
    ∀ client first, σ.2.countP (fun e => e.isAllowed &&
      e.isWithin client first (first + limits.window * 10 ^ 6)) ≤ 2 * limits.requests := by
  have hfair := (ledger_of_reachable h).fair
  exact ⟨hfair, allowed_le hfair, allowed_within_le hfair⟩

/-- Where the database does not answer, a process goes by its own cache alone. -/
theorem outage_call {s : State P C} {c : C} (idle : s.call c = .idle) (p : P) (call : RateLimiter.Call ℤ) :
    (machine P C limits).exec s [.check c p call.client call.cleaned, .readClock c call.now,
      .database c .failed, .memory c call.opened] =
      some { s with
        limiter := Function.update s.limiter p (checkRateLimit limits.settings (s.limiter p) call).1 } := by
  have hstay : Function.update s.call c .idle = s.call := by
    rw [← idle, Function.update_eq_self]
  simp [machine, Machine.exec, step, idle, State.goto, checkRateLimit, checkInMemory, RateLimiter.entryOf, hstay]

/-! ### Two processes -/

def oneRequest : Limits := ⟨1, 60, Nat.succ_pos 59⟩

def check (s : State Bool Unit × List Event) : Action Bool Unit → Bool
  | .database c _ =>
    match s.1.call c with
    | .timed _ _ now => s.2.all fun e =>
        match e with
        | .swept before => before ≤ currentWindowStart oneRequest now
        | .counted _ _ _ => true
    | _ => true
  | _ => true

theorem check_sound (s : State Bool Unit × List Event) (a : Action Bool Unit) (h : check s a = true) :
    Prompt oneRequest s a := by
  cases a with
  | database c outcome =>
    intro p client now hphase before hbefore
    simp only [check, hphase] at h
    simpa using List.all_eq_true.mp h _ hbefore
  | _ => trivial

def newState : State Bool Unit := ⟨fun _ => RateLimiter.initial, .empty, fun _ => .idle⟩

/-- One client asks one process and then the other. -/
def askBoth : List (Action Bool Unit) :=
  [.check () false "8.8.8.8" 0, .readClock () 1, .database () .answered,
    .check () true "8.8.8.8" 2, .readClock () 3, .database () .answered]

theorem exec_askBoth : (((recorded Bool Unit oneRequest).checked check).exec (newState, []) askBoth).any
    (fun s => s.2.countP Event.isAllowed = 1 && s.2.length = 2) = true := by
  decide +kernel

theorem shared_limit_both_processes : ∃ σ : State Bool Unit × List Event, σ.2.length = 2 ∧
    σ.2.countP (fun e => e.isAllowed && e.isCounted oneRequest "8.8.8.8" 0) ≤ 1 := by
  have hexec := exec_askBoth
  rw [Option.any_eq_true] at hexec
  obtain ⟨σ, hexec, hthere⟩ := hexec
  rw [Bool.and_eq_true, decide_eq_true_iff, decide_eq_true_iff] at hthere
  have hstart : (recorded Bool Unit oneRequest).start (newState, []) := ⟨⟨fun _ => rfl, rfl, fun _ => rfl⟩, rfl⟩
  have hreach := Machine.reachable_of_exec_checked askBoth check_sound hstart hexec
  exact ⟨σ, hthere.2, (shared_limit hreach).2.1 "8.8.8.8" 0⟩

end UniversityHelper.SharedLimiter
