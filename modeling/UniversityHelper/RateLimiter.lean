import UniversityHelper.OrderedDict

/-! The in-memory path of `RateLimiter`: a window of a client is an entry of the cache, and bounds
the admissions of the client until it ends or is evicted. -/
namespace UniversityHelper.RateLimiter

def maxCacheSize : ℕ := 10000
def cleanupInterval : ℕ := 100

structure Settings (K : Type*) where
  requests : ℕ
  window : K

/-- The number of requests in each client's window, and the start of the window. -/
abbrev Cache (K : Type*) := OrderedDict String (ℕ × K)

structure State (K : Type*) where
  cache : Cache K
  requestCount : ℕ

/-- A call with the times it reads: in the clean-up, on its own, and for a new entry. -/
structure Call (K : Type*) where
  client : String
  cleaned : K
  now : K
  opened : K

variable {K : Type*} [AddCommGroup K] [LinearOrder K]

def cleanupExpired (settings : Settings K) (cache : Cache K) (now : K) : Cache K :=
  cache.filter fun entry => ¬ settings.window < now - entry.2.2

/-- `sorted(self._cache, key=lambda k: self._cache[k][1])`. -/
def sortedKeys (cache : Cache K) : List String :=
  (cache.entries.insertionSort fun a b => a.2.2 ≤ b.2.2).map Prod.fst

def evictOldest (cache : Cache K) : Cache K :=
  if cache.size ≤ maxCacheSize then cache
  else
    let evicted := (sortedKeys cache).take (cache.size - maxCacheSize)
    cache.filter fun entry => entry.1 ∉ evicted

def maybeCleanup (settings : Settings K) (s : State K) (now : K) : State K :=
  let requestCount := s.requestCount + 1
  if requestCount % cleanupInterval = 0 then
    ⟨evictOldest (cleanupExpired settings s.cache now), requestCount⟩
  else ⟨s.cache, requestCount⟩

/-- The entry of the client, which the dictionary makes where there is none. -/
def entryOf (cache : Cache K) (call : Call K) : ℕ × K := (cache.get call.client).getD (0, call.opened)

def checkInMemory (settings : Settings K) (cache : Cache K) (call : Call K) : Cache K × Bool :=
  let (count, startTime) := entryOf cache call
  if settings.window < call.now - startTime then (cache.set call.client (1, call.now), true)
  else if settings.requests ≤ count then (cache.set call.client (count, startTime), false)
  else (cache.set call.client (count + 1, startTime), true)

/-- `check_rate_limit`, where the database is not available; whether the request is admitted. -/
def checkRateLimit (settings : Settings K) (s : State K) (call : Call K) : State K × Bool :=
  let s := maybeCleanup settings s call.cleaned
  let (cache, allowed) := checkInMemory settings s.cache call
  (⟨cache, s.requestCount⟩, allowed)

def initial : State K := ⟨.empty, 0⟩

section Run
variable (settings : Settings K)

def after (s : State K) (calls : List (Call K)) : State K :=
  calls.foldl (fun s call => (checkRateLimit settings s call).1) s

/-- The calls of the client that are admitted. -/
def admissions (client : String) : State K → List (Call K) → ℕ
  | _, [] => 0
  | s, call :: calls =>
    (if call.client = client ∧ (checkRateLimit settings s call).2 = true then 1 else 0) +
      admissions client (checkRateLimit settings s call).1 calls

/-- The call begins a window of its client. -/
def Opens (s : State K) (call : Call K) : Prop :=
  let cache := (maybeCleanup settings s call.cleaned).cache
  ∀ entry, cache.get call.client = some entry → settings.window < call.now - entry.2

/-- The clean-up of the call evicts an entry of the client that has not expired. -/
def Evicts (client : String) (s : State K) (call : Call K) : Prop :=
  ((cleanupExpired settings s.cache call.cleaned).get client).isSome = true ∧
    (maybeCleanup settings s call.cleaned).cache.get client = none

/-- No call evicts the client. -/
def Spared (client : String) : State K → List (Call K) → Prop
  | _, [] => True
  | s, call :: calls =>
    ¬ Evicts settings client s call ∧ Spared client (checkRateLimit settings s call).1 calls

end Run

/-- The readings of the clock, from call to call, do not go back. -/
def Timely : List (Call K) → Prop
  | [] => True
  | call :: calls => call.cleaned ≤ call.now ∧ call.now ≤ call.opened ∧
      (∀ later ∈ calls, call.opened ≤ later.cleaned) ∧ Timely calls

section Window
variable [IsOrderedAddMonoid K] {settings : Settings K} {s : State K} {call : Call K}

/-- A window of the client that began no earlier than `first`, with its admissions. -/
def Holds (client : String) (first : K) (admitted : ℕ) (cache : Cache K) : Prop :=
  ∃ start, cache.get client = some (admitted, start) ∧ first ≤ start

omit [IsOrderedAddMonoid K] in
theorem checkInMemory_other {cache : Cache K} {client : String} (h : client ≠ call.client) :
    (checkInMemory settings cache call).1.get client = cache.get client := by
  rw [checkInMemory]
  dsimp only
  split_ifs <;> rw [OrderedDict.get_set, if_neg h]

/-- The clean-up keeps a window that has not ended unless it evicts it. -/
theorem maybeCleanup_keeps {client : String} {entry : ℕ × K}
    (held : s.cache.get client = some entry) (live : ¬ settings.window < call.cleaned - entry.2)
    (spared : ¬ Evicts settings client s call) :
    (maybeCleanup settings s call.cleaned).cache.get client = some entry := by
  have hkept : (cleanupExpired settings s.cache call.cleaned).get client = some entry := by
    rw [cleanupExpired, OrderedDict.get_filter, held]
    simpa using live
  rw [Evicts, hkept] at spared
  have hsome : (maybeCleanup settings s call.cleaned).cache.get client ≠ none := fun h =>
    spared ⟨rfl, h⟩
  rw [maybeCleanup] at hsome ⊢
  split_ifs at hsome ⊢
  · rw [evictOldest] at hsome ⊢
    split_ifs at hsome ⊢
    · exact hkept
    · rw [OrderedDict.get_filter, hkept] at hsome ⊢
      rw [Option.filter_some] at hsome ⊢
      split_ifs at hsome ⊢
      · rfl
      · exact absurd rfl hsome
  · exact held

omit [IsOrderedAddMonoid K] in
/-- The first call of a window is admitted, and the window begins no earlier. -/
theorem opens_holds (limit : 0 < settings.requests) (timely : call.now ≤ call.opened)
    (opens : Opens settings s call) :
    (checkRateLimit settings s call).2 = true ∧
      Holds call.client call.now 1 (checkRateLimit settings s call).1.cache := by
  cases hget : (maybeCleanup settings s call.cleaned).cache.get call.client with
  | none =>
    simp only [checkRateLimit, checkInMemory, entryOf, hget, Option.getD_none, Holds]
    split_ifs with hexpired hfull
    · exact ⟨rfl, call.now, by simp, le_rfl⟩
    · omega
    · exact ⟨rfl, call.opened, by simp, timely⟩
  | some entry =>
    simp only [checkRateLimit, checkInMemory, entryOf, hget, Option.getD_some, Holds,
      if_pos (opens entry hget)]
    exact ⟨trivial, call.now, by simp, le_rfl⟩

/-- A later call, of any client, while the window lasts. -/
theorem holds_step {client : String} {first : K} {admitted : ℕ}
    (h : Holds client first admitted s.cache) (bound : admitted ≤ settings.requests)
    (within : call.now ≤ first + settings.window) (timely : call.cleaned ≤ call.now)
    (spared : ¬ Evicts settings client s call) :
    ∃ next ≤ settings.requests, Holds client first next (checkRateLimit settings s call).1.cache ∧
      next = admitted +
        if call.client = client ∧ (checkRateLimit settings s call).2 = true then 1 else 0 := by
  obtain ⟨start, held, hstart⟩ := h
  have hlast : first + settings.window ≤ start + settings.window := add_le_add_left hstart _
  have hnow : ¬ settings.window < call.now - start := by
    rw [not_lt, sub_le_iff_le_add']
    exact within.trans hlast
  have hcleaned : ¬ settings.window < call.cleaned - start := by
    rw [not_lt, sub_le_iff_le_add']
    exact (timely.trans within).trans hlast
  have hkept := maybeCleanup_keeps held hcleaned spared
  by_cases hclient : call.client = client
  · subst hclient
    by_cases hfull : settings.requests ≤ admitted
    · refine ⟨admitted, bound, ⟨start, ?_, hstart⟩, ?_⟩ <;>
        simp [checkRateLimit, checkInMemory, entryOf, hkept, hnow, hfull]
    · refine ⟨admitted + 1, by omega, ⟨start, ?_, hstart⟩, ?_⟩ <;>
        simp [checkRateLimit, checkInMemory, entryOf, hkept, hnow, hfull]
  · refine ⟨admitted, bound, ⟨start, ?_, hstart⟩, by simp [hclient]⟩
    rw [checkRateLimit]
    dsimp only
    rw [checkInMemory_other fun heq => hclient heq.symm, hkept]

/-- The run lemma: while the window lasts, its admissions stay within the limit. -/
theorem holds_run {client : String} {first : K} {admitted : ℕ} {calls : List (Call K)}
    (h : Holds client first admitted s.cache) (bound : admitted ≤ settings.requests)
    (within : ∀ call ∈ calls, call.now ≤ first + settings.window) (timely : Timely calls)
    (spared : Spared settings client s calls) :
    admitted + admissions settings client s calls ≤ settings.requests := by
  induction calls generalizing s admitted with
  | nil => simpa [admissions] using bound
  | cons call calls ih =>
    obtain ⟨hcleaned, -, -, hrest⟩ := timely
    obtain ⟨next, hnext, hholds, rfl⟩ :=
      holds_step h bound (within call List.mem_cons_self) hcleaned spared.1
    have hlater := ih hholds hnext (fun later hlater => within later (List.mem_cons_of_mem call hlater))
      hrest spared.2
    rw [admissions]
    omega

omit [AddCommGroup K] [IsOrderedAddMonoid K] in
theorem Timely.of_append {before calls : List (Call K)} (h : Timely (before ++ calls)) :
    Timely calls := by
  induction before with
  | nil => exact h
  | cons call before ih => exact ih h.2.2.2

theorem limit_enforced (settings : Settings K) (limit : 0 < settings.requests)
    (before : List (Call K)) (call : Call K) (calls : List (Call K))
    (timely : Timely (before ++ call :: calls))
    (opens : Opens settings (after settings initial before) call)
    (within : ∀ later ∈ calls, later.now ≤ call.now + settings.window)
    (spared : Spared settings call.client
      (checkRateLimit settings (after settings initial before) call).1 calls) :
    admissions settings call.client (after settings initial before) (call :: calls) ≤
      settings.requests := by
  have htimely := timely.of_append
  obtain ⟨hadmitted, hholds⟩ := opens_holds limit htimely.2.1 opens
  have hrun := holds_run hholds limit within htimely.2.2.2 spared
  rw [admissions, if_pos ⟨rfl, hadmitted⟩]
  exact hrun

end Window

section Crowd

def crowdClient (i : ℕ) : String := "client-" ++ Nat.repr i

def victimCall (time : ℤ) : Call ℤ := ⟨"8.8.8.8", time, time, time⟩
def crowdCall (i : ℕ) : Call ℤ := ⟨crowdClient i, 1, 1, 1⟩

/-- One request in a minute. -/
def oneRequest : Settings ℤ := ⟨1, 60⟩

theorem crowdClient_injective {i j : ℕ} (h : crowdClient i = crowdClient j) : i = j := by
  have hchars := congrArg String.toList h
  rw [crowdClient, crowdClient, String.toList_append, String.toList_append] at hchars
  exact Nat.repr_injective (String.toList_inj.mp (List.append_cancel_left hchars))

theorem crowdClient_ne (i : ℕ) : crowdClient i ≠ "8.8.8.8" := by
  intro h
  have hchars := congrArg (fun text => text.toList.head?) h
  simp [crowdClient, String.toList_append] at hchars

/-- The entries after the call of the victim and those of `k` other clients. -/
def crowdEntries (k : ℕ) : List (String × ℕ × ℤ) :=
  ("8.8.8.8", 1, 0) :: (List.range k).map fun i => (crowdClient i, 1, 1)

theorem crowdEntries_live {k : ℕ} {now : ℤ} (h : now ≤ 60) :
    ∀ entry ∈ crowdEntries k, decide (¬ oneRequest.window < now - entry.2.2) = true := by
  intro entry hentry
  simp only [crowdEntries, List.mem_cons, List.mem_map] at hentry
  rcases hentry with rfl | ⟨i, -, rfl⟩ <;> simp [oneRequest] <;> omega

theorem cleanupExpired_crowd {cache : Cache ℤ} {k : ℕ} {now : ℤ} (h : now ≤ 60)
    (hentries : cache.entries = crowdEntries k) : cleanupExpired oneRequest cache now = cache :=
  OrderedDict.filter_eq_self (hentries ▸ crowdEntries_live h)

theorem maybeCleanup_crowd {s : State ℤ} {k : ℕ} (hk : k < 10098)
    (hentries : s.cache.entries = crowdEntries k) (hcount : s.requestCount = k + 1) :
    maybeCleanup oneRequest s 1 = ⟨s.cache, k + 2⟩ := by
  have hsize : s.cache.size = k + 1 := by
    simp [OrderedDict.size, hentries, crowdEntries]
  rw [maybeCleanup, hcount, cleanupExpired_crowd (by norm_num) hentries]
  split_ifs with hsweep
  · rw [evictOldest, if_pos]
    rw [hsize, maxCacheSize]
    rw [cleanupInterval] at hsweep
    omega
  · rfl

theorem crowdCall_new {cache : Cache ℤ} {k : ℕ} (hentries : cache.entries = crowdEntries k) :
    cache.get (crowdClient k) = none := by
  rw [OrderedDict.get_eq_none, OrderedDict.keys, hentries]
  simp only [crowdEntries, List.map_cons, List.map_map, List.mem_cons, List.mem_map, not_or,
    not_exists, not_and]
  refine ⟨crowdClient_ne k, fun i hi heq => ?_⟩
  rw [Function.comp_apply] at heq
  rw [crowdClient_injective heq, List.mem_range] at hi
  omega

theorem crowd_step {s : State ℤ} {k : ℕ} (hk : k < 10098)
    (hentries : s.cache.entries = crowdEntries k) (hcount : s.requestCount = k + 1) :
    (checkRateLimit oneRequest s (crowdCall k)).1.cache.entries = crowdEntries (k + 1) ∧
      (checkRateLimit oneRequest s (crowdCall k)).1.requestCount = k + 2 := by
  have hclean := maybeCleanup_crowd hk hentries hcount
  have hnew := crowdCall_new hentries
  simp only [checkRateLimit, crowdCall, hclean, checkInMemory, entryOf, hnew, Option.getD_none]
  rw [if_neg (by norm_num [oneRequest]), if_neg (by norm_num [oneRequest])]
  refine ⟨?_, trivial⟩
  rw [OrderedDict.entries_set_of_new hnew, hentries, crowdEntries, crowdEntries, List.range_succ,
    List.map_append]
  rfl

theorem limit_enforced_pair :
    admissions oneRequest "8.8.8.8" initial [victimCall 0, victimCall 1] ≤ 1 :=
  limit_enforced oneRequest (by decide) [] (victimCall 0) [victimCall 1]
    ⟨le_rfl, le_rfl, by simp [victimCall], le_rfl, le_rfl, by simp, trivial⟩
    (fun _ h => (by cases h)) (by simp [victimCall, oneRequest])
    ⟨by unfold Evicts; decide, trivial⟩

def crowdCalls (k : ℕ) : List (Call ℤ) := (List.range k).map crowdCall

def victimState : State ℤ := (checkRateLimit oneRequest initial (victimCall 0)).1

theorem crowd_after {k : ℕ} (hk : k ≤ 10098) :
    (after oneRequest victimState (crowdCalls k)).cache.entries = crowdEntries k ∧
      (after oneRequest victimState (crowdCalls k)).requestCount = k + 1 := by
  induction k with
  | zero => exact ⟨by decide, by decide⟩
  | succ k ih =>
    obtain ⟨hentries, hcount⟩ := ih (by omega)
    have hnext : after oneRequest victimState (crowdCalls (k + 1)) =
        (checkRateLimit oneRequest (after oneRequest victimState (crowdCalls k)) (crowdCall k)).1 := by
      rw [after, crowdCalls, List.range_succ, List.map_append, List.foldl_append]
      rfl
    rw [hnext]
    exact crowd_step (by omega) hentries hcount

theorem timely_crowd (indices : List ℕ) :
    Timely (indices.map crowdCall ++ [victimCall 2]) := by
  induction indices with
  | nil => exact ⟨le_rfl, le_rfl, by simp, trivial⟩
  | cons i indices ih =>
    refine ⟨le_rfl, le_rfl, ?_, ih⟩
    intro later hlater
    rcases List.mem_append.mp hlater with hcrowd | hvictim
    · obtain ⟨j, -, rfl⟩ := List.mem_map.mp hcrowd
      exact le_rfl
    · obtain rfl := List.mem_singleton.mp hvictim
      exact one_le_two

theorem crowd_times {k : ℕ} : ∀ call ∈ crowdCalls k ++ [victimCall 2],
    0 ≤ call.cleaned ∧ call.now ≤ 60 := by
  intro call hcall
  rcases List.mem_append.mp hcall with hcrowd | hvictim
  · obtain ⟨i, -, rfl⟩ := List.mem_map.mp hcrowd
    exact ⟨zero_le_one, by norm_num [crowdCall]⟩
  · obtain rfl := List.mem_singleton.mp hvictim
    exact ⟨by decide, by decide⟩

theorem timely_victim (k : ℕ) : Timely (victimCall 0 :: (crowdCalls k ++ [victimCall 2])) :=
  ⟨le_rfl, le_rfl, fun call hcall => (crowd_times call hcall).1, timely_crowd _⟩

theorem admissions_crowd (indices : List ℕ) (s : State ℤ) (calls : List (Call ℤ)) :
    admissions oneRequest "8.8.8.8" s (indices.map crowdCall ++ calls) =
      admissions oneRequest "8.8.8.8" (after oneRequest s (indices.map crowdCall)) calls := by
  induction indices generalizing s with
  | nil => rfl
  | cons i indices ih =>
    rw [List.map_cons, List.cons_append, admissions, if_neg fun h => crowdClient_ne i h.1, zero_add, ih]
    rfl

/-- The victim's entry is the oldest of too many. -/
theorem victim_evicted {s : State ℤ} {k : ℕ} (hk : k = 10098)
    (hentries : s.cache.entries = crowdEntries k) (hcount : s.requestCount = k + 1) :
    (maybeCleanup oneRequest s 2).cache.get "8.8.8.8" = none := by
  have hsize : s.cache.size = k + 1 := by
    simp [OrderedDict.size, hentries, crowdEntries]
  have hlarge : ¬ k + 1 ≤ maxCacheSize := by
    rw [maxCacheSize]
    omega
  have hsweep : (k + 1 + 1) % cleanupInterval = 0 := by
    rw [hk, cleanupInterval]
  have hsorted : ∃ others, sortedKeys s.cache = "8.8.8.8" :: others := by
    rw [sortedKeys, hentries, crowdEntries, List.insertionSort_cons]
    cases hrest : ((List.range k).map fun i => (crowdClient i, 1, (1 : ℤ))).insertionSort
        fun a b => a.2.2 ≤ b.2.2 with
    | nil => exact ⟨[], rfl⟩
    | cons entry entries =>
      have hmem : entry ∈ (List.range k).map fun i => (crowdClient i, 1, (1 : ℤ)) :=
        (List.mem_insertionSort _).mp (hrest ▸ List.mem_cons_self)
      obtain ⟨i, -, rfl⟩ := List.mem_map.mp hmem
      rw [List.orderedInsert_cons, if_pos (by norm_num)]
      exact ⟨_, rfl⟩
  obtain ⟨others, hothers⟩ := hsorted
  rw [maybeCleanup, hcount, cleanupExpired_crowd (by norm_num) hentries, if_pos hsweep,
    evictOldest, hsize, if_neg hlarge, OrderedDict.get_filter, hothers]
  have hfirst : ∃ n, k + 1 - maxCacheSize = n + 1 := Nat.exists_eq_succ_of_ne_zero (by omega)
  obtain ⟨n, hn⟩ := hfirst
  rw [hn, List.take_succ_cons]
  cases s.cache.get "8.8.8.8" with
  | none => rfl
  | some entry => simp

theorem victim_admitted_again {s : State ℤ} {k : ℕ} (hk : k = 10098)
    (hentries : s.cache.entries = crowdEntries k) (hcount : s.requestCount = k + 1) :
    (checkRateLimit oneRequest s (victimCall 2)).2 = true := by
  have hopens : Opens oneRequest s (victimCall 2) := by
    intro entry hentry
    rw [victimCall, victim_evicted hk hentries hcount] at hentry
    cases hentry
  exact (opens_holds (by decide) le_rfl hopens).1

theorem victim_twice {k : ℕ} (hk : k = 10098) : admissions oneRequest "8.8.8.8" initial
    (victimCall 0 :: (crowdCalls k ++ [victimCall 2])) = 2 := by
  obtain ⟨hentries, hcount⟩ := crowd_after hk.le
  have hfirst : (checkRateLimit oneRequest initial (victimCall 0)).2 = true := by decide
  have hagain := victim_admitted_again hk hentries hcount
  have hlast : admissions oneRequest "8.8.8.8" (after oneRequest victimState (crowdCalls k))
      [victimCall 2] = 1 := by
    rw [admissions, if_pos ⟨rfl, hagain⟩]
    rfl
  rw [admissions, if_pos ⟨rfl, hfirst⟩]
  exact congrArg (1 + ·) ((admissions_crowd _ victimState _).trans hlast)

/-- Ten thousand other clients make room for a second request within the same minute; and a limit
of no request admits one after each window. -/
theorem eviction_renews_window : (¬ ∀ (settings : Settings ℤ) before call calls,
      0 < settings.requests → Timely (before ++ call :: calls) →
      Opens settings (after settings initial before) call →
      (∀ later ∈ calls, later.now ≤ call.now + settings.window) →
      admissions settings call.client (after settings initial before) (call :: calls) ≤
        settings.requests) ∧
    0 < admissions ⟨0, 60⟩ "8.8.8.8" (after ⟨0, 60⟩ initial [victimCall 0]) [victimCall 61] := by
  constructor
  · intro h
    have hopens : Opens oneRequest (after oneRequest initial []) (victimCall 0) := by
      intro entry hentry
      cases hentry
    obtain ⟨k, hk⟩ : ∃ k, k = 10098 := ⟨_, rfl⟩
    have hadmitted : admissions oneRequest "8.8.8.8" initial
        (victimCall 0 :: (crowdCalls k ++ [victimCall 2])) ≤ 1 :=
      h oneRequest [] (victimCall 0) (crowdCalls k ++ [victimCall 2]) (by decide)
        (timely_victim k) hopens fun call hcall => (crowd_times call hcall).2
    rw [victim_twice hk] at hadmitted
    revert hadmitted
    decide
  · decide

end Crowd
end UniversityHelper.RateLimiter
