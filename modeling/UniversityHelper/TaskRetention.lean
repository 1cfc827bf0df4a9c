import UniversityHelper.TaskAdmission

/-! What a clean-up of a registry leaves: the active records, no expired one, and as many of the
newest others as the bound allows. -/
namespace UniversityHelper.TaskAdmission
open Retained

/-- The time by which a record is evicted. -/
def age {ρ : Type*} [Retained ρ] (task : ρ) : WithBot Instant := taskTimestamp (times task)

/-- The laws of `cleanup_task_records`. -/
structure Retention {ρ : Type*} [Retained ρ] (tasks : OrderedDict String ρ)
    (now ttlSeconds maxRecords : ℤ) : Prop where
  active : ∀ k task, tasks.get k = some task → isActiveStatus (status task) = true →
    (cleanupTaskRecords tasks now ttlSeconds maxRecords).get k = some task
  kept : ∀ k task, (cleanupTaskRecords tasks now ttlSeconds maxRecords).get k = some task →
    tasks.get k = some task
  fresh : ∀ k task, (cleanupTaskRecords tasks now ttlSeconds maxRecords).get k = some task →
    isTerminalStatus (status task) = true → ∀ t, taskTimestamp (times task) = some t →
      now - max 0 ttlSeconds * 1000000 ≤ t
  bounded : ((cleanupTaskRecords tasks now ttlSeconds maxRecords).size : ℤ) ≤
    max (max maxRecords 1) (countActiveTasks tasks)
  /-- beyond the expired records only as many go as the bound requires -/
  exact : ((cleanupTaskRecords tasks now ttlSeconds maxRecords).size : ℤ) =
    min ((dropExpired tasks now ttlSeconds).size : ℤ)
      (max (max maxRecords 1) (countActiveTasks tasks))
  oldest : ∀ k task j other, (cleanupTaskRecords tasks now ttlSeconds maxRecords).get k = some task →
    isActiveStatus (status task) = false → (dropExpired tasks now ttlSeconds).get j = some other →
    (cleanupTaskRecords tasks now ttlSeconds maxRecords).get j = none → age other ≤ age task
  settled : cleanupTaskRecords (cleanupTaskRecords tasks now ttlSeconds maxRecords) now ttlSeconds
    maxRecords = cleanupTaskRecords tasks now ttlSeconds maxRecords

section Retention
variable {ρ : Type*} [Retained ρ] {tasks : OrderedDict String ρ} {now ttlSeconds maxRecords : ℤ}

theorem length_filter_not {α : Type*} (p : α → Bool) (xs : List α) :
    (xs.filter fun x => !p x).length + xs.countP p = xs.length := by
  induction xs with
  | nil => rfl
  | cons x xs ih =>
    cases h : p x
    · simp only [List.filter_cons, List.countP_cons, List.length_cons, h, Bool.not_false, if_true,
        Bool.false_eq_true, if_false]
      omega
    · simp only [List.filter_cons, List.countP_cons, List.length_cons, h, Bool.not_true,
        Bool.false_eq_true, if_false, if_true]
      omega

theorem countActiveTasks_entries (tasks : OrderedDict String ρ) :
    countActiveTasks tasks = tasks.entries.countP fun e => isActiveStatus (status e.2) := by
  simp only [countActiveTasks, OrderedDict.values, List.countP_map, Function.comp_def]

theorem length_evictable (tasks : OrderedDict String ρ) :
    (evictable tasks).length + countActiveTasks tasks = tasks.size := by
  have hsplit := length_filter_not (fun e : String × ρ => isActiveStatus (status e.2)) tasks.entries
  simp only [evictable, List.length_map, countActiveTasks_entries, OrderedDict.size]
  exact hsplit

theorem not_expired_of_active {task : ρ} (h : isActiveStatus (status task) = true) :
    expired now ttlSeconds task = false := by
  by_contra hexpired
  rw [Bool.not_eq_false, expired, Bool.and_eq_true] at hexpired
  rw [not_active_of_terminal hexpired.1] at h
  cases h

theorem countActive_dropExpired :
    countActiveTasks (dropExpired tasks now ttlSeconds) = countActiveTasks tasks := by
  rw [countActiveTasks_entries, countActiveTasks_entries, dropExpired, OrderedDict.filter,
    List.countP_filter]
  refine List.countP_congr fun e _ => ?_
  rw [Bool.and_eq_true]
  refine ⟨fun h => h.1, fun h => ⟨h, ?_⟩⟩
  rw [not_expired_of_active h]
  rfl

omit [Retained ρ] in
/-- Erasing distinct known keys makes a dictionary smaller by their number. -/
theorem size_filter_notMem (d : OrderedDict String ρ) {ids : List String} (distinct : ids.Nodup)
    (known : ∀ id ∈ ids, id ∈ d.keys) :
    (d.filter fun e => e.1 ∉ ids).size + ids.length = d.size := by
  have hfiltered : (d.keys.filter fun id => id ∈ ids).Perm ids := by
    refine (List.perm_ext_iff_of_nodup (d.distinct.filter _) distinct).mpr fun id => ?_
    rw [List.mem_filter, decide_eq_true_eq]
    exact ⟨fun h => h.2, fun h => ⟨known id h, h⟩⟩
  have hcount : d.entries.countP (fun e => decide (e.1 ∈ ids)) = ids.length := by
    rw [← hfiltered.length_eq, ← List.countP_eq_length_filter, OrderedDict.keys, List.countP_map]
    rfl
  have hsplit := length_filter_not (fun e => decide (e.1 ∈ ids)) d.entries
  rw [hcount] at hsplit
  simpa [OrderedDict.size, OrderedDict.filter] using hsplit

theorem size_evictOverflow (tasks : OrderedDict String ρ) (maxRecords : ℤ) :
    ((evictOverflow tasks maxRecords).size : ℤ) =
      min (tasks.size : ℤ) (max (max maxRecords 1) (countActiveTasks tasks)) := by
  set n := (tasks.size - max 1 maxRecords : ℤ).toNat with hn
  set evicted := ((evictable tasks).insertionSort (· ≤ ·)).take n with hevicted
  have hperm := (List.perm_insertionSort (· ≤ ·) (evictable tasks)).map fun key => (ofLex key).2
  have htake : (evicted.map fun key => (ofLex key).2).Sublist
      (((evictable tasks).insertionSort (· ≤ ·)).map fun key => (ofLex key).2) :=
    (List.take_sublist n _).map _
  have hids : (evicted.map fun key => (ofLex key).2).Nodup :=
    (hperm.nodup_iff.mpr (tasks.distinct.sublist (evictable_ids tasks))).sublist htake
  have hknown : ∀ id ∈ evicted.map (fun key => (ofLex key).2), id ∈ tasks.keys := fun id hid =>
    (evictable_ids tasks).subset (hperm.mem_iff.mp (htake.subset hid))
  have hlength : evicted.length = min n (evictable tasks).length := by
    rw [hevicted, List.length_take, List.length_insertionSort]
  have hsize := size_filter_notMem tasks hids hknown
  have hevictable := length_evictable tasks
  rw [List.length_map, hlength] at hsize
  have hresult : (evictOverflow tasks maxRecords).size =
      (tasks.filter fun e => e.1 ∉ evicted.map fun key => (ofLex key).2).size := rfl
  rw [hresult]
  omega

theorem countActive_evictOverflow (tasks : OrderedDict String ρ) (maxRecords : ℤ) :
    countActiveTasks (evictOverflow tasks maxRecords) = countActiveTasks tasks := by
  rw [countActiveTasks_entries, countActiveTasks_entries, evictOverflow, OrderedDict.filter,
    List.countP_filter]
  refine List.countP_congr fun e he => ?_
  rw [Bool.and_eq_true]
  refine ⟨fun h => h.1, fun h => ⟨h, ?_⟩⟩
  have hstays : ¬ Overflowing tasks maxRecords e.1 e.2 := by
    rintro ⟨hinactive, -⟩
    rw [hinactive] at h
    cases h
  have hget := get_evictOverflow.mpr ⟨OrderedDict.get_eq_some.mpr he, hstays⟩
  exact (List.mem_filter.mp (OrderedDict.get_eq_some.mp hget)).2

/-- A registry within the bound, or with active records only, stays as it is. -/
theorem evictOverflow_eq_self
    (h : (tasks.size : ℤ) ≤ max (max maxRecords 1) (countActiveTasks tasks)) :
    evictOverflow tasks maxRecords = tasks := by
  have hlength := length_evictable tasks
  have hnone : ((evictable tasks).insertionSort (· ≤ ·)).take
      (tasks.size - max 1 maxRecords : ℤ).toNat = [] := by
    rw [List.take_eq_nil_iff, ← List.length_eq_zero_iff, List.length_insertionSort]
    omega
  rw [evictOverflow]
  refine OrderedDict.filter_eq_self fun e _ => ?_
  rw [hnone]
  simp

theorem rank_mono {α : Type*} [LinearOrder α] (xs : List α) {x y : α} (h : x ≤ y) :
    rank xs x ≤ rank xs y :=
  List.countP_mono_left fun _ _ hz => decide_eq_true ((of_decide_eq_true hz).trans_le h)

theorem oldest_evicted {k j : String} {task other : ρ}
    (stays : ¬ Overflowing tasks maxRecords k task) (inactive : isActiveStatus (status task) = false)
    (goes : Overflowing tasks maxRecords j other) : age other ≤ age task := by
  by_contra hyounger
  have hkey : evictionKey (k, task) ≤ evictionKey (j, other) :=
    (Prod.Lex.toLex_lt_toLex.mpr (.inl (not_le.mp hyounger))).le
  have hrank := rank_mono (evictable tasks) hkey
  refine stays ⟨inactive, ?_⟩
  have hgoes := goes.2
  omega

theorem overflowing_of_evicted {j : String} {other : ρ} (known : tasks.get j = some other)
    (gone : (evictOverflow tasks maxRecords).get j = none) : Overflowing tasks maxRecords j other := by
  by_contra hstays
  rw [get_evictOverflow.mpr ⟨known, hstays⟩] at gone
  cases gone

theorem dropExpired_cleanup :
    dropExpired (cleanupTaskRecords tasks now ttlSeconds maxRecords) now ttlSeconds =
      cleanupTaskRecords tasks now ttlSeconds maxRecords := by
  refine OrderedDict.filter_eq_self fun e he => ?_
  rw [not_expired_of_cleanup he]
  rfl

end Retention

theorem cleanup_retention {ρ : Type*} [Retained ρ] (tasks : OrderedDict String ρ)
    (now ttlSeconds maxRecords : ℤ) : Retention tasks now ttlSeconds maxRecords := by
  have hsize : ((cleanupTaskRecords tasks now ttlSeconds maxRecords).size : ℤ) =
      min ((dropExpired tasks now ttlSeconds).size : ℤ)
        (max (max maxRecords 1) (countActiveTasks tasks)) := by
    rw [cleanupTaskRecords, size_evictOverflow, countActive_dropExpired]
  have hactive : countActiveTasks (cleanupTaskRecords tasks now ttlSeconds maxRecords) =
      countActiveTasks tasks := by
    rw [cleanupTaskRecords, countActive_evictOverflow, countActive_dropExpired]
  exact
    { active := fun k task h => active_retained h
      kept := fun k task h => (get_cleanupTaskRecords.mp h).1
      fresh := by
        intro k task h hterminal t ht
        have hexpired := (get_cleanupTaskRecords.mp h).2.1
        rw [expired, hterminal, ht] at hexpired
        simpa using hexpired
      bounded := by
        rw [hsize]
        exact min_le_right _ _
      exact := hsize
      oldest := by
        intro k task j other hk hinactive hj hgone
        exact oldest_evicted (get_cleanupTaskRecords.mp hk).2.2 hinactive
          (overflowing_of_evicted hj hgone)
      settled := by
        have hbound : ((cleanupTaskRecords tasks now ttlSeconds maxRecords).size : ℤ) ≤
            max (max maxRecords 1)
              (countActiveTasks (cleanupTaskRecords tasks now ttlSeconds maxRecords)) := by
          rw [hsize, hactive]
          exact min_le_right _ _
        conv_lhs => rw [cleanupTaskRecords]
        rw [dropExpired_cleanup, evictOverflow_eq_self hbound] }

instance : Retained (TaskStatus × TaskTimes) := ⟨Prod.fst, Prod.snd⟩

/-- With a negative time to live a record of this moment stays. -/
theorem negative_ttl_retains : ¬ ∀ (tasks : OrderedDict String (TaskStatus × TaskTimes))
    (now ttlSeconds maxRecords : ℤ) k task,
      (cleanupTaskRecords tasks now ttlSeconds maxRecords).get k = some task →
      isTerminalStatus (status task) = true → ∀ t, taskTimestamp (times task) = some t →
        now - ttlSeconds * 1000000 ≤ t := by
  intro h
  have hstays := h (OrderedDict.empty.set "1"
    (.completed, ⟨.at 0, .absent, .absent, .absent⟩)) 0 (-1) 256 "1"
    (.completed, ⟨.at 0, .absent, .absent, .absent⟩) (by decide) (by decide) 0 (by decide)
  revert hstays
  decide

end UniversityHelper.TaskAdmission
