import UniversityHelper.Threads
import UniversityHelper.TopSelection
import UniversityHelper.SigninHistory

/-! When the history a user sees keeps the newest records of all that were ever appended. -/
namespace UniversityHelper.SigninHistory
set_option linter.unusedSectionVars false

variable {C τ ρ : Type*} [LinearOrder τ] [DecidableEq C]

instance : Std.Total (listedBefore (τ := τ) (ρ := ρ)) where
  total a b := by
    rcases lt_trichotomy a.eventTime b.eventTime with h | h | h
    · exact Or.inr (Or.inl h)
    · rcases le_total a.id b.id with hid | hid
      · exact Or.inr (Or.inr ⟨h, hid⟩)
      · exact Or.inl (Or.inr ⟨h.symm, hid⟩)
    · exact Or.inl (Or.inl h)

instance : IsTrans (HistoryRow τ ρ) listedBefore where
  trans a b c hab hbc := by
    rcases hab with hab | ⟨hab, hidab⟩
    · rcases hbc with hbc | ⟨hbc, -⟩
      · exact Or.inl (hbc.trans hab)
      · exact Or.inl (hbc ▸ hab)
    · rcases hbc with hbc | ⟨hbc, hidbc⟩
      · exact Or.inl (hab ▸ hbc)
      · exact Or.inr ⟨hbc.trans hab, hidbc.trans hidab⟩

theorem listedBefore_eventTime {a b : HistoryRow τ ρ} (h : listedBefore a b) :
    b.eventTime ≤ a.eventTime := by
  rcases h with h | ⟨h, -⟩
  · exact h.le
  · exact h.le

theorem selectNewest_top (rows : List (HistoryRow τ ρ)) (limit : ℕ) :
    TopOf HistoryRow.eventTime (safeLimit limit) (selectNewest rows limit) rows := by
  have hsorted := List.pairwise_insertionSort listedBefore rows
  exact (TopOf.take_sorted (hsorted.imp listedBefore_eventTime)).perm_right
    (List.perm_insertionSort _ _)

theorem selectNewest_subperm (rows : List (HistoryRow τ ρ)) (limit : ℕ) :
    List.Subperm (selectNewest rows limit) rows :=
  (List.take_sublist _ _).subperm.trans (List.perm_insertionSort listedBefore rows).subperm

theorem lt_nextRowId {rows : List (HistoryRow τ ρ)} {row : HistoryRow τ ρ} (h : row ∈ rows) :
    row.id < nextRowId rows := by
  have hle : ∀ ids : List ℕ, ∀ n ∈ ids, n ≤ ids.foldr max 0 := by
    intro ids
    induction ids with
    | nil => simp
    | cons i ids ih =>
      intro n hn
      rcases List.mem_cons.mp hn with rfl | hn
      · exact le_max_left _ _
      · exact (ih n hn).trans (le_max_right _ _)
  exact Nat.lt_succ_of_le (hle _ _ (List.mem_map_of_mem h))

section Insert
variable {rows : List (HistoryRow τ ρ)} (user : UserId) (record : HistoryRecord τ ρ) (n : ℕ)

theorem nodup_insertRow (ids : (rows.map HistoryRow.id).Nodup) :
    ((insertRow rows user record).map HistoryRow.id).Nodup := by
  rw [insertRow, List.map_append, List.nodup_append]
  refine ⟨ids, by simp, ?_⟩
  intro a ha b hb
  obtain ⟨row, hrow, rfl⟩ := List.mem_map.mp ha
  obtain rfl : b = nextRowId rows := by simpa using hb
  exact (lt_nextRowId hrow).ne

theorem nodup_appendHistory (ids : (rows.map HistoryRow.id).Nodup) :
    ((appendHistory rows user record n).map HistoryRow.id).Nodup :=
  (nodup_insertRow user record ids).sublist (List.filter_sublist.map _)

theorem ofUser_appendHistory_of_ne {other : UserId} (h : other ≠ user) :
    ofUser (appendHistory rows user record n) other = ofUser rows other := by
  have hkept : ofUser (appendHistory rows user record n) other =
      ofUser (insertRow rows user record) other := by
    simp only [ofUser, appendHistory, List.filter_filter]
    refine List.filter_congr fun row _ => ?_
    by_cases hrow : row.userId = other
    · have hne : row.userId ≠ user := fun heq => h (hrow.symm.trans heq)
      simp [hrow, h]
    · simp [hrow]
  rw [hkept]
  simp [ofUser, insertRow, h.symm]

theorem ofUser_appendHistory_self (ids : (rows.map HistoryRow.id).Nodup) :
    (ofUser (appendHistory rows user record n) user).Perm
      (selectNewest (ofUser (insertRow rows user record) user) n) := by
  have hnodup := nodup_insertRow user record ids
  have hrows := List.Nodup.of_map _ hnodup
  have hselected := selectNewest_subperm (ofUser (insertRow rows user record) user) n
  have hinj := List.inj_on_of_nodup_map hnodup
  have hmem : ∀ row ∈ selectNewest (ofUser (insertRow rows user record) user) n,
      row ∈ insertRow rows user record ∧ row.userId = user := by
    intro row hrow
    simpa [ofUser] using hselected.subset hrow
  refine (List.perm_ext_iff_of_nodup ((hrows.filter _).filter _) ?_).mpr fun row => ?_
  · obtain ⟨l, hperm, hsub⟩ := hselected
    exact hperm.nodup_iff.mp ((hrows.filter _).sublist hsub)
  · simp only [ofUser, List.filter_filter, List.mem_filter]
    constructor
    · rintro ⟨hrow, hkeep⟩
      simp only [Bool.and_eq_true, decide_eq_true_eq, not_and, not_not] at hkeep
      obtain ⟨chosen, hchosen, hid⟩ := List.mem_map.mp (hkeep.2 hkeep.1)
      rw [← hinj (hmem chosen hchosen).1 hrow hid]
      exact hchosen
    · intro hrow
      refine ⟨(hmem row hrow).1, ?_⟩
      simp only [Bool.and_eq_true, decide_eq_true_eq, not_and, not_not]
      exact ⟨(hmem row hrow).2, fun _ => List.mem_map_of_mem hrow⟩

end Insert

def storedRecords (rows : List (HistoryRow τ ρ)) (user : UserId) : List (HistoryRecord τ ρ) :=
  (ofUser rows user).map HistoryRow.payload

theorem listHistory_sorted (rows : List (HistoryRow τ ρ)) (user : UserId) (limit : ℕ) :
    (listHistory rows user limit).Pairwise fun a b => b.timestamp ≤ a.timestamp := by
  have hsorted := List.pairwise_insertionSort listedBefore (ofUser rows user)
  rw [listHistory, List.pairwise_map]
  exact (hsorted.sublist (List.take_sublist _ _)).imp listedBefore_eventTime

theorem listHistory_perm {rows : List (HistoryRow τ ρ)} {user : UserId}
    (h : (storedRecords rows user).length ≤ 500) :
    (listHistory rows user 500).Perm (storedRecords rows user) := by
  have hlength : ((ofUser rows user).insertionSort listedBefore).length ≤ safeLimit 500 := by
    rw [List.length_insertionSort]
    simpa [storedRecords, safeLimit] using h
  rw [listHistory, selectNewest, List.take_of_length_le hlength]
  exact (List.perm_insertionSort _ _).map _

/-- The table keeps the newest 500 of the records that were ever stored. -/
theorem appendHistory_top {rows : List (HistoryRow τ ρ)} {user : UserId}
    {record : HistoryRecord τ ρ} {persisted : List (HistoryRecord τ ρ)}
    (ids : (rows.map HistoryRow.id).Nodup)
    (h : TopOf HistoryRecord.timestamp 500 (storedRecords rows user) persisted) :
    TopOf HistoryRecord.timestamp 500 (storedRecords (appendHistory rows user record 500) user)
      (persisted ++ [record]) := by
  refine h.snoc ?_
  have hselected := selectNewest_top (ofUser (insertRow rows user record) user) 500
  have hrows : (ofUser (insertRow rows user record) user).map HistoryRow.payload =
      storedRecords rows user ++ [record] := by
    simp [storedRecords, ofUser, insertRow]
  rw [← hrows]
  exact TopOf.map HistoryRow.payload
    (hselected.perm_left (ofUser_appendHistory_self user record 500 ids).symm)

theorem storedRecords_of_ne {rows : List (HistoryRow τ ρ)} {user other : UserId}
    {record : HistoryRecord τ ρ} {n : ℕ} (h : other ≠ user) :
    storedRecords (appendHistory rows user record n) other = storedRecords rows other := by
  rw [storedRecords, ofUser_appendHistory_of_ne user record n h, storedRecords]

/-- The trim of `appendItem` drops nothing, or the first of the list. -/
theorem appendItem_top {history : UserId → List (HistoryRecord τ ρ)} {user : UserId}
    {record : HistoryRecord τ ρ} {recorded : List (HistoryRecord τ ρ)}
    (h : TopOf HistoryRecord.timestamp 500 (history user) recorded)
    (oldest : ∀ first rest, history user = first :: rest → 500 ≤ (history user).length →
      ∀ other ∈ rest ++ [record], first.timestamp ≤ other.timestamp) :
    TopOf HistoryRecord.timestamp 500 (appendItem history user record user)
      (recorded ++ [record]) := by
  refine h.snoc ?_
  simp only [appendItem, Function.update_self]
  have hlength := h.length_le
  by_cases hfull : 500 ≤ (history user).length
  · cases hitems : history user with
    | nil => simp [hitems] at hfull
    | cons first rest =>
      have hrest : rest.length + 1 = 500 := by
        rw [hitems] at hlength hfull
        simp only [List.length_cons] at hlength hfull
        omega
      have htrim : keepLast 500 (first :: rest ++ [record]) = rest ++ [record] := by
        simp [keepLast, hrest]
      rw [htrim]
      exact TopOf.tail (by simp [hrest]) (by simp [hrest]) (oldest first rest hitems hfull)
  · have hroom : (history user ++ [record]).length ≤ 500 := by
      rw [List.length_append, List.length_singleton]
      omega
    rw [keepLast_of_le hroom]
    exact TopOf.self hroom

/-- What a call has put into the list of `user` and not yet into the store. -/
def Call.unsaved (user : UserId) : Call τ ρ → Multiset (HistoryRecord τ ρ)
  | .persisting owner record => if owner = user then {record} else 0
  | _ => 0

/-- An append that trims drops a record no newer than those that stay; no append of a user
overlaps the replacement of the user's list; no restart interrupts an append. -/
def InOrder (s : State C τ ρ) : Action C τ ρ → Prop
  | .append c => ∀ user record first rest, s.call c = .appending user record →
      user ∈ s.loadedHistoryUsers → s.history user = first :: rest →
        500 ≤ (s.history user).length → ∀ other ∈ rest ++ [record], first.timestamp ≤ other.timestamp
  | .replace c => ∀ user cleaned, s.call c = .replacing user cleaned →
      cleaned = listHistory s.rows user 500 ∧ ∀ d record, s.call d ≠ .persisting user record
  | .restart => ∀ d user record, s.call d ≠ .persisting user record
  | _ => True

variable [Fintype C]

/-- The store has the newest of what was persisted, the list of a loaded user the newest of
everything, and what is recorded but not persisted is in the hands of a call. -/
structure Kept (s : State C τ ρ) : Prop where
  ids : (s.rows.map HistoryRow.id).Nodup
  stored : ∀ user, ∃ persisted : List (HistoryRecord τ ρ),
    TopOf HistoryRecord.timestamp 500 (storedRecords s.rows user) persisted ∧
      (s.recorded user : Multiset (HistoryRecord τ ρ)) =
        persisted + load (Call.unsaved user) s.call
  loaded : ∀ user ∈ s.loadedHistoryUsers,
    TopOf HistoryRecord.timestamp 500 (s.history user) (s.recorded user)

theorem kept_start {s : State C τ ρ} (h : (machine C τ ρ).start s) : Kept s := by
  obtain ⟨hrows, -, hloaded, hcall, hrecorded⟩ := h
  refine ⟨by simp [hrows], fun user => ⟨[], ?_, ?_⟩, by simp [hloaded]⟩
  · simp only [hrows, storedRecords, ofUser, List.filter_nil, List.map_nil]
    exact TopOf.self (by simp)
  · have hzero : load (Call.unsaved user) s.call = 0 :=
      load_eq_zero.mpr fun c => by rw [hcall]; rfl
    simp [hrecorded, hzero]

theorem Kept.goto {s : State C τ ρ} (h : Kept s) {c : C} {next : Call τ ρ}
    (same : ∀ user, next.unsaved user = (s.call c).unsaved user) : Kept (s.goto c next) := by
  refine ⟨h.ids, fun user => ?_, h.loaded⟩
  obtain ⟨persisted, htop, hrecorded⟩ := h.stored user
  exact ⟨persisted, htop, hrecorded.trans (by rw [State.goto, load_update_of_eq (same user)])⟩

/-- With nothing of the user between the list and the store, the store has the newest records. -/
theorem Kept.stored_top {s : State C τ ρ} (h : Kept s) {user : UserId}
    (none : ∀ d record, s.call d ≠ .persisting user record) :
    TopOf HistoryRecord.timestamp 500 (storedRecords s.rows user) (s.recorded user) := by
  obtain ⟨persisted, htop, hrecorded⟩ := h.stored user
  have hzero : load (Call.unsaved user) s.call = 0 := load_eq_zero.mpr fun d => by
    cases hcall : s.call d with
    | persisting owner record =>
      have hne : owner ≠ user := by
        rintro rfl
        exact none d record hcall
      simp [Call.unsaved, hne]
    | _ => rfl
  rw [hzero, add_zero] at hrecorded
  exact htop.perm_right (Multiset.coe_eq_coe.mp hrecorded.symm)

theorem Kept.append {s : State C τ ρ} (h : Kept s) {c : C} {user : UserId}
    {record : HistoryRecord τ ρ} (hcall : s.call c = .appending user record)
    (allowed : InOrder s (.append c)) :
    Kept { s.goto c (.persisting user record) with
      history := appendItem s.history user record
      recorded := Function.update s.recorded user (s.recorded user ++ [record]) } := by
  refine ⟨h.ids, fun other => ?_, fun other hother => ?_⟩
  · obtain ⟨persisted, htop, hrecorded⟩ := h.stored other
    refine ⟨persisted, htop, ?_⟩
    have hload := load_update (Call.unsaved other) s.call c (.persisting user record)
    rw [hcall] at hload
    simp only [Call.unsaved, add_zero] at hload
    dsimp only [State.goto]
    rw [hload]
    by_cases heq : other = user
    · subst heq
      rw [Function.update_self, if_pos rfl, ← add_assoc, ← hrecorded]
      rfl
    · rw [Function.update_of_ne heq, if_neg (Ne.symm heq), add_zero]
      exact hrecorded
  · have hkept := h.loaded other hother
    dsimp only
    by_cases heq : other = user
    · subst heq
      rw [Function.update_self]
      exact appendItem_top hkept fun first rest hitems hfull =>
        allowed other record first rest hcall hother hitems hfull
    · rw [Function.update_of_ne heq, appendItem, Function.update_of_ne heq]
      exact hkept

theorem Kept.persist {s : State C τ ρ} (h : Kept s) {c : C} {user : UserId}
    {record : HistoryRecord τ ρ} (hcall : s.call c = .persisting user record) :
    Kept { s.goto c .idle with rows := appendHistory s.rows user record 500 } := by
  refine ⟨nodup_appendHistory user record 500 h.ids, fun other => ?_, h.loaded⟩
  obtain ⟨persisted, htop, hrecorded⟩ := h.stored other
  have hload := load_update (Call.unsaved other) s.call c .idle
  rw [hcall] at hload
  simp only [Call.unsaved, add_zero] at hload
  rw [← hload] at hrecorded
  by_cases heq : other = user
  · subst heq
    refine ⟨persisted ++ [record], appendHistory_top h.ids htop, ?_⟩
    rw [if_pos rfl] at hrecorded
    dsimp only [State.goto]
    rw [hrecorded, ← Multiset.coe_add, add_assoc, add_comm (load _ _)]
    rfl
  · rw [if_neg (Ne.symm heq), add_zero] at hrecorded
    refine ⟨persisted, ?_, hrecorded⟩
    dsimp only
    rw [storedRecords_of_ne heq]
    exact htop

theorem Kept.replace {s : State C τ ρ} (h : Kept s) {c : C} {user : UserId}
    {cleaned : List (HistoryRecord τ ρ)} (hcall : s.call c = .replacing user cleaned)
    (allowed : InOrder s (.replace c)) :
    Kept { s.goto c (.reading user) with
      history := Function.update s.history user cleaned
      loadedHistoryUsers := insert user s.loadedHistoryUsers } := by
  obtain ⟨rfl, hnone⟩ := allowed user cleaned hcall
  have hgoto : Kept (s.goto c (.reading user)) := h.goto fun other => by rw [hcall]; rfl
  refine ⟨h.ids, hgoto.stored, fun other hother => ?_⟩
  dsimp only
  by_cases heq : other = user
  · subst heq
    rw [Function.update_self]
    have htop := h.stored_top hnone
    exact htop.perm_left (listHistory_perm htop.length_le).symm
  · rw [Function.update_of_ne heq]
    exact h.loaded other (Finset.mem_of_mem_insert_of_ne hother heq)

theorem Kept.restart {s : State C τ ρ} (h : Kept s) (allowed : InOrder s .restart) :
    Kept (C := C) { s with
      history := restoreHistoryFromStore s.rows
      loadedHistoryUsers := ∅
      call := fun _ => .idle } := by
  refine ⟨h.ids, fun user => ⟨s.recorded user, h.stored_top fun d => allowed d user, ?_⟩, by simp⟩
  rw [load_const (Call.unsaved user) .idle rfl, add_zero]

theorem Kept.preserved {s t : State C τ ρ} {a : Action C τ ρ} (h : Kept s) (allowed : InOrder s a)
    (taken : step s a = some t) : Kept t := by
  cases a with
  | callAppendHistory c user record =>
    simp only [step] at taken
    split at taken
    · cases taken
    · rename_i hfree
      cases taken
      refine h.goto fun other => ?_
      cases hcall : s.call c with
      | persisting owner old => simp [hcall, Call.inProgress] at hfree
      | _ => rfl
  | append c =>
    simp only [step] at taken
    split at taken
    · rename_i user record hcall
      cases taken
      exact h.append hcall allowed
    · cases taken
  | persist c =>
    simp only [step] at taken
    split at taken
    · rename_i user record hcall
      cases taken
      exact h.persist hcall
    · cases taken
  | callGetHistory c user =>
    simp only [step] at taken
    split at taken
    · cases taken
    · rename_i hfree
      cases taken
      refine h.goto fun other => ?_
      cases hcall : s.call c with
      | persisting owner old => simp [hcall, Call.inProgress] at hfree
      | _ => rfl
  | checkLoaded c =>
    simp only [step] at taken
    split at taken
    · rename_i user hcall
      cases taken
      refine h.goto fun other => ?_
      rw [hcall]
      split <;> rfl
    · cases taken
  | list c =>
    simp only [step] at taken
    split at taken
    · rename_i user hcall
      cases taken
      exact h.goto fun other => by rw [hcall]; rfl
    · cases taken
  | replace c =>
    simp only [step] at taken
    split at taken
    · rename_i user cleaned hcall
      cases taken
      exact h.replace hcall allowed
    · cases taken
  | read c =>
    simp only [step] at taken
    split at taken
    · rename_i user hcall
      cases taken
      exact h.goto fun other => by rw [hcall]; rfl
    · cases taken
  | restart =>
    cases taken
    exact h.restart allowed

theorem Kept.of_reachable {s : State C τ ρ} (h : (machine C τ ρ).Reachable InOrder s) : Kept s :=
  h.invariant (fun _ => kept_start) fun _ _ _ hs allowed taken => hs.preserved allowed taken

/-- What a user is to be shown of all records: the newest 500, newest first. -/
def Newest (shown all : List (HistoryRecord τ ρ)) : Prop :=
  (shown.Pairwise fun a b => b.timestamp ≤ a.timestamp) ∧ shown.length = min 500 all.length ∧
    TopOf HistoryRecord.timestamp 500 shown all

instance : Std.Total fun a b : HistoryRecord τ ρ => b.timestamp ≤ a.timestamp where
  total a b := le_total b.timestamp a.timestamp

instance : IsTrans (HistoryRecord τ ρ) fun a b => b.timestamp ≤ a.timestamp where
  trans _ _ _ hab hbc := hbc.trans hab

theorem sortedHistory_newest {records all : List (HistoryRecord τ ρ)}
    (h : TopOf HistoryRecord.timestamp 500 records all) : Newest (sortedHistory records) all := by
  have hperm : records.Perm (sortedHistory records) := (List.perm_insertionSort _ records).symm
  have htop := h.perm_left hperm
  exact ⟨List.pairwise_insertionSort _ records, htop.length_eq, htop⟩

theorem getHistory_returned {s : State C τ ρ} (idle : ∀ c, (s.call c).inProgress = false) (c : C)
    (user : UserId) :
    ((machine C τ ρ).exec s (getHistory s c user)).map (fun t => t.call c) =
      some (.returned (sortedHistory (if user ∈ s.loadedHistoryUsers then s.history user
        else listHistory s.rows user 500))) := by
  by_cases hloaded : user ∈ s.loadedHistoryUsers
  · simp [getHistory, hloaded, Machine.exec, machine, step, idle, State.goto]
  · simp [getHistory, hloaded, Machine.exec, machine, step, idle, State.goto]

theorem Kept.getHistory_answers {s : State C τ ρ} (h : Kept s)
    (idle : ∀ c, (s.call c).inProgress = false) (c : C) (user : UserId) :
    ∃ t shown, (machine C τ ρ).exec s (getHistory s c user) = some t ∧
      t.call c = .returned shown ∧ Newest shown (s.recorded user) := by
  obtain ⟨t, hexec, hreturned⟩ := Option.map_eq_some_iff.mp (getHistory_returned idle c user)
  refine ⟨t, _, hexec, hreturned, sortedHistory_newest ?_⟩
  by_cases hloaded : user ∈ s.loadedHistoryUsers
  · rw [if_pos hloaded]
    exact h.loaded user hloaded
  · have hnone : ∀ d record, s.call d ≠ .persisting user record := by
      intro d record hcall
      have hidle := idle d
      rw [hcall] at hidle
      exact absurd hidle (by simp [Call.inProgress])
    have htop := h.stored_top hnone
    rw [if_neg hloaded]
    exact htop.perm_left (listHistory_perm htop.length_le).symm

theorem Kept.trim_drops_newer {s t : State C τ ρ} {c : C} (h : Kept s)
    (taken : step s (.append c) = some t) (bad : ¬ InOrder s (.append c)) :
    ∃ user ∈ t.loadedHistoryUsers,
      ¬ TopOf HistoryRecord.timestamp 500 (t.history user) (t.recorded user) := by
  simp only [InOrder, not_forall, not_le] at bad
  obtain ⟨user, record, first, rest, hcall, hloaded, hitems, hfull, other, hother, hlt⟩ := bad
  have htop := h.loaded user hloaded
  rw [hitems] at htop hfull
  have hrest : rest.length + 1 = 500 := by
    have := htop.length_le
    simp only [List.length_cons] at this hfull
    omega
  have htrim : keepLast 500 (first :: rest ++ [record]) = rest ++ [record] := by
    simp [keepLast, hrest]
  simp only [step, hcall] at taken
  cases taken
  refine ⟨user, hloaded, ?_⟩
  simp only [appendItem, Function.update_self, hitems, htrim]
  exact htop.not_of_dropped hother hlt

/-- In every run whose appends, loads and restarts are in order, a `get_history` call that runs
alone answers with the newest records, and the list of a loaded user never loses one of them; an
append that is out of order makes a loaded list lose one. -/
theorem history_keeps_newest :
    (∀ s : State C τ ρ, (machine C τ ρ).Reachable InOrder s →
      (∀ user ∈ s.loadedHistoryUsers,
        TopOf HistoryRecord.timestamp 500 (s.history user) (s.recorded user)) ∧
      ((∀ c, (s.call c).inProgress = false) → ∀ c user, ∃ t shown,
        (machine C τ ρ).exec s (getHistory s c user) = some t ∧ t.call c = .returned shown ∧
          Newest shown (s.recorded user))) ∧
    (∀ (s t : State C τ ρ) c, (machine C τ ρ).Reachable InOrder s →
      step s (.append c) = some t → ¬ InOrder s (.append c) → ∃ user ∈ t.loadedHistoryUsers,
        ¬ TopOf HistoryRecord.timestamp 500 (t.history user) (t.recorded user)) := by
  refine ⟨fun s h => ?_, fun s t c h taken bad => (Kept.of_reachable h).trim_drops_newer taken bad⟩
  have hkept := Kept.of_reachable h
  exact ⟨hkept.loaded, hkept.getHistory_answers⟩

theorem strip_one : strip "1" = "1" := by decide

theorem one_ne_empty : "1" ≠ "" := by decide

def oneUser : UserId := ⟨"1", strip_one, one_ne_empty⟩

def stamped (n : ℕ) : HistoryRecord ℕ Unit := ⟨n, ()⟩

def newManager : State Unit ℕ Unit := ⟨[], fun _ => [], ∅, fun _ => .idle, fun _ => []⟩

def signs (n : ℕ) : List (Action Unit ℕ Unit) :=
  [.callAppendHistory () oneUser (stamped n), .append (), .persist ()]

def signsBefore : ℕ → List (Action Unit ℕ Unit)
  | 0 => []
  | n + 1 => signsBefore n ++ signs n

def restartsAndLoads : List (Action Unit ℕ Unit) :=
  [.restart, .callGetHistory () oneUser, .checkLoaded (), .list (), .replace (), .read ()]

theorem exec_signs {s : State Unit ℕ Unit} (free : (s.call ()).inProgress = false) (n : ℕ) :
    ∃ t, (machine Unit ℕ Unit).exec s (signs n) = some t ∧ t.call () = .idle ∧
      t.history = appendItem s.history oneUser (stamped n) ∧
      t.loadedHistoryUsers = s.loadedHistoryUsers ∧
      t.recorded = Function.update s.recorded oneUser (s.recorded oneUser ++ [stamped n]) := by
  have hcall : step s (.callAppendHistory () oneUser (stamped n)) =
      some (s.goto () (.appending oneUser (stamped n))) := by
    simp [step, free]
  refine ⟨⟨appendHistory s.rows oneUser (stamped n) 500, appendItem s.history oneUser (stamped n),
    s.loadedHistoryUsers, fun _ => .idle,
    Function.update s.recorded oneUser (s.recorded oneUser ++ [stamped n])⟩, ?_, rfl, rfl, rfl, rfl⟩
  simp only [signs, Machine.exec_cons, machine, hcall, Option.bind_some]
  rfl

structure Signed (n : ℕ) (s : State Unit ℕ Unit) : Prop where
  reached : (machine Unit ℕ Unit).Reachable InOrder s
  idle : s.call () = .idle
  unloaded : s.loadedHistoryUsers = ∅
  recorded : s.recorded oneUser = (List.range n).map stamped

theorem Signed.next {n : ℕ} {s : State Unit ℕ Unit} (h : Signed n s) :
    ∃ t, (machine Unit ℕ Unit).exec s (signs n) = some t ∧ Signed (n + 1) t := by
  have hcall : step s (.callAppendHistory () oneUser (stamped n)) =
      some (s.goto () (.appending oneUser (stamped n))) := by
    simp [step, h.idle, Call.inProgress]
  have happend : step (s.goto () (.appending oneUser (stamped n))) (.append ()) =
      some { s.goto () (.persisting oneUser (stamped n)) with
        history := appendItem s.history oneUser (stamped n)
        recorded := Function.update s.recorded oneUser (s.recorded oneUser ++ [stamped n]) } := by
    simp [step, State.goto]
  have hunloaded : ∀ user, user ∉ s.loadedHistoryUsers := by simp [h.unloaded]
  have hcalled := h.reached.tail (a := Action.callAppendHistory () oneUser (stamped n)) trivial hcall
  have happended := hcalled.tail (a := Action.append ())
    (fun user _ _ _ _ hloaded => absurd hloaded (hunloaded user)) happend
  have hpersisted := happended.tail (a := Action.persist ()) trivial rfl
  refine ⟨_, ?_, hpersisted, rfl, h.unloaded, ?_⟩
  · simp only [signs, Machine.exec_cons, machine, hcall, happend, Option.bind_some]
    rfl
  · simp [State.goto, h.recorded, List.range_succ]

theorem signsBefore_signed (n : ℕ) :
    ∃ s, (machine Unit ℕ Unit).exec newManager (signsBefore n) = some s ∧ Signed n s := by
  induction n with
  | zero =>
    have hstart : (machine Unit ℕ Unit).start newManager :=
      ⟨rfl, fun _ => rfl, rfl, fun _ => rfl, fun _ => rfl⟩
    exact ⟨newManager, rfl, Machine.Reachable.start hstart, rfl, rfl, rfl⟩
  | succ n ih =>
    obtain ⟨s, hexec, hsigned⟩ := ih
    obtain ⟨t, hnext, hsigned'⟩ := hsigned.next
    refine ⟨t, ?_, hsigned'⟩
    exact (Machine.exec_append hexec).trans hnext

theorem Signed.restarts {n : ℕ} {s : State Unit ℕ Unit} (h : Signed n s) :
    ∃ t, (machine Unit ℕ Unit).exec s restartsAndLoads = some t ∧
      (machine Unit ℕ Unit).Reachable InOrder t ∧ (t.call ()).inProgress = false ∧
      t.loadedHistoryUsers = {oneUser} ∧ t.history oneUser = listHistory s.rows oneUser 500 ∧
      t.recorded = s.recorded := by
  have hrestarted := h.reached.tail (a := Action.restart)
    (fun d user record hcall => by rw [h.idle] at hcall; cases hcall) rfl
  have hcalled := hrestarted.tail (a := Action.callGetHistory () oneUser) trivial rfl
  have hchecked := hcalled.tail (a := Action.checkLoaded ()) trivial rfl
  have hlisted := hchecked.tail (a := Action.list ()) trivial rfl
  have hreplaced := hlisted.tail (a := Action.replace ())
    (fun user cleaned hcall => by
      obtain ⟨rfl, rfl⟩ : oneUser = user ∧ listHistory s.rows oneUser 500 = cleaned :=
        Call.replacing.inj hcall
      exact ⟨rfl, fun _ _ hd => by cases hd⟩) rfl
  have hread := hreplaced.tail (a := Action.read ()) trivial rfl
  exact ⟨_, rfl, hread, rfl, rfl, by simp [State.goto], rfl⟩

theorem mem_stamped {cleaned : List (HistoryRecord ℕ Unit)} {n m : ℕ} (hm : m < n)
    (h : cleaned.Perm ((List.range n).map stamped)) : stamped m ∈ cleaned :=
  h.mem_iff.mpr (List.mem_map_of_mem (List.mem_range.mpr hm))

/-- A list loaded from the store begins with its newest record. -/
theorem first_newest {cleaned : List (HistoryRecord ℕ Unit)}
    (sorted : cleaned.Pairwise fun a b => b.timestamp ≤ a.timestamp)
    (h : cleaned.Perm ((List.range 500).map stamped)) :
    ∃ first rest, cleaned = first :: rest ∧ stamped 0 ∈ rest ∧ 0 < first.timestamp := by
  cases cleaned with
  | nil => exact absurd h.length_eq (by simp)
  | cons first rest =>
    have hpos : 0 < first.timestamp := by
      rcases List.mem_cons.mp (mem_stamped (by omega : 499 < 500) h) with heq | hmem
      · rw [← heq]
        exact Nat.succ_pos _
      · have hle : 499 ≤ first.timestamp := (List.pairwise_cons.mp sorted).1 _ hmem
        omega
    refine ⟨first, rest, rfl, ?_, hpos⟩
    rcases List.mem_cons.mp (mem_stamped (by omega : 0 < 500) h) with heq | hmem
    · rw [← heq] at hpos
      exact absurd hpos (lt_irrefl _)
    · exact hmem

/-- After a restart, a load of 500 records and one more record, the newest of the loaded ones is
no longer shown. -/
theorem newest_record_lost :
    (machine Unit ℕ Unit).start newManager ∧
    ∃ s t shown,
      (machine Unit ℕ Unit).exec newManager (signsBefore 500 ++ restartsAndLoads ++ signs 500) =
        some s ∧
      (∀ c, (s.call c).inProgress = false) ∧
      (machine Unit ℕ Unit).exec s (getHistory s () oneUser) = some t ∧
      t.call () = .returned shown ∧ ¬ Newest shown (s.recorded oneUser) := by
  refine ⟨⟨rfl, fun _ => rfl, rfl, fun _ => rfl, fun _ => rfl⟩, ?_⟩
  obtain ⟨s₁, hexec₁, hsigned⟩ := signsBefore_signed 500
  obtain ⟨s₂, hexec₂, hreached, hfree, hloaded, hhistory, hrecorded⟩ := hsigned.restarts
  have hnone : ∀ d record, s₁.call d ≠ .persisting oneUser record := by
    intro d record hcall
    rw [hsigned.idle] at hcall
    cases hcall
  have htop := (Kept.of_reachable hsigned.reached).stored_top hnone
  have hperm : (listHistory s₁.rows oneUser 500).Perm ((List.range 500).map stamped) := by
    rw [← hsigned.recorded]
    exact (listHistory_perm htop.length_le).trans
      (htop.perm_of_length_le (by simp [hsigned.recorded]))
  obtain ⟨first, rest, hcleaned, hzero, hpos⟩ :=
    first_newest (listHistory_sorted s₁.rows oneUser 500) hperm
  have hcall : step s₂ (.callAppendHistory () oneUser (stamped 500)) =
      some (s₂.goto () (.appending oneUser (stamped 500))) := by
    simp [step, hfree]
  have hcalled := hreached.tail (a := Action.callAppendHistory () oneUser (stamped 500)) trivial hcall
  have hbad : ¬ InOrder (s₂.goto () (.appending oneUser (stamped 500))) (.append ()) := by
    intro hallowed
    have hlength := hperm.length_eq
    rw [hcleaned, List.length_map, List.length_range] at hlength
    rw [hcleaned] at hhistory
    have hle := hallowed oneUser (stamped 500) first rest rfl (by simp [State.goto, hloaded])
      hhistory (by simp only [State.goto, hhistory, hlength, le_refl]) (stamped 0)
      (List.mem_append_left _ hzero)
    exact absurd hle (not_le.mpr hpos)
  obtain ⟨user, huser, hlost⟩ := (Kept.of_reachable hcalled).trim_drops_newer rfl hbad
  obtain rfl : user = oneUser := by
    simpa [State.goto, hloaded] using huser
  simp only [State.goto] at hlost
  obtain ⟨s, hexec, hidle, hhistory', hloaded', hrecorded'⟩ := exec_signs hfree 500
  obtain ⟨t, hget, hreturned⟩ := Option.map_eq_some_iff.mp
    (getHistory_returned (s := s) (fun _ => by rw [hidle]; rfl) () oneUser)
  rw [hloaded', if_pos (by simp [hloaded])] at hreturned
  have hrun : (machine Unit ℕ Unit).exec newManager (signsBefore 500 ++ restartsAndLoads) = some s₂ :=
    (Machine.exec_append hexec₁).trans hexec₂
  refine ⟨s, t, _, (Machine.exec_append hrun).trans hexec, fun _ => by rw [hidle]; rfl, hget, hreturned, fun hnewest =>
    hlost ?_⟩
  have hshown := hnewest.2.2.perm_left (List.perm_insertionSort _ _)
  rw [hhistory', hrecorded'] at hshown
  exact hshown

end UniversityHelper.SigninHistory
