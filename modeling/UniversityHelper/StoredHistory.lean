import UniversityHelper.NewestFeed
import UniversityHelper.NewestFirst

/-! What a user sees of a history: the newest records of that user, whatever the adapter has cut off in the
meantime and whoever else writes to the same table. -/
namespace UniversityHelper.TaskStorage
variable {ρ κ : Type*} [LinearOrder κ] {column : DateTime → κ} {db : Tables ρ}
  {historyKind userId : String} {keep : ℕ}

/-- A record as it was appended, without its row id. -/
structure HistoryEntry (ρ : Type*) where
  eventTime : DateTime
  timestamp : ℤ
  payload : ρ

def HistoryRow.entry (row : HistoryRow ρ) : HistoryEntry ρ := ⟨row.eventTime, row.timestamp, row.payload⟩

def HistoryEntry.item (entry : HistoryEntry ρ) : HistoryItem ρ := ⟨none, entry.timestamp, entry.payload⟩

/-- What a call appends to the history of a user, if it does not raise. -/
def Call.entry (historyKind userId : String) : Call ρ → Option (HistoryEntry ρ)
  | .upsertTask _ _ _ => none
  | .appendHistory kind user record _ now =>
    if kind = historyKind ∧ user = userId then
      (record.stamp now).map fun timestamp => ⟨record.eventTime now, timestamp, record.payload⟩
    else none

/-- The number of records a call keeps of the history of a user. -/
def Call.Keeps (historyKind userId : String) (keep : ℕ) : Call ρ → Prop
  | .upsertTask _ _ _ => True
  | .appendHistory kind user _ maxRecords _ =>
    kind = historyKind → user = userId → safeLimit 500 5000 maxRecords = keep

/-- The row ids rise, and the rows of the user are the first of the feed. -/
structure Shows (column : DateTime → κ) (historyKind userId : String) (keep : ℕ) (db : Tables ρ)
    (entries : List (HistoryEntry ρ)) : Prop where
  ids : (db.history.map HistoryRow.id).Pairwise (· < ·)
  rows : (orderBy (fun row => column row.eventTime) HistoryRow.id
      (db.history.filter (HistoryRow.isOf historyKind userId))).map HistoryRow.entry =
    (feed (fun entry => column entry.eventTime) entries).take keep

theorem ids_concat {rows : List (HistoryRow ρ)} (ids : (rows.map HistoryRow.id).Pairwise (· < ·))
    {row : HistoryRow ρ} (hid : row.id = nextId (rows.map HistoryRow.id)) :
    ((rows ++ [row]).map HistoryRow.id).Pairwise (· < ·) := by
  rw [List.map_append, List.pairwise_append]
  refine ⟨ids, List.pairwise_singleton _ _, fun n hn m hm => ?_⟩
  obtain rfl := List.mem_singleton.mp hm
  rw [hid]
  exact lt_nextId hn

theorem trimHistory_sublist (historyKind userId : String) (keep : ℕ) (rows : List (HistoryRow ρ)) :
    (trimHistory column historyKind userId keep rows).Sublist rows := List.filter_sublist

/-- The rows of another history stay. -/
theorem filter_trimHistory {kind user : String} (h : ¬ (kind = historyKind ∧ user = userId))
    (keep : ℕ) (rows : List (HistoryRow ρ)) :
    (trimHistory column kind user keep rows).filter (HistoryRow.isOf historyKind userId) =
      rows.filter (HistoryRow.isOf historyKind userId) := by
  rw [trimHistory, List.filter_filter]
  refine List.filter_congr fun row _ => ?_
  cases hof : row.isOf historyKind userId with
  | false => rfl
  | true =>
    have hother : row.isOf kind user = false := by
      simp only [HistoryRow.isOf, decide_eq_true_eq, decide_eq_false_iff_not] at hof ⊢
      rintro ⟨rfl, rfl⟩
      exact h hof
    simp [hother]

theorem Shows.appendOther {entries : List (HistoryEntry ρ)} {kind user : String} {row : HistoryRow ρ}
    (h : Shows column historyKind userId keep db entries) (hother : ¬ (kind = historyKind ∧ user = userId))
    (hid : row.id = nextId (db.history.map HistoryRow.id)) (hof : row.historyKind = kind ∧ row.userId = user)
    (limit : ℕ) : Shows column historyKind userId keep
      { db with history := trimHistory column kind user limit (db.history ++ [row]) } entries := by
  have hrow : row.isOf historyKind userId = false := by
    simp only [HistoryRow.isOf, decide_eq_false_iff_not, hof.1, hof.2]
    exact hother
  refine ⟨(ids_concat h.ids hid).sublist ((trimHistory_sublist _ _ _ _).map _), ?_⟩
  dsimp only
  rw [filter_trimHistory hother, List.filter_append, List.filter_singleton, hrow, cond_false, List.append_nil]
  exact h.rows

theorem Shows.append {entries : List (HistoryEntry ρ)} (row : HistoryRow ρ)
    (h : Shows column historyKind userId keep db entries)
    (hid : row.id = nextId (db.history.map HistoryRow.id))
    (hof : row.historyKind = historyKind ∧ row.userId = userId) :
    Shows column historyKind userId keep
      { db with history := trimHistory column historyKind userId keep (db.history ++ [row]) }
      (entries ++ [row.entry]) := by
  have hids := ids_concat h.ids hid
  have hrow : row.isOf historyKind userId = true := by simp [HistoryRow.isOf, hof]
  refine ⟨hids.sublist ((trimHistory_sublist _ _ _ _).map _), ?_⟩
  have hall : (db.history ++ [row]).filter (HistoryRow.isOf historyKind userId) =
      db.history.filter (HistoryRow.isOf historyKind userId) ++ [row] := by
    rw [List.filter_append, List.filter_singleton, hrow, cond_true]
  have hties : ((db.history.filter (HistoryRow.isOf historyKind userId) ++ [row]).map HistoryRow.id).Nodup := by
    rw [← hall]
    exact (hids.imp ne_of_lt).sublist (List.filter_sublist.map _)
  have hlast : ∀ old ∈ db.history.filter (HistoryRow.isOf historyKind userId), old.id < row.id := by
    intro old hold
    rw [hid]
    exact lt_nextId (List.mem_map_of_mem (List.mem_of_mem_filter hold))
  have hkept : ((trimHistory column historyKind userId keep (db.history ++ [row])).filter
      (HistoryRow.isOf historyKind userId)).Perm
      (selectTop (fun row => column row.eventTime) HistoryRow.id keep
        ((db.history ++ [row]).filter (HistoryRow.isOf historyKind userId))) :=
    filter_delete_perm (hids.imp ne_of_lt) selectTop_subperm
  rw [hall] at hkept
  have hcut := orderBy_kept hties hkept
  dsimp only
  rw [hcut, orderBy_concat hties hlast, List.map_take]
  have hinsert : ((orderBy (fun row => column row.eventTime) HistoryRow.id
      (db.history.filter (HistoryRow.isOf historyKind userId))).orderedInsert
        (fun a b => column b.eventTime ≤ column a.eventTime) row).map HistoryRow.entry =
      ((feed (fun entry => column entry.eventTime) entries).take keep).orderedInsert
        (fun a b => column b.eventTime ≤ column a.eventTime) row.entry := by
    rw [← h.rows]
    exact map_orderedInsert_of fun _ _ => Iff.rfl
  rw [hinsert, take_orderedInsert_take, feed_concat]

theorem Shows.call {entries : List (HistoryEntry ρ)} {call : Call ρ}
    (h : Shows column historyKind userId keep db entries) (named : historyKind ≠ "" ∧ userId ≠ "")
    (keeps : call.Keeps historyKind userId keep) :
    Shows column historyKind userId keep (call.run column db)
      (entries ++ (call.entry historyKind userId).toList) := by
  cases call with
  | upsertTask taskKind state now =>
    simp only [Call.entry, Option.toList_none, List.append_nil, Call.run, upsertTask]
    split_ifs
    · exact ⟨h.ids, h.rows⟩
    · exact h
  | appendHistory kind user record maxRecords now =>
    simp only [Call.entry, Call.run, appendHistory]
    by_cases hof : kind = historyKind ∧ user = userId
    · obtain ⟨rfl, rfl⟩ := hof
      rw [if_neg (not_or.mpr named), if_pos ⟨rfl, rfl⟩]
      cases hstamp : record.stamp now with
      | none => simpa using h
      | some timestamp =>
        simp only [Option.map_some, Option.getD_some, Option.toList_some]
        rw [keeps rfl rfl]
        exact h.append (record.row kind user now timestamp db.history) rfl ⟨rfl, rfl⟩
    · rw [if_neg hof, Option.toList_none, List.append_nil]
      split_ifs
      · exact h
      · cases hstamp : record.stamp now with
        | none => exact h
        | some timestamp => exact h.appendOther hof rfl ⟨rfl, rfl⟩ _

theorem Shows.run (calls : List (Call ρ)) {entries : List (HistoryEntry ρ)}
    (h : Shows column historyKind userId keep db entries) (named : historyKind ≠ "" ∧ userId ≠ "")
    (keeps : ∀ call ∈ calls, call.Keeps historyKind userId keep) :
    Shows column historyKind userId keep (runCalls column db calls)
      (entries ++ calls.filterMap (Call.entry historyKind userId)) := by
  induction calls generalizing db entries with
  | nil => simpa [runCalls] using h
  | cons call calls ih =>
    have hcall := h.call named (keeps call List.mem_cons_self)
    have hrest := ih hcall fun later hlater => keeps later (List.mem_cons_of_mem _ hlater)
    have hsplit : (call :: calls).filterMap (Call.entry historyKind userId) =
        (call.entry historyKind userId).toList ++ calls.filterMap (Call.entry historyKind userId) := by
      rw [List.filterMap_cons]
      cases call.entry historyKind userId <;> rfl
    rw [hsplit, ← List.append_assoc]
    exact hrest

/-- What `list_history` returns after any calls is the newest of what was appended to the history of that
user, of equal times the last; no other call leaves a trace in it. -/
theorem history_shows_newest (column : DateTime → κ) (calls : List (Call ρ)) (historyKind userId : String)
    (limit : ℤ) (keep : ℕ) (named : historyKind ≠ "" ∧ userId ≠ "")
    (keeps : ∀ call ∈ calls, call.Keeps historyKind userId keep) :
    listHistory column historyKind userId limit (runCalls column .empty calls) =
      ((feed (fun entry => column entry.eventTime)
        (calls.filterMap (Call.entry historyKind userId))).take (min (safeLimit 500 5000 limit) keep)).map
          HistoryEntry.item := by
  have hempty : Shows column historyKind userId keep (Tables.empty (ρ := ρ)) [] :=
    ⟨by simp [Tables.empty], by simp [Tables.empty, orderBy, feed]⟩
  obtain ⟨-, hrows⟩ := hempty.run calls named keeps
  rw [List.nil_append] at hrows
  have hlisted : (HistoryRow.isListed historyKind userId : HistoryRow ρ → Bool) =
      HistoryRow.isOf historyKind userId := by
    funext row
    simp [HistoryRow.isListed, HistoryRow.isOf, named.2]
  have hitem : ∀ rows : List (HistoryRow ρ), rows.map (fun row => (⟨none, row.timestamp, row.payload⟩ :
      HistoryItem ρ)) = (rows.map HistoryRow.entry).map HistoryEntry.item := by
    intro rows
    rw [List.map_map]
    rfl
  rw [listHistory, if_neg named.1, selectTop, hlisted]
  simp only [if_neg named.2]
  rw [hitem, List.map_take, hrows, List.take_take]

/-! ### Two users -/

def firstDay : Clock := newYear (Fin.last 23)

def numbered (n : ℕ) : HistoryRecord ℕ := ⟨"success", "", some ⟨firstDay, none⟩, none, n⟩

/-- One record is kept, and another user signs in between. -/
def twoUsers : List (Call ℕ) :=
  [.appendHistory "signin" "u" (numbered 1) 1 firstDay, .appendHistory "signin" "v" (numbered 2) 1 firstDay,
    .appendHistory "signin" "u" (numbered 3) 1 firstDay]

theorem history_shows_newest_two_users :
    (listHistory DateTime.instant "signin" "u" 0 (runCalls DateTime.instant .empty twoUsers)).map
      HistoryItem.payload = [3] := by
  have hkeeps : ∀ call ∈ twoUsers, call.Keeps "signin" "u" 1 := by
    simp [twoUsers, Call.Keeps, safeLimit]
  rw [history_shows_newest DateTime.instant twoUsers "signin" "u" 0 1 ⟨by decide, by decide⟩ hkeeps]
  decide

end UniversityHelper.TaskStorage
