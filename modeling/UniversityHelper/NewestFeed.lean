import UniversityHelper.OrderBy

/-! Feeds: elements that come one after another, listed from the largest key down and, where keys are
equal, from the last to the first. A table that is cut to its first rows after every insertion lists the
first elements of the feed. -/
namespace UniversityHelper
variable {α β κ ι : Type*} [LinearOrder κ] [LinearOrder ι]

def feed (key : α → κ) (elements : List α) : List α :=
  elements.foldl (fun listed x => listed.orderedInsert (fun a b => key b ≤ key a) x) []

variable {key : α → κ} {tie : α → ι} {rows : List α} {x : α} {k : ℕ}

theorem feed_concat (elements : List α) (x : α) : feed key (elements ++ [x]) =
    (feed key elements).orderedInsert (fun a b => key b ≤ key a) x := by
  rw [feed, List.foldl_append]
  rfl

/-- What an insertion pushes out was not among the first, and neither is what was out before it. -/
theorem take_orderedInsert_take (r : α → α → Prop) [DecidableRel r] (x : α) (k : ℕ) (listed : List α) :
    ((listed.take k).orderedInsert r x).take k = (listed.orderedInsert r x).take k := by
  induction listed generalizing k with
  | nil => simp
  | cons y listed ih =>
    cases k with
    | zero => simp
    | succ k =>
      rw [List.take_succ_cons, List.orderedInsert_cons, List.orderedInsert_cons]
      split_ifs
      · rw [List.take_succ_cons, List.take_succ_cons]
        cases k with
        | zero => rfl
        | succ k => simp [List.take_take]
      · rw [List.take_succ_cons, List.take_succ_cons, ih k]

/-- An insertion only compares the new element with those in the list. -/
theorem map_orderedInsert_of {r : α → α → Prop} {q : β → β → Prop} [DecidableRel r] [DecidableRel q]
    {f : α → β} {listed : List α} (h : ∀ y ∈ listed, r x y ↔ q (f x) (f y)) :
    (listed.orderedInsert r x).map f = (listed.map f).orderedInsert q (f x) := by
  induction listed with
  | nil => rfl
  | cons y listed ih =>
    have hrest := ih fun z hz => h z (List.mem_cons_of_mem _ hz)
    rw [List.map_cons, List.orderedInsert_cons, List.orderedInsert_cons]
    by_cases hxy : r x y
    · rw [if_pos hxy, if_pos ((h y List.mem_cons_self).mp hxy), List.map_cons, List.map_cons]
    · rw [if_neg hxy, if_neg fun hxy' => hxy ((h y List.mem_cons_self).mpr hxy'), List.map_cons, hrest]

/-- Rows with different ties have one order. -/
theorem eq_orderBy {listed : List α} (perm : listed.Perm rows) (sorted : listed.Pairwise (listedFirst key tie))
    (ties : (rows.map tie).Nodup) : listed = orderBy key tie rows := by
  refine List.Perm.eq_of_pairwise ?_ sorted (List.pairwise_insertionSort _ rows)
    (perm.trans (orderBy_perm rows).symm)
  intro a b ha hb hab hba
  have hinj := List.inj_on_of_nodup_map ties
  have hmem := (orderBy_perm rows).mem_iff.mp hb
  rcases hab with hab | ⟨hkey, htie⟩
  · rcases hba with hba | ⟨hba, -⟩
    · exact absurd hab hba.not_gt
    · exact absurd hba hab.ne'
  · rcases hba with hba | ⟨-, hba⟩
    · exact absurd hkey hba.ne'
    · exact hinj (perm.mem_iff.mp ha) hmem (le_antisymm hba htie)

/-- The row with the largest tie goes before the rows whose key is not larger. -/
theorem orderBy_concat (ties : ((rows ++ [x]).map tie).Nodup) (last : ∀ row ∈ rows, tie row < tie x) :
    orderBy key tie (rows ++ [x]) =
      (orderBy key tie rows).orderedInsert (fun a b => key b ≤ key a) x := by
  have hsame : (orderBy key tie rows).orderedInsert (fun a b => key b ≤ key a) x =
      (orderBy key tie rows).orderedInsert (listedFirst key tie) x := by
    have hmap : ((orderBy key tie rows).orderedInsert (fun a b => key b ≤ key a) x).map id =
        ((orderBy key tie rows).map id).orderedInsert (listedFirst key tie) (id x) := by
      refine map_orderedInsert_of fun row hrow => ⟨fun hle => ?_, listedFirst.key_le⟩
      have hlast := last row ((orderBy_perm rows).mem_iff.mp hrow)
      rcases hle.lt_or_eq with hlt | heq
      · exact .inl hlt
      · exact .inr ⟨heq, hlast.le⟩
    simpa only [List.map_id, id] using hmap
  rw [hsame]
  refine (eq_orderBy ?_ ?_ ties).symm
  · exact (List.perm_orderedInsert _ _ _).trans
      (((orderBy_perm rows).cons x).trans (List.perm_append_singleton x rows).symm)
  · exact (List.pairwise_insertionSort _ rows).orderedInsert _ _

/-- The rows that `DELETE` leaves are listed as the first ones before it. -/
theorem orderBy_kept {kept : List α} (ties : (rows.map tie).Nodup) (h : kept.Perm (selectTop key tie k rows)) :
    orderBy key tie kept = (orderBy key tie rows).take k := by
  have hties : (kept.map tie).Nodup := by
    have hsub := (List.take_sublist k (orderBy key tie rows)).map tie
    have hnodup : ((orderBy key tie rows).map tie).Nodup := ((orderBy_perm rows).map tie).nodup_iff.mpr ties
    exact (h.map tie).nodup_iff.mpr (hnodup.sublist hsub)
  exact (eq_orderBy h.symm ((List.pairwise_insertionSort _ rows).sublist (List.take_sublist _ _)) hties).symm

end UniversityHelper
