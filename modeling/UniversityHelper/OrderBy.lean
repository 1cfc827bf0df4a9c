import UniversityHelper.TopSelection

/-! Rows as SQL selects, orders and trims them: `ORDER BY key DESC, tie DESC`, `LIMIT`, and the
`DELETE` of the rows that such a selection leaves out. -/
namespace UniversityHelper
variable {α κ ι : Type*} [LinearOrder κ] [LinearOrder ι]

/-- The order of `key DESC, tie DESC`. -/
def listedFirst (key : α → κ) (tie : α → ι) (a b : α) : Prop :=
  key b < key a ∨ key b = key a ∧ tie b ≤ tie a

section Order
variable (key : α → κ) (tie : α → ι)

instance : DecidableRel (listedFirst key tie) :=
  fun _ _ => inferInstanceAs (Decidable (_ ∨ _ ∧ _))

instance : Std.Total (listedFirst key tie) where
  total a b := by
    rcases lt_trichotomy (key a) (key b) with h | h | h
    · exact .inr (.inl h)
    · rcases le_total (tie a) (tie b) with htie | htie
      · exact .inr (.inr ⟨h, htie⟩)
      · exact .inl (.inr ⟨h.symm, htie⟩)
    · exact .inl (.inl h)

instance : IsTrans α (listedFirst key tie) where
  trans a b c hab hbc := by
    rcases hab with hab | ⟨hab, htieab⟩
    · rcases hbc with hbc | ⟨hbc, -⟩
      · exact .inl (hbc.trans hab)
      · exact .inl (hbc ▸ hab)
    · rcases hbc with hbc | ⟨hbc, htiebc⟩
      · exact .inl (hab ▸ hbc)
      · exact .inr ⟨hbc.trans hab, htiebc.trans htieab⟩

def orderBy (rows : List α) : List α := rows.insertionSort (listedFirst key tie)

/-- `ORDER BY key DESC, tie DESC LIMIT limit`. -/
def selectTop (limit : ℕ) (rows : List α) : List α := (orderBy key tie rows).take limit

end Order

variable {key : α → κ} {tie : α → ι} {rows : List α} {limit : ℕ}

theorem listedFirst.key_le {a b : α} (h : listedFirst key tie a b) : key b ≤ key a := by
  rcases h with h | ⟨h, -⟩
  · exact h.le
  · exact h.le

theorem orderBy_perm (rows : List α) : (orderBy key tie rows).Perm rows :=
  List.perm_insertionSort _ rows

theorem orderBy_sorted (rows : List α) :
    (orderBy key tie rows).Pairwise fun a b => key b ≤ key a :=
  (List.pairwise_insertionSort _ rows).imp listedFirst.key_le

theorem selectTop_top : TopOf key limit (selectTop key tie limit rows) rows :=
  (TopOf.take_sorted (orderBy_sorted rows)).perm_right (orderBy_perm rows)

theorem selectTop_sorted : (selectTop key tie limit rows).Pairwise fun a b => key b ≤ key a :=
  (orderBy_sorted rows).sublist (List.take_sublist _ _)

theorem mem_of_mem_selectTop {a : α} (h : a ∈ selectTop key tie limit rows) : a ∈ rows :=
  selectTop_top.mem h

theorem selectTop_subperm : List.Subperm (selectTop key tie limit rows) rows :=
  (List.take_sublist _ _).subperm.trans (orderBy_perm rows).subperm

/-- A key that never stands against another one on the rows is a key they are sorted by too. -/
theorem selectTop_sorted_by {β : Type*} [LinearOrder β] {value : α → β}
    (h : ∀ a ∈ rows, ∀ b ∈ rows, key b ≤ key a → value b ≤ value a) :
    (selectTop key tie limit rows).Pairwise fun a b => value b ≤ value a := by
  apply selectTop_sorted.imp_of_mem
  intro a b ha hb hle
  exact h a (mem_of_mem_selectTop ha) b (mem_of_mem_selectTop hb) hle

theorem selectTop_perm (h : rows.length ≤ limit) : (selectTop key tie limit rows).Perm rows :=
  selectTop_top.perm_of_length_le h

/-- Where the selected rows are sorted by another value too, the key does not stand against it. -/
theorem value_le_of_key_lt {β : Type*} [LinearOrder β] {value : α → β}
    (h : (selectTop key tie limit rows).Pairwise fun a b => value b ≤ value a) {a b : α}
    (ha : a ∈ selectTop key tie limit rows) (hb : b ∈ selectTop key tie limit rows)
    (hlt : key a < key b) : value a ≤ value b := by
  have hboth := selectTop_sorted.and h
  have heither : ∀ x ∈ selectTop key tie limit rows, ∀ y ∈ selectTop key tie limit rows,
      (key y ≤ key x ∧ value y ≤ value x) ∨ (key x ≤ key y ∧ value x ≤ value y) := by
    apply List.Pairwise.forall_of_forall_of_flip
    · exact fun x _ => .inl ⟨le_rfl, le_rfl⟩
    · exact hboth.imp fun hxy => .inl hxy
    · exact hboth.imp fun hxy => .inr hxy
  rcases heither a ha b hb with hab | hab
  · exact absurd hab.1 (not_le.mpr hlt)
  · exact hab.2

/-- `DELETE … WHERE p AND id NOT IN (…)` leaves, of the rows of `p`, the selected ones. -/
theorem filter_delete_perm {id : α → ι} {p : α → Bool} {selected : List α}
    (ids : (rows.map id).Nodup) (h : List.Subperm selected (rows.filter p)) :
    ((rows.filter fun row => ¬ (p row ∧ id row ∉ selected.map id)).filter p).Perm selected := by
  have hrows := List.Nodup.of_map _ ids
  have hinj := List.inj_on_of_nodup_map ids
  have hmem : ∀ row ∈ selected, row ∈ rows ∧ p row = true := fun row hrow =>
    List.mem_filter.mp (h.subset hrow)
  have hselected : selected.Nodup := by
    obtain ⟨l, hperm, hsub⟩ := h
    exact hperm.nodup_iff.mp ((hrows.filter _).sublist hsub)
  rw [List.perm_ext_iff_of_nodup ((hrows.filter _).filter _) hselected]
  intro row
  simp only [List.mem_filter, decide_eq_true_eq, not_and, not_not]
  constructor
  · rintro ⟨⟨hrow, hkeep⟩, hp⟩
    obtain ⟨chosen, hchosen, hid⟩ := List.mem_map.mp (hkeep hp)
    rw [← hinj (hmem chosen hchosen).1 hrow hid]
    exact hchosen
  · intro hrow
    exact ⟨⟨(hmem row hrow).1, fun _ => List.mem_map_of_mem hrow⟩, (hmem row hrow).2⟩

/-- The row id of the next row of a table. -/
def nextId (ids : List ℕ) : ℕ := ids.foldr max 0 + 1

theorem lt_nextId {ids : List ℕ} {n : ℕ} (h : n ∈ ids) : n < nextId ids := by
  apply Nat.lt_succ_of_le
  induction ids with
  | nil => cases h
  | cons i ids ih =>
    rcases List.mem_cons.mp h with rfl | h
    · exact le_max_left _ _
    · exact (ih h).trans (le_max_right _ _)

end UniversityHelper
