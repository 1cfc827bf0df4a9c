import UniversityHelper.Machine

/-! Refinement mappings: a machine whose states are read as states of another one, each of its steps as
a run of that machine. Measures: a bound on how many steps a run has left. Checks: the condition on the steps
of a schedule, evaluated with it. -/
namespace UniversityHelper.Machine
variable {σ τ α β : Type*} {M : Machine σ α} {N : Machine τ β} {ok : σ → α → Prop} {ok' : τ → β → Prop}
  {s : σ}

/-- A step that is read as no step at all. -/
theorem Run.of_eq {v w : τ} (h : w = v) : N.Run ok' v w := by
  rw [h]
  exact .refl

theorem Run.single {v w : τ} {b : β} (allowed : ok' v b) (taken : N.step v b = some w) :
    N.Run ok' v w := Run.refl.tail allowed taken

/-- The refinement rule: a mapping that holds of each step from a reachable state holds of every run. -/
theorem Reachable.mapped (f : σ → τ)
    (step : ∀ s a t, M.Reachable ok s → ok s a → M.step s a = some t → N.Run ok' (f s) (f t))
    (h : M.Reachable ok s) : ∃ s₀, M.start s₀ ∧ N.Run ok' (f s₀) (f s) := by
  obtain ⟨s₀, hs₀, run⟩ := h
  refine ⟨s₀, hs₀, ?_⟩
  induction run with
  | refl => exact .refl
  | tail before allowed taken ih => exact ih.trans (step _ _ _ ⟨s₀, hs₀, before⟩ allowed taken)

/-- The measure rule: a schedule has no more of the steps that lower the measure than the measure, where the
others do not raise it. -/
theorem countP_le_of_exec {I : σ → Prop} {measure : σ → ℕ} {lowers : α → Bool} {actions : List α} {t : σ}
    (step : ∀ a ∈ actions, ∀ s t, I s → M.step s a = some t → I t ∧ measure t + (lowers a).toNat ≤ measure s)
    (run : M.exec s actions = some t) (hs : I s) : actions.countP lowers ≤ measure s := by
  induction actions generalizing s with
  | nil => exact Nat.zero_le _
  | cons a actions ih =>
    rw [exec_cons] at run
    obtain ⟨u, taken, rest⟩ := Option.bind_eq_some_iff.mp run
    obtain ⟨hu, hless⟩ := step a List.mem_cons_self s u hs taken
    have htail := ih (fun b hb => step b (List.mem_cons_of_mem _ hb)) rest hu
    rw [List.countP_cons]
    cases hlowers : lowers a <;> simp only [hlowers, Bool.toNat_false, Bool.toNat_true] at hless ⊢ <;> simp <;> omega

/-- A schedule whose every step lowers the measure has no more steps than the measure. -/
theorem length_le_of_exec {I : σ → Prop} {measure : σ → ℕ} {actions : List α} {t : σ}
    (step : ∀ a ∈ actions, ∀ s t, I s → M.step s a = some t → I t ∧ measure t < measure s)
    (run : M.exec s actions = some t) (hs : I s) : actions.length ≤ measure s := by
  have hcount : actions.countP (fun _ => true) ≤ measure s := countP_le_of_exec step run hs
  rwa [List.countP_true] at hcount

/-- The machine that only takes the steps a check allows. -/
def checked (M : Machine σ α) (check : σ → α → Bool) : Machine σ α where
  start := M.start
  step s a := if check s a then M.step s a else none

theorem Run.of_checked {check : σ → α → Bool} {t : σ} (sound : ∀ s a, check s a = true → ok s a)
    (h : (M.checked check).Run Machine.free s t) : M.Run ok s t := by
  induction h with
  | refl => exact .refl
  | tail _ _ taken ih =>
    simp only [checked] at taken
    split_ifs at taken with hcheck
    exact ih.tail (sound _ _ hcheck) taken

theorem reachable_of_exec_checked {check : σ → α → Bool} {t : σ} (actions : List α)
    (sound : ∀ s a, check s a = true → ok s a) (hs : M.start s)
    (h : (M.checked check).exec s actions = some t) : M.Reachable ok t :=
  ⟨s, hs, (run_of_exec h).of_checked sound⟩

end UniversityHelper.Machine
