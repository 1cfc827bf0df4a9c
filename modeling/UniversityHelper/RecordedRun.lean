import UniversityHelper.Machine

/-! Machines that also keep a history of what their steps did. The history never decides a step, so
the runs are those of the machine alone. -/
namespace UniversityHelper.Machine
variable {σ α η : Type*}

/-- `note s a h` is the history after action `a` was taken in state `s`. -/
def recording (M : Machine σ α) (empty : η) (note : σ → α → η → η) : Machine (σ × η) α where
  start p := M.start p.1 ∧ p.2 = empty
  step p a := (M.step p.1 a).map fun t => (t, note p.1 a p.2)

variable {M : Machine σ α} {empty : η} {note : σ → α → η → η} {ok : σ → α → Prop} {s t : σ} {h : η}

theorem step_recording {a : α} {q : σ × η} :
    (M.recording empty note).step (s, h) a = some q ↔ M.step s a = some q.1 ∧ q.2 = note s a h := by
  obtain ⟨t, h'⟩ := q
  simp only [recording, Option.map_eq_some_iff, Prod.mk.injEq]
  constructor
  · rintro ⟨u, taken, rfl, rfl⟩
    exact ⟨taken, rfl⟩
  · rintro ⟨taken, rfl⟩
    exact ⟨t, taken, rfl, rfl⟩

/-- The invariant rule for a state together with its history. -/
theorem Reachable.recorded {I : σ → η → Prop} {J : σ → Prop}
    (reached : (M.recording empty note).Reachable (fun p a => ok p.1 a) (s, h))
    (known : ∀ s, M.Reachable ok s → J s) (init : ∀ s, M.start s → I s empty)
    (step : ∀ s a t h, J s → I s h → ok s a → M.step s a = some t → I t (note s a h)) : I s h := by
  have hboth : M.Reachable ok s ∧ I s h := by
    refine reached.invariant (I := fun p => M.Reachable ok p.1 ∧ I p.1 p.2) ?_ ?_
    · rintro ⟨s, h⟩ ⟨hs, rfl⟩
      exact ⟨.start hs, init s hs⟩
    · rintro ⟨s, h⟩ a ⟨t, h'⟩ ⟨hreach, hinv⟩ allowed taken
      obtain ⟨taken, rfl⟩ := step_recording.mp taken
      exact ⟨hreach.tail allowed taken, step s a t h (known s hreach) hinv allowed taken⟩
  exact hboth.2

/-- Every run can be recorded. -/
theorem Reachable.recordable (reached : M.Reachable ok s) :
    ∃ h, (M.recording empty note).Reachable (fun p a => ok p.1 a) (s, h) := by
  obtain ⟨s₀, hs₀, run⟩ := reached
  induction run with
  | refl => exact ⟨empty, .start ⟨hs₀, rfl⟩⟩
  | @tail t u a _ allowed taken ih =>
    obtain ⟨h, hreach⟩ := ih
    exact ⟨note t a h, hreach.tail allowed (step_recording.mpr ⟨taken, rfl⟩)⟩

end UniversityHelper.Machine
