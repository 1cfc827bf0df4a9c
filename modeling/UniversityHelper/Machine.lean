import Mathlib

/-! Labelled machines with partial steps, their runs, and the induction rules for
properties of runs. A run may carry a condition `ok` on every step it takes, so that
"in every run whose steps all meet the condition" is itself a run relation. -/
namespace UniversityHelper

/-- `step s a = none` says that action `a` is not enabled in state `s`. -/
structure Machine (σ α : Type*) where
  start : σ → Prop
  step : σ → α → Option σ

namespace Machine
variable {σ τ α β : Type*}

inductive Run (M : Machine σ α) (ok : σ → α → Prop) (s : σ) : σ → Prop
  | refl : Run M ok s s
  | tail {t u : σ} {a : α} (before : Run M ok s t) (allowed : ok t a)
      (taken : M.step t a = some u) : Run M ok s u

/-- The step condition that every step meets. -/
def free : σ → α → Prop := fun _ _ => True

def Reachable (M : Machine σ α) (ok : σ → α → Prop) (t : σ) : Prop :=
  ∃ s, M.start s ∧ M.Run ok s t

def exec (M : Machine σ α) (s : σ) (actions : List α) : Option σ := actions.foldlM M.step s

variable {M : Machine σ α} {ok ok' : σ → α → Prop} {s t u : σ}

theorem Run.trans (h : M.Run ok s t) (g : M.Run ok t u) : M.Run ok s u := by
  induction g with
  | refl => exact h
  | tail _ allowed taken ih => exact .tail ih allowed taken

theorem Run.mono (himp : ∀ s a, ok s a → ok' s a) (h : M.Run ok s t) : M.Run ok' s t := by
  induction h with
  | refl => exact .refl
  | tail _ allowed taken ih => exact .tail ih (himp _ _ allowed) taken

theorem Run.free (h : M.Run ok s t) : M.Run free s t := h.mono fun _ _ _ => trivial

/-- The run lemma: what every allowed step keeps, every run keeps. -/
theorem Run.keeps {I : σ → Prop} (step : ∀ s a t, I s → ok s a → M.step s a = some t → I t)
    (h : M.Run ok s t) (hs : I s) : I t := by
  induction h with
  | refl => exact hs
  | tail _ allowed taken ih => exact step _ _ _ ih allowed taken

theorem Reachable.start (h : M.start s) : M.Reachable ok s := ⟨s, h, .refl⟩

theorem Reachable.tail {a : α} (h : M.Reachable ok s) (allowed : ok s a)
    (taken : M.step s a = some t) : M.Reachable ok t := by
  obtain ⟨s₀, hs₀, run⟩ := h
  exact ⟨s₀, hs₀, run.tail allowed taken⟩

theorem Reachable.run (h : M.Reachable ok s) (g : M.Run ok s t) : M.Reachable ok t := by
  obtain ⟨s₀, hs₀, run⟩ := h
  exact ⟨s₀, hs₀, run.trans g⟩

theorem Reachable.mono (himp : ∀ s a, ok s a → ok' s a) (h : M.Reachable ok s) :
    M.Reachable ok' s := by
  obtain ⟨s₀, hs₀, run⟩ := h
  exact ⟨s₀, hs₀, run.mono himp⟩

theorem Reachable.free (h : M.Reachable ok s) : M.Reachable free s := h.mono fun _ _ _ => trivial

/-- The invariant rule: a property of the start states kept by every allowed step holds
in every state reached. -/
theorem Reachable.invariant {I : σ → Prop} (init : ∀ s, M.start s → I s)
    (step : ∀ s a t, I s → ok s a → M.step s a = some t → I t)
    (h : M.Reachable ok s) : I s := by
  obtain ⟨s₀, hs₀, run⟩ := h
  exact run.keeps step (init s₀ hs₀)

/-- The invariant rule relative to what is already known of the reached states. -/
theorem Reachable.invariant_under {J I : σ → Prop} (known : ∀ s, M.Reachable ok s → J s)
    (init : ∀ s, M.start s → I s)
    (step : ∀ s a t, J s → I s → ok s a → M.step s a = some t → I t)
    (h : M.Reachable ok s) : I s := by
  obtain ⟨s₀, hs₀, run⟩ := h
  induction run with
  | refl => exact init s₀ hs₀
  | tail before allowed taken ih =>
    exact step _ _ _ (known _ ⟨s₀, hs₀, before⟩) ih allowed taken

theorem exec_cons (a : α) (actions : List α) :
    M.exec s (a :: actions) = (M.step s a).bind fun t => M.exec t actions := rfl

theorem exec_of_step {a : α} {actions : List α} (taken : M.step s a = some t)
    (h : M.exec t actions = some u) : M.exec s (a :: actions) = some u := by
  rw [exec_cons, taken]
  exact h

theorem exec_append {first rest : List α} (h : M.exec s first = some t) :
    M.exec s (first ++ rest) = M.exec t rest := by
  rw [exec] at h
  rw [exec, List.foldlM_append, h]
  rfl

/-- Evaluating a schedule gives a run, so that a concrete trace can be checked by evaluation. -/
theorem run_of_exec_of {actions : List α} (allowed : ∀ a ∈ actions, ∀ s, ok s a)
    (h : M.exec s actions = some t) : M.Run ok s t := by
  induction actions generalizing s with
  | nil =>
    obtain rfl : s = t := by simpa [exec] using h
    exact .refl
  | cons a actions ih =>
    rw [exec_cons] at h
    obtain ⟨u, taken, rest⟩ := Option.bind_eq_some_iff.mp h
    have hfirst : M.Run ok s u := Run.refl.tail (allowed a List.mem_cons_self s) taken
    exact hfirst.trans (ih (fun b hb => allowed b (List.mem_cons_of_mem _ hb)) rest)

theorem run_of_exec {actions : List α} (h : M.exec s actions = some t) : M.Run free s t :=
  run_of_exec_of (fun _ _ _ => trivial) h

theorem reachable_of_exec (actions : List α) (hs : M.start s)
    (h : M.exec s actions = some t) : M.Reachable free t := ⟨s, hs, run_of_exec h⟩

end Machine
end UniversityHelper
