import UniversityHelper.DatabaseBootstrapSafety

/-! A process that starts anew and is answered finds its way to the end from whatever was left behind. -/
namespace UniversityHelper.DatabaseBootstrap
variable {P : Type*} [DecidableEq P] {healing : Bool} {heals : P → Bool} {s t : Server P} {p : P} {l m : Phase}
  {phase : P → Phase} {σ : State P} {n : ℕ}

structure Finished (healing : Bool) (s : Server P) (l : Phase) : Prop where
  schema : HasSchema s
  healed : healing = true → l = .healed
  ok : healing = false → l = .returned "ok" ∧ s.users = true

/-- From `l` on the process `p` finishes in `n` statements at most, if all of them succeed and nobody else acts. -/
def Finishes (heals : P → Bool) (p : P) (n : ℕ) (s : Server P) (l : Phase) : Prop :=
  ∀ phase : P → Phase, phase p = l → ∃ k ≤ n, ∃ τ,
    (machine true heals).exec ⟨s, phase⟩ (List.replicate k (.run p .done)) = some τ ∧
      Finished (heals p) τ.server (τ.phase p)

theorem Finishes.zero (h : Finished (heals p) s l) : Finishes heals p 0 s l := fun phase hphase =>
  ⟨0, le_rfl, ⟨s, phase⟩, rfl, by
    subst hphase
    exact h⟩

theorem Finishes.step (taken : processStep true (heals p) s p .done l = some (t, m)) (h : Finishes heals p n t m) :
    Finishes heals p (n + 1) s l := by
  intro phase hphase
  obtain ⟨k, hk, τ, hexec, hfinished⟩ := h (Function.update phase p m) (Function.update_self p m phase)
  refine ⟨k + 1, Nat.succ_le_succ hk, τ, Machine.exec_of_step ?_ hexec, hfinished⟩
  simp only [machine, DatabaseBootstrap.step, hphase, taken, Option.map_some]

theorem Finishes.le {k : ℕ} (hle : k ≤ n) (h : Finishes heals p k s l) : Finishes heals p n s l := by
  intro phase hphase
  obtain ⟨j, hj, rest⟩ := h phase hphase
  exact ⟨j, hj.trans hle, rest⟩

/-! ### The phases from the last one to the first -/

theorem finishes_rechecking (hheals : heals p = false) (users : s.users = true) (schema : HasSchema s) :
    Finishes heals p 2 s .recheckingUsers := by
  obtain ⟨template, htemplate, hhas⟩ := schema
  refine .step (m := .recheckingTemplate true) (t := s) ?_ (.step (m := .returned "ok") (t := s) ?_ (.zero ?_))
  · rw [processStep, users]
    rfl
  · rw [processStep, htemplate]
    rfl
  · refine ⟨⟨template, htemplate, hhas⟩, fun h => ?_, fun _ => ⟨rfl, users⟩⟩
    rw [hheals] at h
    cases h

theorem finishes_unlocking (hlock : s.lock = some p) (users : heals p = false → s.users = true)
    (schema : HasSchema s) : Finishes heals p 3 s (.unlocking true) := by
  have hstep : processStep true (heals p) s p .done (.unlocking true) =
      some ({ s with lock := none }, if heals p then .healed else .recheckingUsers) := by
    rw [processStep, if_pos hlock]
    rfl
  by_cases hheals : heals p = true
  · rw [if_pos hheals] at hstep
    refine (Finishes.step hstep (.zero ⟨schema, fun _ => rfl, fun h => ?_⟩)).le (by omega)
    rw [hheals] at h
    cases h
  · rw [if_neg hheals] at hstep
    rw [Bool.not_eq_true] at hheals
    exact .step hstep (finishes_rechecking hheals (users hheals) schema)

theorem finishes_marking (hlock : s.lock = some p) (users : heals p = false → s.users = true)
    (schema : HasSchema s) : Finishes heals p 4 s .marking := by
  obtain ⟨template, htemplate, hhas⟩ := schema
  refine .step (t := { s with template := some { template with isTemplate := true } }) (m := .unlocking true) ?_ ?_
  · rw [processStep, if_pos hlock]
    simp only [htemplate, Option.map_some]
  · exact finishes_unlocking hlock users ⟨_, rfl, hhas⟩

theorem finishes_markUnless (marked : Bool) (hlock : s.lock = some p) (users : heals p = false → s.users = true)
    (schema : HasSchema s) : Finishes heals p 4 s (markUnless marked) := by
  cases marked with
  | true => exact (finishes_unlocking hlock users schema).le (by omega)
  | false => exact finishes_marking hlock users schema

theorem finishes_applying {template : Template} (created marked : Bool) (hlock : s.lock = some p)
    (users : heals p = false → s.users = true) (htemplate : s.template = some template) :
    Finishes heals p 5 s (.applying created marked) := by
  refine .step (t := { s with template := some { template with hasSchema := true } }) (m := markUnless marked) ?_ ?_
  · simp only [processStep, htemplate]
  · exact finishes_markUnless marked hlock users ⟨_, rfl, rfl⟩

theorem finishes_locking (hfree : s.lock = none) (users : heals p = false → s.users = true) :
    Finishes heals p 8 s .locking := by
  have hmine : ({ s with lock := some p } : Server P).lock = some p := rfl
  refine .step (t := { s with lock := some p }) (m := .selecting) ?_ ?_
  · rw [processStep, if_pos rfl, if_pos (Option.isNone_iff_eq_none.mpr hfree)]
  -- what the query finds decides whether the template is created or inspected
  cases htemplate : s.template with
  | none =>
    refine .step (t := { s with lock := some p }) (m := .creating) ?_
      (.step (t := { s with lock := some p, template := some ⟨false, false⟩ }) (m := .applying true false) ?_ ?_)
    · simp only [processStep, htemplate, and_self, if_true]
    · simp only [processStep, htemplate, Option.isNone_none, and_self, if_true]
    · exact finishes_applying true false rfl users rfl
  | some template =>
    refine .step (t := { s with lock := some p }) (m := .inspecting template.isTemplate) ?_ ?_
    · simp only [processStep, htemplate, and_self, if_true]
    cases hhas : template.hasSchema with
    | true =>
      refine (Finishes.step (t := { s with lock := some p }) (m := markUnless template.isTemplate) ?_
        (finishes_markUnless template.isTemplate hmine users ⟨template, htemplate, hhas⟩)).le (by omega)
      simp only [processStep, htemplate, hhas, ne_eq, not_true_eq_false, if_false, if_true]
    | false =>
      refine .step (t := { s with lock := some p }) (m := .applying false template.isTemplate) ?_
        (finishes_applying false template.isTemplate hmine users htemplate)
      simp only [processStep, htemplate, hhas, ne_eq, not_true_eq_false, Bool.false_eq_true, if_false]

/-- What `check_schema` has found tells the rest what is missing. -/
theorem finishes_checked {users : Bool} {row : Option Bool} (hheals : heals p = false) (hfree : s.lock = none)
    (husers : users = s.users) (hrow : row = some true → HasSchema s) :
    Finishes heals p 10 s (.checked users row) := by
  subst husers
  cases hu : s.users with
  | true =>
    by_cases hready : row = some true
    · refine (Finishes.step (t := s) (m := .returned "ok") ?_ (.zero ⟨hrow hready, fun h => ?_, fun _ => ⟨rfl, hu⟩⟩)).le
        (by omega)
      · simp only [processStep, hready, decide_true, Bool.and_self, if_true]
      · rw [hheals] at h
        cases h
    · refine (Finishes.step (t := s) (m := .locking) ?_ (finishes_locking hfree fun _ => hu)).le (by omega)
      simp only [processStep, hready, decide_false, Bool.and_false, Bool.not_true, Bool.false_eq_true, if_false]
  | false =>
    refine .step (t := s) (m := .applyingMain row) ?_ ?_
    · simp only [processStep, Bool.false_and, Bool.not_true, Bool.not_false, Bool.false_eq_true, if_false, if_true]
    by_cases hready : row = some true
    · refine (Finishes.step (t := { s with users := true }) (m := .recheckingUsers) ?_
        (finishes_rechecking hheals rfl (hrow hready))).le (by omega)
      simp only [processStep, hready, if_true]
    · refine .step (t := { s with users := true }) (m := .locking) ?_ (finishes_locking hfree fun _ => rfl)
      simp only [processStep, hready, if_false]

/-- A new start of a process that finds the lock free; a template that is marked has its schema. -/
theorem finishes_idle (heals : P → Bool) (p : P) (hfree : s.lock = none)
    (marked : ∀ template, s.template = some template → template.isTemplate = true → HasSchema s) :
    Finishes heals p 13 s .idle := by
  cases hheals : heals p with
  | true =>
    have husers : heals p = false → s.users = true := by
      rw [hheals]
      exact nofun
    refine (Finishes.step (t := s) (m := .locking) ?_ (finishes_locking hfree husers)).le (by omega)
    rw [hheals]
    rfl
  | false =>
    refine .step (t := s) (m := .checkingUsers) ?_ (.step (t := s) (m := .checkingTemplate s.users) rfl
      (.step (t := s) (m := .checked s.users (s.template.map Template.isTemplate)) rfl ?_))
    · rw [hheals]
      rfl
    · refine finishes_checked hheals hfree rfl fun hrow => ?_
      obtain ⟨template, htemplate, hmark⟩ := Option.map_eq_some_iff.mp hrow
      exact marked template htemplate hmark

/-- Where the SQL files are found: from every state that the processes can get to by failing and dying, one of
them that starts anew while no other one holds the lock, and then runs alone, ends with everything in place after
at most 13 statements that succeed. -/
theorem restart_repairs (h : (machine true heals).Reachable Machine.free σ)
    (free : ∀ q, σ.server.lock = some q → q = p) :
    ∃ n ≤ 13, ∃ τ, (machine true heals).exec σ (.restart p :: List.replicate n (.run p .done)) = some τ ∧
      HasSchema τ.server ∧ (heals p = true → τ.phase p = .healed) ∧
      (heals p = false → τ.phase p = .returned "ok" ∧ τ.server.users = true) := by
  have hinv := Invariant.of_reachable h
  have hfree : (σ.server.disconnect p).lock = none := by
    refine Option.eq_none_iff_forall_ne_some.mpr fun q hq => ?_
    obtain ⟨hlock, hqp⟩ := Server.disconnect_lock hq
    exact hqp (free q hlock)
  have hmarked : ∀ template, (σ.server.disconnect p).template = some template → template.isTemplate = true →
      HasSchema (σ.server.disconnect p) := by
    rw [Server.disconnect_template]
    exact fun template htemplate hmark =>
      (Server.disconnect_hasSchema σ.server p).mpr (hinv.marked template htemplate hmark).1
  obtain ⟨n, hn, τ, hexec, hfinished⟩ := finishes_idle heals p hfree hmarked
    (Function.update σ.phase p .idle) (Function.update_self p .idle σ.phase)
  exact ⟨n, hn, τ, Machine.exec_of_step rfl hexec, hfinished.schema, hfinished.healed, hfinished.ok⟩

/-- A process that dies between the creation of the template and its schema, while it holds the lock. -/
theorem restart_repairs_halfway : ∃ σ : State Bool, σ.server.template = some ⟨false, false⟩ ∧
    σ.server.lock = some true ∧
    ∃ n ≤ 13, ∃ τ, (machine true fun _ => false).exec σ (.restart true :: List.replicate n (.run true .done)) = some τ ∧
      HasSchema τ.server ∧ (false = true → τ.phase true = .healed) ∧
      (false = false → τ.phase true = .returned "ok" ∧ τ.server.users = true) := by
  have hrun : ((machine true fun _ => false).exec newServer (List.replicate 8 (.run true .done))).any (fun σ =>
      σ.server.template.any (fun template => !template.hasSchema && !template.isTemplate) &&
        σ.server.lock = some true) = true := by decide +kernel
  rw [Option.any_eq_true] at hrun
  obtain ⟨σ, hexec, hcheck⟩ := hrun
  rw [Bool.and_eq_true, Option.any_eq_true] at hcheck
  obtain ⟨⟨⟨has, marked⟩, htemplate, hnew⟩, hlock⟩ := hcheck
  simp only [Bool.and_eq_true, Bool.not_eq_true'] at hnew
  obtain ⟨rfl, rfl⟩ := hnew
  have hstart : (machine true fun _ : Bool => false).start newServer := ⟨rfl, fun _ => rfl, nofun⟩
  refine ⟨σ, htemplate, of_decide_eq_true hlock, ?_⟩
  refine restart_repairs (Machine.reachable_of_exec _ hstart hexec) fun q hq => ?_
  exact Option.some_inj.mp (hq.symm.trans (of_decide_eq_true hlock))

end UniversityHelper.DatabaseBootstrap
