import UniversityHelper.DatabaseBootstrap

/-! What a bootstrap reports stays true: no process takes away a template that another one may rely on, and
what a process that failed or died has left behind is repaired by the next one. -/
namespace UniversityHelper.DatabaseBootstrap
variable {P : Type*} [DecidableEq P] {bundled healing : Bool} {heals : P → Bool} {s t : Server P} {p : P}
  {answer : Answer} {l m : Phase} {phase after : P → Phase} {σ τ : State P} {a : Action P}

/-- The phases of a process that may drop the template, because it has created it itself. -/
def Phase.MayDrop : Phase → Prop
  | .applying created _ => created = true
  | .dropping => True
  | _ => False

def HasSchema (s : Server P) : Prop := ∃ template, s.template = some template ∧ template.hasSchema = true

/-- The template has its schema, and nobody who holds the lock may drop it. -/
def Established (s : Server P) (phase : P → Phase) : Prop :=
  HasSchema s ∧ ∀ p, s.lock = some p → ¬ (phase p).MayDrop

/-! ### One step of a process -/

theorem markUnless_safe (marked : Bool) : ¬ (markUnless marked).MayDrop := by
  cases marked <;> exact id

/-- All that a step of the process `p` at `l` can do. -/
inductive Effect (s : Server P) (p : P) (l : Phase) : Server P → Phase → Prop
  | look {m : Phase} (back : m.MayDrop → l.MayDrop) : Effect s p l s m
  | addUsers {row : Option Bool} {m : Phase} (phase : l = .applyingMain row) (safe : ¬ m.MayDrop) :
    Effect s p l { s with users := true } m
  | takeLock (phase : l = .locking) : Effect s p l { s with lock := some p } .selecting
  | create {m : Phase} (phase : l = .creating) (held : s.lock = some p) (missing : s.template = none) :
    Effect s p l { s with template := some ⟨false, false⟩ } m
  | applySchema {created marked : Bool} {template : Template} {m : Phase} (phase : l = .applying created marked)
    (found : s.template = some template) (back : m.MayDrop → l.MayDrop) :
    Effect s p l { s with template := some { template with hasSchema := true } } m
  | drop (phase : l = .dropping) (held : s.lock = some p) :
    Effect s p l { s with template := none } (.unlocking false)
  | mark {m : Phase} (phase : l = .marking) (held : s.lock = some p) (safe : ¬ m.MayDrop) :
    Effect s p l { s with template := s.template.map ({ · with isTemplate := true }) } m
  | leaveLock {ready : Bool} {m : Phase} (phase : l = .unlocking ready) (safe : ¬ m.MayDrop) :
    Effect s p l { s with lock := none } m

theorem process_effect (taken : processStep bundled healing s p answer l = some (t, m)) : Effect s p l t m := by
  cases l with
  | idle | checkingUsers | checkingTemplate | recheckingUsers | recheckingTemplate =>
    cases taken
    refine .look ?_
    split_ifs <;> exact id
  | checked users row =>
    cases taken
    refine .look ?_
    split_ifs <;> exact id
  | applyingMain row =>
    simp only [processStep] at taken
    split at taken <;> cases taken
    · refine .addUsers rfl ?_
      split_ifs <;> exact id
    · exact .addUsers rfl id
    · exact .look id
  | locking =>
    simp only [processStep] at taken
    split_ifs at taken <;> cases taken
    · exact .takeLock rfl
    · exact .look id
  | selecting =>
    simp only [processStep] at taken
    split_ifs at taken <;> cases taken
    · refine .look ?_
      cases s.template <;> exact id
    · exact .look id
  | creating =>
    simp only [processStep] at taken
    split_ifs at taken with hfree
    · have hnone : s.template = none := Option.isNone_iff_eq_none.mp hfree.2
      split at taken <;> cases taken
      · exact .create rfl hfree.1 hnone
      · exact .create rfl hfree.1 hnone
      · exact .look id
    · cases taken
      exact .look id
  | inspecting marked =>
    simp only [processStep] at taken
    split at taken <;> cases taken
    · exact .look id
    · refine .look ?_
      split_ifs
      · exact id
      · exact fun hdrop => absurd hdrop (markUnless_safe marked)
      · exact nofun
  | applying created marked =>
    simp only [processStep] at taken
    have hback : (if created = true then Phase.dropping else .unlocking false).MayDrop →
        (Phase.applying created marked).MayDrop := by
      split_ifs with hcreated
      · exact fun _ => hcreated
      · exact nofun
    split at taken <;> cases taken
    · rename_i htemplate
      exact .applySchema rfl htemplate fun hdrop => absurd hdrop (markUnless_safe marked)
    · rename_i htemplate
      exact .applySchema rfl htemplate hback
    · exact .look hback
  | dropping =>
    simp only [processStep] at taken
    split_ifs at taken with hdrop <;> cases taken
    · exact .drop rfl hdrop.1
    · exact .look fun _ => trivial
  | marking =>
    simp only [processStep] at taken
    split_ifs at taken with hlock
    · split at taken <;> cases taken
      · exact .mark rfl hlock id
      · exact .look id
      · exact .mark rfl hlock id
      · exact .look id
    · cases taken
      exact .look id
  | unlocking ready =>
    simp only [processStep] at taken
    by_cases hlock : s.lock = some p
    · rw [if_pos hlock] at taken
      cases taken
      refine .leaveLock rfl ?_
      split_ifs <;> exact id
    · rw [if_neg hlock] at taken
      cases taken
      exact .look id
  | returned | healed | raised => cases taken

/-- What the other processes see of a step of `p`. -/
structure Kept (s t : Server P) (p : P) : Prop where
  users : s.users = true → t.users = true
  lock : ∀ q, q ≠ p → t.lock = some q → s.lock = some q
  schema : s.lock ≠ some p → HasSchema s → HasSchema t

omit [DecidableEq P] in
theorem Kept.of_template (h : t.template = s.template) (users : s.users = true → t.users = true)
    (lock : ∀ q, q ≠ p → t.lock = some q → s.lock = some q) : Kept s t p where
  users := users
  lock := lock
  schema _ := by
    rw [HasSchema, HasSchema, h]
    exact id

theorem process_kept (taken : processStep bundled healing s p answer l = some (t, m)) : Kept s t p := by
  cases process_effect taken with
  | look => exact .of_template rfl id fun _ _ => id
  | addUsers => exact .of_template rfl (fun _ => rfl) fun _ _ => id
  | takeLock =>
    refine .of_template rfl id fun q hq hlock => ?_
    exact absurd (Option.some_inj.mp hlock).symm hq
  | create _ held => exact ⟨id, fun _ _ => id, fun h => absurd held h⟩
  | applySchema => exact ⟨id, fun _ _ => id, fun _ _ => ⟨_, rfl, rfl⟩⟩
  | drop _ held => exact ⟨id, fun _ _ => id, fun h => absurd held h⟩
  | mark _ held => exact ⟨id, fun _ _ => id, fun h => absurd held h⟩
  | leaveLock => exact .of_template rfl id fun q _ => nofun

/-- A step takes an established template away from nobody. -/
theorem process_established (h : Established s phase)
    (taken : processStep bundled healing s p answer (phase p) = some (t, m)) :
    Established t (Function.update phase p m) := by
  obtain ⟨⟨template, htemplate, hhas⟩, hsafe⟩ := h
  have hkept := process_kept taken
  have hothers : (t.lock = some p → ¬ m.MayDrop) →
      ∀ q, t.lock = some q → ¬ (Function.update phase p m q).MayDrop := by
    intro hown q hq
    obtain rfl | hqp := eq_or_ne q p
    · rw [Function.update_self]
      exact hown hq
    · rw [Function.update_of_ne hqp]
      exact hsafe q (hkept.lock q hqp hq)
  cases process_effect taken with
  | look back => exact ⟨⟨template, htemplate, hhas⟩, hothers fun hlock hdrop => hsafe p hlock (back hdrop)⟩
  | addUsers _ safe => exact ⟨⟨template, htemplate, hhas⟩, hothers fun _ => safe⟩
  | takeLock => exact ⟨⟨template, htemplate, hhas⟩, hothers fun _ => id⟩
  | create _ _ missing =>
    rw [htemplate] at missing
    cases missing
  | applySchema _ _ back => exact ⟨⟨_, rfl, rfl⟩, hothers fun hlock hdrop => hsafe p hlock (back hdrop)⟩
  | drop hl held => exact absurd (hl ▸ trivial : (phase p).MayDrop) (hsafe p held)
  | mark _ _ safe =>
    refine ⟨⟨{ template with isTemplate := true }, ?_, hhas⟩, hothers fun _ => safe⟩
    simp only [htemplate, Option.map_some]
  | leaveLock _ safe => exact ⟨⟨template, htemplate, hhas⟩, hothers fun _ => safe⟩

/-! ### What a process knows -/

/-- What is known while the process `p` stands at a phase. -/
def Phase.Formed (s : Server P) (established : Prop) (p : P) : Phase → Prop
  | .checkingTemplate users => users = true → s.users = true
  | .checked users row => (users = true → s.users = true) ∧ (row = some true → established)
  | .applyingMain row => row = some true → established
  | .marking => s.lock = some p → HasSchema s
  | .unlocking ready => ready = true → s.lock = some p → HasSchema s
  | .recheckingUsers => established
  | .recheckingTemplate users => established ∧ (users = true → s.users = true)
  | .returned label => label = "ok" → s.users = true ∧ established
  | .healed => established
  | _ => True

omit [DecidableEq P] in
theorem Phase.Formed.mono {before after : Prop} (h : l.Formed s before p)
    (users : s.users = true → t.users = true) (lock : t.lock = some p → s.lock = some p)
    (schema : t.lock = some p → HasSchema s → HasSchema t) (himp : before → after) : l.Formed t after p := by
  cases l with
  | checkingTemplate seen => exact fun hseen => users (h hseen)
  | checked seen row => exact ⟨fun hseen => users (h.1 hseen), fun hrow => himp (h.2 hrow)⟩
  | applyingMain row => exact fun hrow => himp (h hrow)
  | marking => exact fun hlock => schema hlock (h (lock hlock))
  | unlocking ready => exact fun hready hlock => schema hlock (h hready (lock hlock))
  | recheckingUsers => exact himp h
  | recheckingTemplate seen => exact ⟨himp h.1, fun hseen => users (h.2 hseen)⟩
  | returned label => exact fun hlabel => (h hlabel).imp users himp
  | healed => exact himp h
  | _ => trivial

theorem users_of_statusLabel {users : Bool} {row : Option Bool} (h : statusLabel users row = "ok") : users = true := by
  cases users with
  | false => exact absurd h (by simp [statusLabel])
  | true => rfl

omit [DecidableEq P] in
theorem markUnless_formed {established : Prop} (marked : Bool) (schema : HasSchema s) :
    (markUnless marked).Formed s established p := by
  cases marked with
  | false => exact fun _ => schema
  | true => exact fun _ _ => schema

structure Invariant (s : Server P) (phase : P → Phase) : Prop where
  marked : ∀ template, s.template = some template → template.isTemplate = true → Established s phase
  formed : ∀ p, (phase p).Formed s (Established s phase) p

/-- What the process `p` knows after its step. -/
theorem process_formed (h : Invariant s phase)
    (taken : processStep true healing s p answer (phase p) = some (t, m)) :
    m.Formed t (Established t (Function.update phase p m)) p := by
  have hlasts : Established s phase → Established t (Function.update phase p m) :=
    fun hestablished => process_established hestablished taken
  have hformed := h.formed p
  have hmark : s.template.map Template.isTemplate = some true → Established s phase := by
    intro hrow
    obtain ⟨template, htemplate, hmarked⟩ := Option.map_eq_some_iff.mp hrow
    exact h.marked template htemplate hmarked
  cases hl : phase p with
  | idle =>
    rw [hl] at taken
    cases taken
    split_ifs <;> trivial
  | checkingUsers =>
    rw [hl] at taken
    cases taken
    split_ifs
    · exact id
    · trivial
  | checkingTemplate users =>
    rw [hl] at taken hformed
    simp only [processStep] at taken
    split_ifs at taken <;> cases taken
    · exact ⟨hformed, fun hrow => hlasts (hmark hrow)⟩
    · trivial
  | checked users row =>
    rw [hl] at taken hformed
    simp only [processStep, Bool.not_true, Bool.false_eq_true, if_false] at taken
    split_ifs at taken with hok husers <;> cases taken
    · intro _
      simp only [Bool.and_eq_true, decide_eq_true_eq] at hok
      exact ⟨hformed.1 hok.1, hlasts (hformed.2 hok.2)⟩
    · exact fun hrow => hlasts (hformed.2 hrow)
    · trivial
  | applyingMain row =>
    rw [hl] at taken hformed
    simp only [processStep] at taken
    split at taken
    · split_ifs at taken with hrow <;> cases taken
      · exact hlasts (hformed hrow)
      · trivial
    · cases taken
      trivial
    · cases taken
      trivial
  | locking =>
    rw [hl] at taken
    simp only [processStep] at taken
    split_ifs at taken <;> (cases taken; trivial)
  | selecting =>
    rw [hl] at taken
    simp only [processStep] at taken
    split_ifs at taken <;> cases taken
    · cases s.template <;> trivial
    · exact nofun
  | creating =>
    rw [hl] at taken
    simp only [processStep] at taken
    split_ifs at taken
    · split at taken <;> cases taken
      · trivial
      · exact nofun
      · exact nofun
    · cases taken
      exact nofun
  | inspecting marked =>
    rw [hl] at taken
    simp only [processStep] at taken
    split at taken <;> cases taken
    · exact nofun
    · rename_i template htemplate
      split_ifs with hanswer hschema
      · exact nofun
      · exact markUnless_formed marked ⟨template, htemplate, hschema⟩
      · trivial
  | applying created marked =>
    rw [hl] at taken
    simp only [processStep] at taken
    split at taken <;> cases taken
    · exact markUnless_formed marked ⟨_, rfl, rfl⟩
    · split_ifs
      · trivial
      · exact nofun
    · split_ifs
      · trivial
      · exact nofun
  | dropping =>
    rw [hl] at taken
    simp only [processStep] at taken
    split_ifs at taken <;> (cases taken; exact nofun)
  | marking =>
    rw [hl] at taken hformed
    simp only [processStep] at taken
    split_ifs at taken with hlock
    · obtain ⟨template, htemplate, hhas⟩ := hformed hlock
      split at taken <;> cases taken
      · refine fun _ _ => ⟨{ template with isTemplate := true }, ?_, hhas⟩
        simp only [htemplate, Option.map_some]
      · exact fun _ _ => ⟨template, htemplate, hhas⟩
      · exact nofun
      · exact nofun
    · cases taken
      exact nofun
  | unlocking ready =>
    rw [hl] at taken hformed
    simp only [processStep] at taken
    by_cases hlock : s.lock = some p
    · rw [if_pos hlock] at taken
      cases taken
      have hready : (ready && decide (answer = .done)) = true → HasSchema s := by
        intro hboth
        exact hformed (Bool.and_eq_true _ _ ▸ hboth).1 hlock
      split_ifs with hboth hheals
      · exact ⟨hready hboth, nofun⟩
      · exact ⟨hready hboth, nofun⟩
      · trivial
    · rw [if_neg hlock] at taken
      cases taken
      trivial
  | recheckingUsers =>
    rw [hl] at taken hformed
    simp only [processStep] at taken
    split_ifs at taken <;> cases taken
    · exact ⟨hlasts hformed, id⟩
    · trivial
  | recheckingTemplate users =>
    rw [hl] at taken hformed
    simp only [processStep] at taken
    split_ifs at taken <;> cases taken
    · exact fun hlabel => ⟨hformed.2 (users_of_statusLabel hlabel), hlasts hformed.1⟩
    · trivial
  | returned | healed | raised =>
    rw [hl] at taken
    cases taken

/-! ### Every run -/

/-- Where the mark of a template comes from. -/
theorem process_marked {template : Template} (taken : processStep bundled healing s p answer l = some (t, m))
    (h : t.template = some template) (hmarked : template.isTemplate = true) :
    (∃ before, s.template = some before ∧ before.isTemplate = true) ∨ (l = .marking ∧ s.lock = some p) := by
  cases process_effect taken with
  | look | addUsers | takeLock | leaveLock => exact .inl ⟨template, h, hmarked⟩
  | create =>
    cases h
    cases hmarked
  | applySchema _ found =>
    cases h
    exact .inl ⟨_, found, hmarked⟩
  | drop => cases h
  | mark hl held => exact .inr ⟨hl, held⟩

theorem Invariant.run (h : Invariant s phase)
    (taken : processStep true healing s p answer (phase p) = some (t, m)) :
    Invariant t (Function.update phase p m) where
  marked template htemplate hmarked := by
    obtain ⟨before, hbefore, hwas⟩ | ⟨hl, hlock⟩ := process_marked taken htemplate hmarked
    · exact process_established (h.marked before hbefore hwas) taken
    · have hschema : HasSchema s := by
        have hformed := h.formed p
        rw [hl] at hformed
        exact hformed hlock
      have hown : ∀ q, s.lock = some q → ¬ (phase q).MayDrop := by
        intro q hq
        obtain rfl : p = q := Option.some_inj.mp (hlock.symm.trans hq)
        rw [hl]
        exact id
      exact process_established ⟨hschema, hown⟩ taken
  formed q := by
    have hkept := process_kept taken
    obtain rfl | hqp := eq_or_ne q p
    · rw [Function.update_self]
      exact process_formed h taken
    · rw [Function.update_of_ne hqp]
      refine (h.formed q).mono hkept.users (hkept.lock q hqp) (fun hlock => hkept.schema ?_)
        fun hestablished => process_established hestablished taken
      rw [hkept.lock q hqp hlock]
      exact fun heq => hqp (Option.some_inj.mp heq)

theorem Server.disconnect_template (s : Server P) (p : P) : (s.disconnect p).template = s.template := by
  rw [Server.disconnect]
  split_ifs <;> rfl

theorem Server.disconnect_users (s : Server P) (p : P) : (s.disconnect p).users = s.users := by
  rw [Server.disconnect]
  split_ifs <;> rfl

theorem Server.disconnect_lock {q : P} (h : (s.disconnect p).lock = some q) : s.lock = some q ∧ q ≠ p := by
  rw [Server.disconnect] at h
  split_ifs at h with hlock
  refine ⟨h, ?_⟩
  rintro rfl
  exact hlock h

theorem Server.disconnect_hasSchema (s : Server P) (p : P) : HasSchema (s.disconnect p) ↔ HasSchema s := by
  rw [HasSchema, HasSchema, Server.disconnect_template]

/-- A connection that ends leaves everything in place; the process stays where it is or starts anew. -/
theorem Established.disconnect (h : Established s phase) (stays : ∀ q, q ≠ p → after q = phase q) :
    Established (s.disconnect p) after := by
  refine ⟨(Server.disconnect_hasSchema s p).mpr h.1, fun q hq => ?_⟩
  obtain ⟨hlock, hqp⟩ := Server.disconnect_lock hq
  rw [stays q hqp]
  exact h.2 q hlock

theorem Invariant.disconnect (h : Invariant s phase) (stays : ∀ q, q ≠ p → after q = phase q)
    (own : after p = phase p ∨ after p = .idle) : Invariant (s.disconnect p) after where
  marked template htemplate hmarked :=
    (h.marked template (Server.disconnect_template s p ▸ htemplate) hmarked).disconnect stays
  formed q := by
    have hsame : (phase q).Formed (s.disconnect p) (Established (s.disconnect p) after) q :=
      (h.formed q).mono (fun husers => (Server.disconnect_users s p).trans husers)
        (fun hlock => (Server.disconnect_lock hlock).1)
        (fun _ => (Server.disconnect_hasSchema s p).mpr) fun hestablished => hestablished.disconnect stays
    obtain rfl | hqp := eq_or_ne q p
    · obtain hown | hown := own <;> rw [hown]
      · exact hsame
      · trivial
    · rw [stays q hqp]
      exact hsame

theorem step_run (taken : (machine bundled heals).step σ (.run p answer) = some τ) :
    ∃ t m, processStep bundled (heals p) σ.server p answer (σ.phase p) = some (t, m) ∧
      τ = ⟨t, Function.update σ.phase p m⟩ := by
  obtain ⟨⟨t, m⟩, htaken, rfl⟩ := Option.map_eq_some_iff.mp taken
  exact ⟨t, m, htaken, rfl⟩

theorem Invariant.preserved (h : Invariant σ.server σ.phase) (taken : (machine true heals).step σ a = some τ) :
    Invariant τ.server τ.phase := by
  cases a with
  | run p answer =>
    obtain ⟨t, m, htaken, rfl⟩ := step_run taken
    exact h.run htaken
  | disconnect p =>
    cases taken
    exact h.disconnect (fun _ _ => rfl) (.inl rfl)
  | restart p =>
    cases taken
    exact h.disconnect (fun q hq => Function.update_of_ne hq _ _) (.inr (Function.update_self _ _ _))

theorem Invariant.of_reachable (h : (machine true heals).Reachable Machine.free σ) :
    Invariant σ.server σ.phase := by
  refine h.invariant (I := fun σ => Invariant σ.server σ.phase) ?_ fun _ _ _ hs _ taken => hs.preserved taken
  intro s ⟨hlock, hidle, hmarked⟩
  refine ⟨fun template htemplate hmark => ⟨⟨template, htemplate, hmarked template htemplate hmark⟩, ?_⟩, fun p => ?_⟩
  · intro p hp
    rw [hlock] at hp
    cases hp
  · rw [hidle p]
    trivial

/-- What no action takes back. -/
theorem established_preserved (h : Established σ.server σ.phase)
    (taken : (machine bundled heals).step σ a = some τ) : Established τ.server τ.phase := by
  cases a with
  | run p answer =>
    obtain ⟨t, m, htaken, rfl⟩ := step_run taken
    exact process_established h htaken
  | disconnect p =>
    cases taken
    exact h.disconnect fun _ _ => rfl
  | restart p =>
    cases taken
    exact h.disconnect fun q hq => Function.update_of_ne hq _ _

theorem users_preserved (h : σ.server.users = true) (taken : (machine bundled heals).step σ a = some τ) :
    τ.server.users = true := by
  cases a with
  | run p answer =>
    obtain ⟨t, m, htaken, rfl⟩ := step_run taken
    exact (process_kept htaken).users h
  | disconnect p =>
    cases taken
    exact (Server.disconnect_users _ p).trans h
  | restart p =>
    cases taken
    exact (Server.disconnect_users _ p).trans h

/-- Where the SQL files are found, what a process reports holds from then on, whatever fails and whoever dies
afterwards: after "ok" the users and the template's schema are there, and after a repair the schema is; so it is
under every mark. -/
theorem reports_last {p : P} (h : (machine true heals).Reachable Machine.free σ)
    (after : (machine true heals).Run Machine.free σ τ) :
    (σ.phase p = .returned "ok" → τ.server.users = true ∧ HasSchema τ.server) ∧
    (σ.phase p = .healed → HasSchema τ.server) ∧
    (∀ template, σ.server.template = some template → template.isTemplate = true → HasSchema τ.server) := by
  have hinv := Invariant.of_reachable h
  have hschema : Established σ.server σ.phase → HasSchema τ.server := by
    intro hestablished
    refine (after.keeps (I := fun σ => Established σ.server σ.phase) ?_ hestablished).1
    exact fun _ _ _ hs _ taken => established_preserved hs taken
  have hformed := hinv.formed p
  refine ⟨fun hok => ?_, fun hhealed => ?_, fun template htemplate hmarked => ?_⟩
  · rw [hok] at hformed
    obtain ⟨husers, hestablished⟩ := hformed rfl
    refine ⟨after.keeps (I := fun σ => σ.server.users = true) ?_ husers, hschema hestablished⟩
    exact fun _ _ _ hs _ taken => users_preserved hs taken
  · rw [hhealed] at hformed
    exact hschema hformed
  · exact hschema (hinv.marked template htemplate hmarked)

def newServer : State Bool := ⟨⟨false, none, none⟩, fun _ => .idle⟩

/-- One process dies after `CREATE DATABASE`, and the other one repairs what it has left. -/
def diesHalfway : List (Action Bool) :=
  List.replicate 4 (.run true .done) ++ .restart true :: List.replicate 13 (.run false .done)

/-- A later repair that fails and loses its connection. -/
def failsLater : List (Action Bool) :=
  List.replicate 3 (.run true .done) ++ [.run true .refused, .disconnect true, .run true .lost]

theorem reports_last_halfway : ∃ σ τ : State Bool, σ.phase false = .returned "ok" ∧ τ.phase true = .raised ∧
    ((σ.phase false = .returned "ok" → τ.server.users = true ∧ HasSchema τ.server) ∧
    (σ.phase false = .healed → HasSchema τ.server) ∧
    (∀ template, σ.server.template = some template → template.isTemplate = true → HasSchema τ.server)) := by
  have hrun : ((machine true (· = true)).exec newServer diesHalfway).any (fun σ =>
      (σ.phase false = .returned "ok" : Bool) && ((machine true (· = true)).exec σ failsLater).any
        fun τ => (τ.phase true = .raised : Bool)) = true := by decide +kernel
  rw [Option.any_eq_true] at hrun
  obtain ⟨σ, hexec, hcheck⟩ := hrun
  rw [Bool.and_eq_true, Option.any_eq_true] at hcheck
  obtain ⟨hok, τ, hlater, hraised⟩ := hcheck
  have hstart : (machine true (· = true)).start newServer := ⟨rfl, fun _ => rfl, nofun⟩
  exact ⟨σ, τ, of_decide_eq_true hok, of_decide_eq_true hraised,
    reports_last (Machine.reachable_of_exec diesHalfway hstart hexec) (Machine.run_of_exec hlater)⟩

end UniversityHelper.DatabaseBootstrap
