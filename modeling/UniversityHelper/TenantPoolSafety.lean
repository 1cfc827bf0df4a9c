import UniversityHelper.TenantPool

set_option linter.unusedSectionVars false

namespace UniversityHelper.TenantPool

section eviction
variable {Name : Type*} [DecidableEq Name]

/-- An eviction drops one idle entry, or there is none. -/
theorem evictIfIdleLocked_cases (s : Shared Name) :
    (evictIfIdleLocked s = s ∧ ∀ e ∈ s.tenantPools.values, e.inUse ≠ 0) ∨
    ∃ name entry, s.tenantPools.get name = some entry ∧ entry.inUse = 0 ∧
      evictIfIdleLocked s = s.evict name entry := by
  unfold evictIfIdleLocked
  cases h : s.tenantPools.entries.find? fun e => e.2.inUse = 0 with
  | none =>
    refine Or.inl ⟨rfl, fun e he => ?_⟩
    obtain ⟨p, hp, rfl⟩ := List.mem_map.mp he
    simpa using List.find?_eq_none.mp h p hp
  | some p =>
    have hidle := List.find?_some h
    have hmem := List.mem_of_find?_eq_some h
    exact Or.inr ⟨p.1, p.2, OrderedDict.get_eq_some.mpr hmem, by simpa using hidle, rfl⟩

/-- What every eviction of an idle entry keeps, the eviction loop keeps. -/
theorem evictUntilRoom_keeps {P : Shared Name → Prop}
    (keep : ∀ s name entry, P s → s.tenantPools.get name = some entry → entry.inUse = 0 →
      P (s.evict name entry))
    (fuel : ℕ) {s : Shared Name} (hs : P s) : P (evictUntilRoom fuel s) := by
  have one : ∀ s, P s → P (evictIfIdleLocked s) := by
    intro s hs
    rcases evictIfIdleLocked_cases s with ⟨h, _⟩ | ⟨name, entry, hget, hidle, h⟩
    · rwa [h]
    · rw [h]
      exact keep s name entry hs hget hidle
  induction fuel generalizing s with
  | zero => exact hs
  | succ fuel ih =>
    simp only [evictUntilRoom]
    split_ifs
    · exact hs
    · exact one s hs
    · exact ih (one s hs)

/-- The loop leaves for one of its two reasons: there is room, or nothing idle is left. -/
theorem evictUntilRoom_exit (fuel : ℕ) {s : Shared Name} (h : s.tenantPools.size ≤ fuel) :
    (evictUntilRoom fuel s).tenantPools.size < maxTenantPools ∨
    ∀ e ∈ (evictUntilRoom fuel s).tenantPools.values, e.inUse ≠ 0 := by
  induction fuel generalizing s with
  | zero =>
    left
    have : s.tenantPools.size = 0 := by omega
    simp [evictUntilRoom, this, maxTenantPools]
  | succ fuel ih =>
    simp only [evictUntilRoom]
    rcases evictIfIdleLocked_cases s with ⟨hsame, hbusy⟩ | ⟨name, entry, hget, _, hone⟩
    · split_ifs with hroom hsize
      · exact Or.inl hroom
      · rw [hsame]
        exact Or.inr hbusy
      · exact absurd (by rw [hsame]) hsize
    · have hsmaller := OrderedDict.size_erase_of_known hget
      have hafter : (evictIfIdleLocked s).tenantPools.size + 1 = s.tenantPools.size := by
        rw [hone]
        exact hsmaller
      split_ifs with hroom hsize
      · exact Or.inl hroom
      · omega
      · exact ih (by omega)

theorem evictUntilRoom_get_none (fuel : ℕ) {s : Shared Name} {name : Name}
    (h : s.tenantPools.get name = none) :
    (evictUntilRoom fuel s).tenantPools.get name = none := by
  apply evictUntilRoom_keeps (P := fun s => s.tenantPools.get name = none) _ fuel h
  intro s other entry hs _ _
  simp [Shared.evict, hs]

/-- The locked part of a checkout that creates a pool leaves at most `maxTenantPools` pools,
or only busy ones. -/
theorem checkout_bound {s : Shared Name} {name : Name} (h : s.tenantPools.get name = none) :
    (checkoutTenantLocked s name true).1.tenantPools.size ≤
      max maxTenantPools (busy (checkoutTenantLocked s name true).1) := by
  have hnone := evictUntilRoom_get_none s.tenantPools.size h
  have hsize : (checkoutTenantLocked s name true).1.tenantPools.size =
      (evictUntilRoom s.tenantPools.size s).tenantPools.size + 1 := by
    simp [checkoutTenantLocked, h, OrderedDict.size_set_of_new hnone]
  rcases evictUntilRoom_exit s.tenantPools.size (le_refl _) with hroom | hbusy
  · omega
  · have hall : ∀ e ∈ (checkoutTenantLocked s name true).1.tenantPools.values,
        decide (e.inUse ≠ 0) = true := by
      intro e he
      obtain ⟨other, hother⟩ := OrderedDict.mem_values.mp he
      simp only [checkoutTenantLocked, h, if_true, OrderedDict.get_modify,
        OrderedDict.get_set] at hother
      rcases eq_or_ne other name with heq | hne
      · simp only [heq, if_true, Option.map_some, Option.some.injEq] at hother
        simp [← hother, Entry.bump]
      · simp only [hne, if_false] at hother
        simpa using hbusy e (OrderedDict.mem_values.mpr ⟨other, hother⟩)
    have hcount := List.countP_eq_length.mpr hall
    have hlen : (checkoutTenantLocked s name true).1.tenantPools.values.length =
        (checkoutTenantLocked s name true).1.tenantPools.size := by
      simp [OrderedDict.values, OrderedDict.size]
    simp only [busy]
    omega

/-- A checkout of a tenant that has a pool neither creates nor evicts one. -/
theorem checkout_known_size {s : Shared Name} {name : Name} {entry : Entry}
    (h : s.tenantPools.get name = some entry) (built : Bool) :
    (checkoutTenantLocked s name built).1.tenantPools.size = s.tenantPools.size := by
  simp [checkoutTenantLocked, h, OrderedDict.size_moveToEnd]

theorem checkout_known_closed {s : Shared Name} {name : Name} {entry : Entry}
    (h : s.tenantPools.get name = some entry) (built : Bool) :
    (checkoutTenantLocked s name built).1.closed = s.closed := by
  simp [checkoutTenantLocked, h]

end eviction

section counts
variable {T Name : Type*} [Fintype T] [DecidableEq T] [DecidableEq Name]

def Phase.refs (ph : Phase Name) (pool : ℕ) : ℕ :=
  if ph.checkout.map Prod.snd = some pool then 1 else 0

@[simp] theorem refs_idle (pool : ℕ) : (Phase.idle : Phase Name).refs pool = 0 := rfl

theorem refs_of_checkout {ph : Phase Name} {name : Name} {pool : ℕ}
    (h : ph.checkout = some (name, pool)) (p : ℕ) : ph.refs p = if pool = p then 1 else 0 := by
  simp [Phase.refs, h]

theorem outstanding_locked (s : State T Name) (t : T) (shared : Shared Name) (next : Phase Name)
    (pool : ℕ) : outstanding (s.locked t shared next) pool + (s.phase t).refs pool =
      outstanding s pool + next.refs pool :=
  load_update (fun ph : Phase Name => ph.refs pool) s.phase t next

theorem outstanding_goto {s : State T Name} {t : T} {next : Phase Name}
    (h : next.checkout = (s.phase t).checkout) (pool : ℕ) :
    outstanding (s.goto t next) pool = outstanding s pool := by
  have hload := outstanding_locked s t s.toShared next pool
  simp only [Phase.refs, h] at hload
  exact Nat.add_right_cancel hload

theorem outstanding_pos {s : State T Name} {t : T} {name : Name} {pool : ℕ}
    (h : (s.phase t).checkout = some (name, pool)) : 1 ≤ outstanding s pool := by
  have hle := weight_le_load
    (fun ph : Phase Name => if ph.checkout.map Prod.snd = some pool then 1 else 0) s.phase t
  simpa [h, outstanding] using hle

/-- What `_release_tenant` remembers of its lookup is the pool its connection came from. -/
def Phase.Consistent : Phase Name → Prop
  | .returning _ pool found _ => found = some pool
  | .dropping _ pool found => found = pool
  | _ => True

structure Safe (s : State T Name) : Prop where
  counted : ∀ name e, s.tenantPools.get name = some e → e.inUse = outstanding s e.pool
  registered : ∀ t name pool, (s.phase t).checkout = some (name, pool) →
    ∃ e, s.tenantPools.get name = some e ∧ e.pool = pool
  oneName : ∀ name name' e e', s.tenantPools.get name = some e →
    s.tenantPools.get name' = some e' → e.pool = e'.pool → name = name'
  allocated : ∀ name e, s.tenantPools.get name = some e → e.pool < s.nextPool
  closedAllocated : ∀ p ∈ s.closed, p < s.nextPool
  closedGone : ∀ name e, s.tenantPools.get name = some e → e.pool ∉ s.closed
  closedOnce : s.closed.Nodup
  consistent : ∀ t, (s.phase t).Consistent

theorem safe_initial : Safe (initial : State T Name) where
  counted := by simp [initial]
  registered := by simp [initial, Phase.checkout]
  oneName := by simp [initial]
  allocated := by simp [initial]
  closedAllocated := by simp [initial]
  closedGone := by simp [initial]
  closedOnce := List.nodup_nil
  consistent := fun _ => trivial

/-- No thread is in a checkout of an entry whose counter is zero. -/
theorem Safe.unreferenced {s : State T Name} (hs : Safe s) {name : Name} {e : Entry}
    (hget : s.tenantPools.get name = some e) (hidle : e.inUse = 0) (t : T) (other : Name)
    (pool : ℕ) (h : (s.phase t).checkout = some (other, pool)) : other ≠ name := by
  rintro rfl
  obtain ⟨e', hget', rfl⟩ := hs.registered t other pool h
  rw [hget] at hget'
  cases hget'
  have hpos := outstanding_pos h
  have hcount := hs.counted other e hget
  omega

theorem Safe.evict {shared : Shared Name} {phase : T → Phase Name} {name : Name} {e : Entry}
    (hs : Safe ⟨shared, phase⟩) (hget : shared.tenantPools.get name = some e)
    (hidle : e.inUse = 0) : Safe (⟨shared.evict name e, phase⟩ : State T Name) := by
  have hkept : ∀ other e', (shared.evict name e).tenantPools.get other = some e' →
      other ≠ name ∧ shared.tenantPools.get other = some e' := by
    intro other e' h
    simpa [Shared.evict] using h
  refine ⟨?_, ?_, ?_, ?_, ?_, ?_, ?_, hs.consistent⟩
  · intro other e' h
    exact hs.counted other e' (hkept other e' h).2
  · intro t other pool h
    obtain ⟨e', hget', hpool⟩ := hs.registered t other pool h
    have hne := hs.unreferenced hget hidle t other pool h
    exact ⟨e', by simpa [Shared.evict, hne] using hget', hpool⟩
  · intro a b ea eb ha hb
    exact hs.oneName a b ea eb (hkept a ea ha).2 (hkept b eb hb).2
  · intro other e' h
    exact hs.allocated other e' (hkept other e' h).2
  · intro p hp
    rcases List.mem_append.mp hp with hp | hp
    · exact hs.closedAllocated p hp
    · obtain rfl := List.mem_singleton.mp hp
      exact hs.allocated name e hget
  · intro other e' h hp
    obtain ⟨hne, h⟩ := hkept other e' h
    rcases List.mem_append.mp hp with hp | hp
    · exact hs.closedGone other e' h hp
    · exact hne (hs.oneName other name e' e h hget (List.mem_singleton.mp hp))
  · refine List.Nodup.append hs.closedOnce (List.nodup_singleton _) ?_
    simpa using hs.closedGone name e hget

theorem Safe.makeRoom {s : State T Name} (hs : Safe s) (fuel : ℕ) :
    Safe (⟨evictUntilRoom fuel s.toShared, s.phase⟩ : State T Name) :=
  evictUntilRoom_keeps (P := fun shared => Safe ⟨shared, s.phase⟩)
    (fun _ _ _ h hget hidle => h.evict hget hidle) fuel hs

/-- A step outside the lock that stays in the same checkout. -/
theorem Safe.goto {s : State T Name} (hs : Safe s) {t : T} {next : Phase Name}
    (hsame : next.checkout = (s.phase t).checkout) (hnext : next.Consistent) :
    Safe (s.goto t next) := by
  refine ⟨?_, ?_, hs.oneName, hs.allocated, hs.closedAllocated, hs.closedGone, hs.closedOnce, ?_⟩
  · intro name e h
    rw [outstanding_goto hsame]
    exact hs.counted name e h
  · intro u name pool h
    rcases eq_or_ne u t with rfl | hne
    · simp only [State.goto, State.locked, Function.update_self, hsame] at h
      exact hs.registered u name pool h
    · simp only [State.goto, State.locked, Function.update_of_ne hne] at h
      exact hs.registered u name pool h
  · intro u
    rcases eq_or_ne u t with rfl | hne
    · simpa [State.goto, State.locked] using hnext
    · simpa [State.goto, State.locked, hne] using hs.consistent u

/-- The entry a thread's checkout used is still there, and counts that checkout. -/
theorem Safe.found {s : State T Name} (hs : Safe s) {t : T} {name : Name} {pool : ℕ}
    (h : (s.phase t).checkout = some (name, pool)) :
    ∃ e, s.tenantPools.get name = some e ∧ e.pool = pool ∧ 1 ≤ e.inUse := by
  obtain ⟨e, hget, rfl⟩ := hs.registered t name pool h
  have hpos := outstanding_pos h
  have hcount := hs.counted name e hget
  exact ⟨e, hget, rfl, by omega⟩

/-- The end of a checkout: the cleanup block finds the entry and takes back the reference. -/
theorem Safe.release {s : State T Name} (hs : Safe s) {t : T} {name : Name} {pool : ℕ}
    (h : (s.phase t).checkout = some (name, pool)) :
    Safe (s.locked t (dropRefLocked s.toShared name pool) .idle) := by
  obtain ⟨e, hget, rfl, hpos⟩ := hs.found h
  have hshared : dropRefLocked s.toShared name e.pool =
      { s.toShared with tenantPools := s.tenantPools.modify name Entry.dropRef } := by
    simp [dropRefLocked, hget]
  rw [hshared]
  have hrest : ∀ other e', (s.tenantPools.modify name Entry.dropRef).get other = some e' →
      ∃ e₀, s.tenantPools.get other = some e₀ ∧ e'.pool = e₀.pool ∧
        e'.inUse = if other = name then e.inUse - 1 else e₀.inUse := by
    intro other e' h'
    rw [OrderedDict.get_modify] at h'
    rcases eq_or_ne other name with rfl | hne
    · simp only [if_true, hget, Option.map_some, Option.some.injEq] at h'
      subst h'
      exact ⟨e, hget, rfl, by simp only [Entry.dropRef, if_true]; omega⟩
    · simp only [hne, if_false] at h'
      exact ⟨e', h', rfl, by simp [hne]⟩
  refine ⟨?_, ?_, ?_, ?_, hs.closedAllocated, ?_, hs.closedOnce, ?_⟩
  · intro other e' h'
    obtain ⟨e₀, hget₀, hpool, huse⟩ := hrest other e' h'
    have hload := outstanding_locked s t
      { s.toShared with tenantPools := s.tenantPools.modify name Entry.dropRef } .idle e'.pool
    rw [refs_idle, refs_of_checkout h, hpool] at hload
    have hcount := hs.counted other e₀ hget₀
    rw [huse, hpool]
    rcases eq_or_ne other name with rfl | hne
    · rw [hget] at hget₀
      cases hget₀
      simp only [↓reduceIte] at hload ⊢
      omega
    · have hpne : ¬ e.pool = e₀.pool := fun hp => hne (hs.oneName other name e₀ e hget₀ hget hp.symm)
      simp only [hpne, hne, ↓reduceIte] at hload ⊢
      omega
  · intro u other pool' h'
    rcases eq_or_ne u t with rfl | hne
    · simp [State.locked, Phase.checkout] at h'
    · simp only [State.locked, Function.update_of_ne hne] at h'
      obtain ⟨e', hget', rfl⟩ := hs.registered u other pool' h'
      rcases eq_or_ne other name with rfl | hname
      · exact ⟨e'.dropRef, by simp [State.locked, hget'], rfl⟩
      · exact ⟨e', by simpa [State.locked, hname] using hget', rfl⟩
  · intro a b ea eb ha hb hp
    obtain ⟨ea₀, ha₀, hpa, _⟩ := hrest a ea ha
    obtain ⟨eb₀, hb₀, hpb, _⟩ := hrest b eb hb
    exact hs.oneName a b ea₀ eb₀ ha₀ hb₀ (by rw [← hpa, ← hpb, hp])
  · intro other e' h'
    obtain ⟨e₀, hget₀, hpool, _⟩ := hrest other e' h'
    rw [hpool]
    exact hs.allocated other e₀ hget₀
  · intro other e' h'
    obtain ⟨e₀, hget₀, hpool, _⟩ := hrest other e' h'
    rw [hpool]
    exact hs.closedGone other e₀ hget₀
  · intro u
    rcases eq_or_ne u t with rfl | hne
    · simp [State.locked, Phase.Consistent]
    · simpa [State.locked, hne] using hs.consistent u

/-- A checkout enters the map at `name` with one more reference, in a map that is otherwise
the old one. -/
theorem Safe.enter {s : State T Name} (hs : Safe s) {t : T} (hidle : s.phase t = .idle)
    {name : Name} {shared : Shared Name} {e : Entry} (hclosed : shared.closed = s.closed)
    (hnext : s.nextPool ≤ shared.nextPool) (hnew : e.pool < shared.nextPool)
    (hget : ∀ other, shared.tenantPools.get other =
      if other = name then some e else s.tenantPools.get other)
    (hself : (∃ e₀, s.tenantPools.get name = some e₀ ∧ e = e₀.bump) ∨
      (s.tenantPools.get name = none ∧ e.pool = s.nextPool ∧ e.inUse = 1)) :
    Safe (s.locked t shared (.getting name e.pool)) := by
  have hload := outstanding_locked s t shared (.getting name e.pool)
  have hgetting := refs_of_checkout (show (Phase.getting name e.pool).checkout = _ from rfl)
  simp only [hidle, refs_idle, hgetting] at hload
  have hother : ∀ other e', s.tenantPools.get other = some e' → other ≠ name → e.pool ≠ e'.pool := by
    intro other e' h hne hp
    rcases hself with ⟨e₀, h₀, rfl⟩ | ⟨_, hfresh, _⟩
    · exact hne (hs.oneName other name e' e₀ h h₀ hp.symm)
    · have := hs.allocated other e' h
      omega
  have hgone : e.pool ∉ s.closed := by
    rcases hself with ⟨e₀, h₀, rfl⟩ | ⟨_, hfresh, _⟩
    · exact hs.closedGone name e₀ h₀
    · intro hp
      have := hs.closedAllocated _ hp
      omega
  have hsplit : ∀ other e', (s.locked t shared (.getting name e.pool)).tenantPools.get other =
      some e' → (other = name ∧ e' = e) ∨ (other ≠ name ∧ s.tenantPools.get other = some e') := by
    intro other e' h
    simp only [State.locked, hget] at h
    rcases eq_or_ne other name with rfl | hne
    · simp only [if_true, Option.some.injEq] at h
      exact Or.inl ⟨rfl, h.symm⟩
    · simp only [hne, if_false] at h
      exact Or.inr ⟨hne, h⟩
  refine ⟨?_, ?_, ?_, ?_, ?_, ?_, ?_, ?_⟩
  · intro other e' h
    rcases hsplit other e' h with ⟨rfl, rfl⟩ | ⟨hne, h⟩
    · have hp := hload e'.pool
      rw [if_pos rfl] at hp
      rcases hself with ⟨e₀, h₀, rfl⟩ | ⟨hnone, hfresh, huse⟩
      · have hcount := hs.counted other e₀ h₀
        simp only [Entry.bump] at hp ⊢
        omega
      · have hzero : outstanding s e'.pool = 0 := by
          refine load_eq_zero.mpr fun u => ?_
          rw [if_neg]
          intro hu
          obtain ⟨⟨n, q⟩, hc, hq⟩ := Option.map_eq_some_iff.mp hu
          obtain ⟨e₁, h₁, hp₁⟩ := hs.registered u n q hc
          have := hs.allocated n e₁ h₁
          simp only at hq
          omega
        omega
    · have hp := hload e'.pool
      rw [if_neg (hother other e' h hne)] at hp
      have hcount := hs.counted other e' h
      omega
  · intro u other pool h
    rcases eq_or_ne u t with rfl | hne
    · simp only [State.locked, Function.update_self, Phase.checkout, Option.some.injEq,
        Prod.mk.injEq] at h
      obtain ⟨rfl, rfl⟩ := h
      exact ⟨e, by simp [State.locked, hget], rfl⟩
    · simp only [State.locked, Function.update_of_ne hne] at h
      obtain ⟨e', hget', rfl⟩ := hs.registered u other pool h
      rcases eq_or_ne other name with rfl | hname
      · rcases hself with ⟨e₀, h₀, rfl⟩ | ⟨hnone, _, _⟩
        · rw [h₀] at hget'
          cases hget'
          exact ⟨_, (hget other).trans (if_pos rfl), rfl⟩
        · rw [hnone] at hget'
          cases hget'
      · exact ⟨e', by simp [State.locked, hget, hname, hget'], rfl⟩
  · intro a b ea eb ha hb hp
    rcases hsplit a ea ha with ⟨rfl, rfl⟩ | ⟨hna, ha'⟩ <;>
      rcases hsplit b eb hb with ⟨rfl, rfl⟩ | ⟨hnb, hb'⟩
    · rfl
    · exact absurd hp (hother b eb hb' hnb)
    · exact absurd hp.symm (hother a ea ha' hna)
    · exact hs.oneName a b ea eb ha' hb' hp
  · intro other e' h
    rcases hsplit other e' h with ⟨rfl, rfl⟩ | ⟨_, h⟩
    · exact hnew
    · exact (hs.allocated other e' h).trans_le hnext
  · intro p hp
    exact (hs.closedAllocated p (by rwa [← hclosed])).trans_le hnext
  · intro other e' h hp
    simp only [State.locked, hclosed] at hp
    rcases hsplit other e' h with ⟨rfl, rfl⟩ | ⟨_, h⟩
    · exact hgone hp
    · exact hs.closedGone other e' h hp
  · simpa [State.locked, hclosed] using hs.closedOnce
  · intro u
    rcases eq_or_ne u t with rfl | hne
    · simp [State.locked, Phase.Consistent]
    · simpa [State.locked, hne] using hs.consistent u

theorem Safe.checkout {s s' : State T Name} (hs : Safe s) {t : T} {name : Name} {built : Bool}
    (h : step s (.checkout t name built) = some s') : Safe s' := by
  simp only [step] at h
  split at h
  case h_2 => cases h
  case h_1 hidle =>
  cases hget : s.tenantPools.get name with
  | some e₀ =>
    simp only [checkoutTenantLocked, hget, Option.some.injEq] at h
    subst h
    refine hs.enter (e := e₀.bump) hidle rfl (le_refl _) (hs.allocated name e₀ hget) ?_
      (Or.inl ⟨e₀, hget, rfl⟩)
    intro other
    rw [OrderedDict.get_modify, OrderedDict.get_moveToEnd]
    rcases eq_or_ne other name with rfl | hne
    · simp [hget]
    · simp [hne]
  | none =>
    have hroom := hs.makeRoom s.tenantPools.size
    have hnone := evictUntilRoom_get_none s.tenantPools.size hget
    simp only [checkoutTenantLocked, hget] at h
    cases built with
    | true =>
      simp only [if_true, Option.some.injEq] at h
      subst h
      refine hroom.enter (e := ⟨_, 1⟩) hidle rfl (Nat.le_succ _) (Nat.lt_succ_self _) ?_
        (Or.inr ⟨hnone, rfl, rfl⟩)
      intro other
      rw [OrderedDict.get_modify, OrderedDict.get_set]
      rcases eq_or_ne other name with rfl | hne
      · simp [Entry.bump]
      · simp [hne]
    | false =>
      simp only [Bool.false_eq_true, if_false, Option.some.injEq] at h
      subst h
      have hphase : Function.update s.phase t .idle = s.phase := by
        rw [← hidle, Function.update_eq_self]
      simpa [State.locked, hphase] using hroom

/-- The step lemma: every action of every thread keeps the pools safe. -/
theorem Safe.preserved {s s' : State T Name} (hs : Safe s) {a : Action T Name}
    (h : step s a = some s') : Safe s' := by
  cases a with
  | checkout t name built => exact hs.checkout h
  | getconn t ok =>
    simp only [step] at h
    split at h
    case h_2 => cases h
    case h_1 name pool hphase =>
    cases h
    cases ok
    · exact hs.goto (by rw [hphase]; rfl) trivial
    · exact hs.goto (by rw [hphase]; rfl) trivial
  | undo t =>
    simp only [step] at h
    split at h
    case h_2 => cases h
    case h_1 name pool hphase =>
    cases h
    exact hs.release (by rw [hphase]; rfl)
  | lookup t close =>
    simp only [step] at h
    split at h
    case h_2 => cases h
    case h_1 name pool hphase =>
    cases h
    obtain ⟨e, hget, rfl, _⟩ := hs.found (t := t) (by rw [hphase]; rfl)
    exact hs.goto (by rw [hphase]; rfl) (by simp [Phase.Consistent, hget])
  | putconn t accepted =>
    simp only [step] at h
    have hconsistent := hs.consistent t
    split at h
    case h_1 hphase =>
      rw [hphase] at hconsistent
      cases hconsistent
    case h_2 name pool found close hphase =>
      cases h
      rw [hphase] at hconsistent
      cases hconsistent
      exact hs.goto (by rw [hphase]; rfl) rfl
    case h_3 => cases h
  | drop t =>
    simp only [step] at h
    split at h
    case h_2 => cases h
    case h_1 name pool found hphase =>
    cases h
    have hconsistent := hs.consistent t
    rw [hphase] at hconsistent
    cases hconsistent
    exact hs.release (by rw [hphase]; rfl)

theorem Safe.of_reachable {s : State T Name} (h : (machine T Name).Reachable Machine.free s) :
    Safe s := by
  refine h.invariant ?_ fun _ _ _ hs _ taken => hs.preserved taken
  rintro _ rfl
  exact safe_initial

theorem Safe.evicted_unused {s : State T Name} (hs : Safe s) (fuel : ℕ) {p : ℕ}
    (hp : p ∈ (evictUntilRoom fuel s.toShared).closed) (hold : p ∉ s.closed) :
    outstanding s p = 0 := by
  have hkeep := evictUntilRoom_keeps
    (P := fun shared => Safe (⟨shared, s.phase⟩ : State T Name) ∧
      ∀ p ∈ shared.closed, p ∉ s.closed → outstanding s p = 0)
    (fun shared name e h hget hidle => by
      refine ⟨h.1.evict hget hidle, fun p hp hold => ?_⟩
      rcases List.mem_append.mp hp with hp | hp
      · exact h.2 p hp hold
      · obtain rfl := List.mem_singleton.mp hp
        have hcount := h.1.counted name e hget
        rw [hidle] at hcount
        exact_mod_cast hcount.symm)
    fuel ⟨hs, fun p hp hold => absurd hp hold⟩
  exact hkeep.2 p hp hold

@[simp] theorem dropRefLocked_closed (s : Shared Name) (name : Name) (pool : ℕ) :
    (dropRefLocked s name pool).closed = s.closed := by
  unfold dropRefLocked
  split
  · split_ifs <;> rfl
  · rfl

/-- `closeall` is called on pools nobody is using: the ones a checkout evicts. -/
theorem Safe.closed_unused {s s' : State T Name} (hs : Safe s) {a : Action T Name}
    (h : step s a = some s') {p : ℕ} (hp : p ∈ s'.closed) (hold : p ∉ s.closed) :
    outstanding s p = 0 := by
  cases a with
  | checkout t name built =>
    simp only [step] at h
    split at h
    case h_2 => cases h
    case h_1 =>
    cases hget : s.tenantPools.get name with
    | some e =>
      simp only [checkoutTenantLocked, hget, Option.some.injEq] at h
      subst h
      exact absurd hp hold
    | none =>
      refine hs.evicted_unused s.tenantPools.size ?_ hold
      simp only [checkoutTenantLocked, hget] at h
      cases built <;> simp only [if_true, Bool.false_eq_true, if_false, Option.some.injEq] at h <;>
        subst h <;> exact hp
  | getconn t ok | lookup t close | putconn t ok =>
    simp only [step] at h
    split at h <;> cases h <;> exact absurd hp hold
  | undo t | drop t =>
    simp only [step] at h
    split at h
    case h_2 => cases h
    cases h
    simp only [State.locked, dropRefLocked_closed] at hp
    exact absurd hp hold

/-- Tenant pool safety over every interleaving: the counters are exact and the clamp of the
cleanup blocks never fires, only unused pools are closed and each at most once, a checkout
keeps its entry until it has ended, and creating a pool respects the cap up to busy pools. -/
theorem tenantPools_safe {s : State T Name} (h : (machine T Name).Reachable Machine.free s) :
    (∀ name e, s.tenantPools.get name = some e → e.inUse = outstanding s e.pool) ∧
    (∀ t name pool, (s.phase t = .undoing name pool ∨
        ∃ conn, s.phase t = .dropping name conn pool) →
      ∃ e, s.tenantPools.get name = some e ∧ e.pool = pool ∧ e.dropRef.inUse = e.inUse - 1) ∧
    (∀ a s', step s a = some s' → ∀ p ∈ s'.closed, p ∉ s.closed → outstanding s p = 0) ∧
    s.closed.Nodup ∧
    (∀ t name pool, (s.phase t).checkout = some (name, pool) →
      ∃ e, s.tenantPools.get name = some e ∧ e.pool = pool) ∧
    (∀ t name s', step s (.checkout t name true) = some s' →
      (s.tenantPools.get name = none →
        s'.tenantPools.size ≤ max maxTenantPools (busy s'.toShared)) ∧
      (s.tenantPools.get name ≠ none →
        s'.tenantPools.size = s.tenantPools.size ∧ s'.closed = s.closed)) := by
  have hs := Safe.of_reachable h
  refine ⟨hs.counted, ?_, fun a s' ha p hp hold => hs.closed_unused ha hp hold, hs.closedOnce,
    hs.registered, ?_⟩
  · intro t name pool hphase
    have hcheckout : (s.phase t).checkout = some (name, pool) := by
      rcases hphase with hphase | ⟨conn, hphase⟩
      · rw [hphase]; rfl
      · have hconsistent := hs.consistent t
        rw [hphase] at hconsistent ⊢
        cases hconsistent
        rfl
    obtain ⟨e, hget, hpool, hpos⟩ := hs.found hcheckout
    exact ⟨e, hget, hpool, by simp only [Entry.dropRef]; omega⟩
  · intro t name s' ha
    simp only [step] at ha
    split at ha
    case h_2 => cases ha
    case h_1 =>
    have hshared : s'.toShared = (checkoutTenantLocked s.toShared name true).1 := by
      split at ha <;> cases ha <;> simp_all [State.locked]
    refine ⟨fun hnone => ?_, fun hsome => ?_⟩
    · rw [hshared]
      exact checkout_bound hnone
    · obtain ⟨e, hget⟩ := Option.ne_none_iff_exists'.mp hsome
      rw [hshared]
      exact ⟨checkout_known_size hget true, checkout_known_closed hget true⟩

/-- How many of its own steps separate a thread from the end of its checkout. -/
def Phase.remaining : Phase Name → ℕ
  | .idle => 0
  | .getting .. => 4
  | .holding .. => 3
  | .returning .. => 2
  | .undoing .. | .dropping .. => 1

@[simp] theorem dropRefLocked_size (s : Shared Name) (name : Name) (pool : ℕ) :
    (dropRefLocked s name pool).tenantPools.size = s.tenantPools.size := by
  unfold dropRefLocked
  split
  · split_ifs <;> simp
  · rfl

/-- A thread inside a checkout is never blocked, and its steps create and evict nothing. -/
theorem checkout_progress (s : State T Name) {t : T} (h : s.phase t ≠ .idle) :
    ∃ a s' next, step s a = some s' ∧ s'.tenantPools.size = s.tenantPools.size ∧
      s'.phase = Function.update s.phase t next ∧ next.remaining < (s.phase t).remaining := by
  cases hphase : s.phase t with
  | idle => exact absurd hphase h
  | getting name pool =>
    exact ⟨.getconn t true, s.goto t (.holding name pool), _, by simp [step, hphase], rfl, rfl,
      by simp [Phase.remaining]⟩
  | undoing name pool =>
    exact ⟨.undo t, s.locked t (dropRefLocked s.toShared name pool) .idle, _,
      by simp [step, hphase], by simp [State.locked], rfl, by simp [Phase.remaining]⟩
  | holding name pool =>
    exact ⟨.lookup t false,
      s.goto t (.returning name pool ((s.tenantPools.get name).map Entry.pool) false), _,
      by simp [step, hphase], rfl, rfl, by simp [Phase.remaining]⟩
  | returning name pool found close =>
    cases found with
    | none =>
      exact ⟨.putconn t true, s.goto t .idle, _, by simp [step, hphase], rfl, rfl,
        by simp [Phase.remaining]⟩
    | some found =>
      exact ⟨.putconn t true, s.goto t (.dropping name pool found), _, by simp [step, hphase],
        rfl, rfl, by simp [Phase.remaining]⟩
  | dropping name pool found =>
    exact ⟨.drop t, s.locked t (dropRefLocked s.toShared name found) .idle, _,
      by simp [step, hphase], by simp [State.locked], rfl, by simp [Phase.remaining]⟩

/-- From every state all checkouts can be brought to their end, with the pools left alone. -/
theorem exists_quiescent_run (s : State T Name) :
    ∃ s', (machine T Name).Run Machine.free s s' ∧
      s'.tenantPools.size = s.tenantPools.size ∧ ∀ t, s'.phase t = .idle := by
  induction hn : load Phase.remaining s.phase using Nat.strong_induction_on generalizing s with
  | _ n ih =>
  by_cases hidle : ∀ t, s.phase t = .idle
  · exact ⟨s, .refl, rfl, hidle⟩
  · obtain ⟨t, ht⟩ := not_forall.mp hidle
    obtain ⟨a, s₁, next, ha, hsize, hphase, hless⟩ := checkout_progress s ht
    have hload := load_update Phase.remaining s.phase t next
    rw [← hphase] at hload
    obtain ⟨s₂, hrun, hsize₂, hall⟩ := ih (load Phase.remaining s₁.phase) (by omega) s₁ rfl
    exact ⟨s₂, (Machine.Run.refl.tail trivial ha).trans hrun, hsize₂.trans hsize, hall⟩

theorem evictUntilRoom_of_busy (fuel : ℕ) {s : Shared Name}
    (h : ∀ e ∈ s.tenantPools.values, e.inUse ≠ 0) : evictUntilRoom fuel s = s := by
  have hsame : evictIfIdleLocked s = s := by
    rcases evictIfIdleLocked_cases s with ⟨hsame, _⟩ | ⟨name, e, hget, hidle, _⟩
    · exact hsame
    · exact absurd hidle (h e (OrderedDict.mem_values.mpr ⟨name, hget⟩))
  cases fuel with
  | zero => rfl
  | succ fuel => simp [evictUntilRoom, hsame]

/-- As long as every pool is busy, every further tenant gets one: the map overflows its cap. -/
theorem exists_all_busy {n : ℕ} (names : Fin n → Name) (hnames : Function.Injective names) (k : ℕ)
    (hk : k ≤ n) : ∃ s, (machine (Fin n) Name).Reachable Machine.free s ∧
      s.tenantPools.size = k ∧ (∀ e ∈ s.tenantPools.values, e.inUse ≠ 0) ∧
      ∀ t : Fin n, k ≤ t → s.phase t = .idle ∧ s.tenantPools.get (names t) = none := by
  induction k with
  | zero =>
    refine ⟨initial, .start rfl, rfl, ?_, fun _ _ => ⟨rfl, rfl⟩⟩
    simp [initial, OrderedDict.values, OrderedDict.empty]
  | succ k ih =>
    obtain ⟨s, hreach, hsize, hbusy, hrest⟩ := ih (by omega)
    obtain ⟨hidle, hnone⟩ := hrest ⟨k, by omega⟩ (le_refl k)
    have hroom := evictUntilRoom_of_busy s.tenantPools.size hbusy
    have hget : ∀ other, ((s.tenantPools.set (names ⟨k, by omega⟩) ⟨s.nextPool, 0⟩).modify
        (names ⟨k, by omega⟩) Entry.bump).get other =
        if other = names ⟨k, by omega⟩ then some ⟨s.nextPool, 1⟩ else s.tenantPools.get other := by
      intro other
      rw [OrderedDict.get_modify, OrderedDict.get_set]
      rcases eq_or_ne other (names ⟨k, by omega⟩) with rfl | hne
      · simp [Entry.bump]
      · simp [hne]
    refine ⟨_, hreach.tail (a := .checkout ⟨k, by omega⟩ (names ⟨k, by omega⟩) true) trivial
      (by simp only [machine, step, hidle, checkoutTenantLocked, hnone, hroom, if_true]; rfl),
      ?_, ?_, ?_⟩
    · simp [State.locked, OrderedDict.size_set_of_new hnone, hsize]
    · intro e he
      obtain ⟨other, hother⟩ := OrderedDict.mem_values.mp he
      simp only [State.locked, hget] at hother
      rcases eq_or_ne other (names ⟨k, by omega⟩) with rfl | hne
      · simp only [if_true, Option.some.injEq] at hother
        simp [← hother]
      · simp only [hne, if_false] at hother
        exact hbusy e (OrderedDict.mem_values.mpr ⟨other, hother⟩)
    · intro t ht
      have hne : t ≠ ⟨k, by omega⟩ := Fin.ne_of_val_ne (by simp only; omega)
      have hname : names t ≠ names ⟨k, by omega⟩ := hnames.ne hne
      simpa [State.locked, hget, hname, hne] using hrest t (by omega)

/-- With every counter at zero, the checkout of a known tenant makes one pool busy. -/
theorem busy_known_checkout {s : Shared Name} {name : Name} {e : Entry}
    (hget : s.tenantPools.get name = some e) (built : Bool) (hidle : ∀ e ∈ s.tenantPools.values, e.inUse = 0) :
    busy (checkoutTenantLocked s name built).1 ≤ 1 := by
  have hkeys := List.nodup_iff_count_le_one.mp (checkoutTenantLocked s name built).1.tenantPools.distinct name
  refine le_trans ?_ hkeys
  rw [busy, OrderedDict.values, List.countP_map, List.count, List.countP_map]
  refine List.countP_mono_left fun p hp hbusy => ?_
  by_contra hne
  simp only [Function.comp_apply, decide_eq_true_eq, beq_iff_eq] at hbusy hne
  have hp' := OrderedDict.get_eq_some.mpr (show (p.1, p.2) ∈ _ from hp)
  simp only [checkoutTenantLocked, hget, OrderedDict.get_modify, OrderedDict.get_moveToEnd, hne,
    if_false] at hp'
  exact hbusy (hidle p.2 (OrderedDict.mem_values.mpr ⟨p.1, hp'⟩))

/-- The tenants `tenant_aa`, `tenant_ab`, …: one for each of 101 threads. -/
def tenantName (t : Fin 101) : String :=
  "tenant_" ++ String.ofList [Char.ofNat (97 + t / 26), Char.ofNat (97 + t % 26)]

def tenantIndex (name : String) : ℕ :=
  match name.toList.drop 7 with
  | [a, b] => (a.toNat - 97) * 26 + (b.toNat - 97)
  | _ => 0

theorem tenantName_injective : Function.Injective tenantName := by
  have hinv : ∀ t, tenantIndex (tenantName t) = t := by decide
  intro t u h
  apply Fin.ext
  rw [← hinv t, ← hinv u, h]

/-- Once 101 busy pools have gone idle, checking out a tenant that has a pool evicts nothing:
101 pools remain although only one of them is busy. -/
theorem known_checkout_exceeds_cap :
    ¬ ∀ s, (machine (Fin 101) String).Reachable Machine.free s → ∀ t name s',
      step s (.checkout t name true) = some s' →
      s'.tenantPools.size ≤ max maxTenantPools (1 + busy s'.toShared) := by
  intro hall
  obtain ⟨s, hreach, hsize, _, _⟩ :=
    exists_all_busy tenantName tenantName_injective 101 (le_refl _)
  obtain ⟨s₁, hrun, hsize₁, hidle⟩ := exists_quiescent_run s
  have hreach₁ := hreach.run hrun
  have hsafe := Safe.of_reachable hreach₁
  have hunused : ∀ e ∈ s₁.tenantPools.values, e.inUse = 0 := by
    intro e he
    obtain ⟨name, hget⟩ := OrderedDict.mem_values.mp he
    have hzero : outstanding s₁ e.pool = 0 := load_eq_zero.mpr fun t => by
      simp [hidle t, Phase.checkout]
    rw [hsafe.counted name e hget, hzero]
    rfl
  obtain ⟨p, hp⟩ : ∃ p, p ∈ s₁.tenantPools.entries := by
    refine List.exists_mem_of_length_pos ?_
    simp only [OrderedDict.size] at hsize hsize₁
    omega
  have hget := OrderedDict.get_eq_some.mpr (show (p.1, p.2) ∈ s₁.tenantPools.entries from hp)
  have hbound := hall s₁ hreach₁ 0 p.1
    (s₁.locked 0 (checkoutTenantLocked s₁.toShared p.1 true).1 (.getting p.1 p.2.pool))
    (by simp [step, hidle, checkoutTenantLocked, hget])
  have hbusy := busy_known_checkout hget true hunused
  have hknown := checkout_known_size hget true
  simp only [State.locked, maxTenantPools] at hbound hbusy hknown
  omega

/-- One thread holds a connection of `tenant_a`, the `getconn` of another has failed. -/
def oneHoldsTrace : List (Action Bool String) :=
  [.checkout false "tenant_a" true, .checkout true "tenant_a" true, .getconn false true,
    .getconn true false, .undo true]

def oneHolds : State Bool String :=
  ((machine Bool String).exec initial oneHoldsTrace).getD initial

theorem oneHolds_reachable : (machine Bool String).Reachable Machine.free oneHolds :=
  Machine.reachable_of_exec oneHoldsTrace rfl rfl

theorem tenantPools_safe_oneHolds :
    oneHolds.tenantPools.get "tenant_a" = some ⟨0, 1⟩ ∧ outstanding oneHolds 0 = 1 ∧
    oneHolds.closed.Nodup := by
  have h := tenantPools_safe oneHolds_reachable
  have hget : oneHolds.tenantPools.get "tenant_a" = some ⟨0, 1⟩ := rfl
  have hcount : (1 : ℤ) = outstanding oneHolds 0 := h.1 "tenant_a" ⟨0, 1⟩ hget
  exact ⟨hget, by exact_mod_cast hcount.symm, h.2.2.2.1⟩

end counts
end UniversityHelper.TenantPool
