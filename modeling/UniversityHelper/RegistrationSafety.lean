import UniversityHelper.Registration

set_option linter.unusedSectionVars false

namespace UniversityHelper.Registration
variable {R : Type*} [DecidableEq R] {request : R → Request}

/-- What a step of registration `r` can do, by the two stores it writes. -/
inductive Effect (request : R → Request) (s : State R) (r : R) : State R → Prop
  | inserted {users : UserTable} (ready : s.phase r = .ready)
      (allowed : usernameAllowed (request r).username = true)
      (unique : s.users.insert (newRow request s r) = some users) :
      Effect request s r { s.goto r (.creating s.nextId templateBusyBackoff.length false) with
        users := users
        nextId := s.nextId + 1 }
  | refused (ready : s.phase r = .ready) (nextId : ℕ) (advanced : s.nextId ≤ nextId) :
      Effect request s r { s.goto r .failed with nextId := nextId }
  | moved {uid : ℕ} {next : Phase} (before : (s.phase r).row = some uid)
      (after : next.row = some uid) (unfinished : next ≠ .registered uid) :
      Effect request s r (s.goto r next)
  | created {uid : ℕ} (before : (s.phase r).row = some uid)
      (absent : dbName request r ∉ s.databases) :
      Effect request s r { s.goto r (.registered uid) with
        databases := insert (dbName request r) s.databases }
  | droppedDuplicate {uid busyDelays : ℕ} {healed : Bool}
      (before : s.phase r = .recreating uid busyDelays healed) :
      Effect request s r { s.goto r (.recreated uid busyDelays healed) with
        databases := s.databases.erase (dbName request r) }
  | rolledBack {uid : ℕ} (before : s.phase r = .rollingBack uid) (ok : Bool) :
      Effect request s r { s.goto r (.dropping uid) with
        users := if ok then s.users.delete uid else s.users }
  | dropped {uid : ℕ} (before : s.phase r = .dropping uid) (ok : Bool) :
      Effect request s r { s.goto r .failed with
        databases := if ok then s.databases.erase (dbName request r) else s.databases }

theorem onDdlError_row (uid busyDelays : ℕ) (healed : Bool) (e : DdlError) :
    (onDdlError uid busyDelays healed e).row = some uid ∧
      onDdlError uid busyDelays healed e ≠ .registered uid := by
  cases e with
  | objectInUse => cases busyDelays <;> simp [onDdlError, Phase.row]
  | invalidCatalogName h =>
    simp only [onDdlError]
    split_ifs <;> simp [Phase.row]
  | other => simp [onDdlError, Phase.row]

/-- The registration an action belongs to. -/
def Action.actor : Action R → R
  | .insertUserRow r _ | .createDatabase r _ | .dropDuplicate r _ | .recreateDatabase r _
  | .rollbackUserRow r _ | .dropTenantDatabase r _ => r

theorem step_effect {s s' : State R} {a : Action R} (h : step request s a = some s') :
    Effect request s a.actor s' := by
  cases a with
  | insertUserRow r ok =>
    simp only [step] at h
    split at h
    case h_2 => cases h
    case h_1 ready =>
    cases h
    unfold insertUserRow
    split_ifs with hok
    · split
      · exact .inserted ready hok.1 (by assumption)
      · exact .refused ready _ (Nat.le_succ _)
    · exact .refused ready s.nextId (le_refl _)
  | createDatabase r error =>
    simp only [step] at h
    split at h
    case h_2 => cases h
    case h_1 uid busyDelays healed hphase =>
    cases error with
    | some e =>
      cases h
      obtain ⟨hrow, hne⟩ := onDdlError_row uid busyDelays healed e
      exact .moved (by rw [Action.actor, hphase]; rfl) hrow hne
    | none =>
      simp only at h
      split_ifs at h with hexists <;> cases h
      · have before : (s.phase r).row = some uid := by rw [hphase]; rfl
        exact .moved before rfl (by simp)
      · exact .created (by rw [Action.actor, hphase]; rfl) hexists
  | dropDuplicate r error =>
    simp only [step] at h
    split at h
    case h_2 => cases h
    case h_1 uid busyDelays healed hphase =>
    cases error with
    | some e =>
      cases h
      obtain ⟨hrow, hne⟩ := onDdlError_row uid busyDelays healed e
      exact .moved (by rw [Action.actor, hphase]; rfl) hrow hne
    | none =>
      cases h
      exact .droppedDuplicate hphase
  | recreateDatabase r error =>
    simp only [step] at h
    split at h
    case h_2 => cases h
    case h_1 uid busyDelays healed hphase =>
    cases error with
    | some e =>
      cases h
      obtain ⟨hrow, hne⟩ := onDdlError_row uid busyDelays healed e
      exact .moved (by rw [Action.actor, hphase]; rfl) hrow hne
    | none =>
      simp only at h
      split_ifs at h with hexists <;> cases h
      · have before : (s.phase r).row = some uid := by rw [hphase]; rfl
        exact .moved before rfl (by simp)
      · exact .created (by rw [Action.actor, hphase]; rfl) hexists
  | rollbackUserRow r ok =>
    simp only [step] at h
    split at h
    case h_2 => cases h
    case h_1 uid hphase =>
    cases h
    exact .rolledBack hphase ok
  | dropTenantDatabase r ok =>
    simp only [step] at h
    split at h
    case h_2 => cases h
    case h_1 uid hphase =>
    cases h
    exact .dropped hphase ok

/-- The UNIQUE constraint on `tenant_db_name`: a database name has one owning row. -/
theorem UserTable.owner_unique {t : UserTable} {a b : UserRow} (ha : a ∈ t.rows) (hb : b ∈ t.rows)
    (h : a.tenantDbName = b.tenantDbName) : a = b := by
  by_contra hne
  exact (t.unique.forall ha hb hne).2.2.2 h

theorem UserTable.mem_insert {t t' : UserTable} {row : UserRow} (h : t.insert row = some t')
    (other : UserRow) : other ∈ t'.rows ↔ other = row ∨ other ∈ t.rows := by
  unfold insert at h
  split_ifs at h
  cases h
  exact List.mem_cons

@[simp] theorem UserTable.mem_delete {t : UserTable} {id : ℕ} {row : UserRow} :
    row ∈ (t.delete id).rows ↔ row ∈ t.rows ∧ row.id ≠ id := by
  simp [UserTable.delete]

/-- What holds as long as nobody takes a name whose database is about to be dropped. -/
structure Sound (request : R → Request) (s : State R) : Prop where
  known : ∀ row ∈ s.users.rows, row.id < s.nextId
  issued : ∀ r uid, (s.phase r).userId = some uid → uid < s.nextId
  apart : ∀ r r' uid, (s.phase r).userId = some uid → (s.phase r').userId = some uid → r = r'
  owns : ∀ r uid, (s.phase r).row = some uid →
    ∃ row ∈ s.users.rows, row.id = uid ∧ row.tenantDbName = dbName request r
  vacant : ∀ r uid, s.phase r = .dropping uid →
    ∀ row ∈ s.users.rows, row.tenantDbName = dbName request r → row.id = uid
  provisioned : ∀ r uid, s.phase r = .registered uid → dbName request r ∈ s.databases

theorem userId_of_row {ph : Phase} {uid : ℕ} (h : ph.row = some uid) : ph.userId = some uid := by
  cases ph <;> simp_all [Phase.row, Phase.userId]

/-- The INSERT of `r` goes through and commits a row. -/
def CommitsRow (request : R → Request) (s : State R) (r : R) (ok : Bool) : Prop :=
  (usernameAllowed (request r).username = true ∧ ok = true) ∧
    (s.users.insert (newRow request s r)).isSome

/-- The scheduling condition: an INSERT of a username commits only while no other
registration of that name stands between the deletion of its row and its DROP DATABASE. -/
def NameNotBeingDropped (request : R → Request) (s : State R) : Action R → Prop
  | .insertUserRow r ok => CommitsRow request s r ok →
      ∀ r' uid, r' ≠ r → s.phase r' = .dropping uid → dbName request r' ≠ dbName request r
  | _ => True

theorem sound_start {s : State R} (h : Start s) : Sound request s where
  known := h.1
  issued := by simp [h.2, Phase.userId, Phase.row]
  apart := by simp [h.2, Phase.userId, Phase.row]
  owns := by simp [h.2, Phase.row]
  vacant := by simp [h.2]
  provisioned := by simp [h.2]

/-- Two registrations never hold rows for one database name. -/
theorem Sound.owner {s : State R} (hs : Sound request s) {r r' : R} {uid uid' : ℕ}
    (h : (s.phase r).row = some uid) (h' : (s.phase r').row = some uid')
    (hname : dbName request r = dbName request r') : r = r' := by
  obtain ⟨row, hmem, rfl, hrow⟩ := hs.owns r uid h
  obtain ⟨row', hmem', rfl, hrow'⟩ := hs.owns r' uid' h'
  obtain rfl := UserTable.owner_unique hmem hmem' (by rw [hrow, hrow', hname])
  exact hs.apart r r' row.id (userId_of_row h) (userId_of_row h')

/-- Nobody who registered successfully has the name of a database about to be dropped. -/
theorem Sound.droppable {s : State R} (hs : Sound request s) {r r' : R} {uid uid' : ℕ}
    (h : s.phase r = .dropping uid) (h' : (s.phase r').row = some uid') :
    dbName request r' ≠ dbName request r := by
  intro hname
  obtain ⟨row, hmem, rfl, hrow⟩ := hs.owns r' uid' h'
  have hid := hs.vacant r uid h row hmem (hrow.trans hname)
  obtain rfl := hs.apart r r' uid (by rw [h]; rfl) (by rw [← hid]; exact userId_of_row h')
  rw [h] at h'
  cases h'

theorem phase_split {f : R → Phase} {r r' : R} {next ph : Phase}
    (h : Function.update f r next r' = ph) : (r' = r ∧ next = ph) ∨ (r' ≠ r ∧ f r' = ph) := by
  rcases eq_or_ne r' r with rfl | hne
  · exact Or.inl ⟨rfl, by rwa [Function.update_self] at h⟩
  · exact Or.inr ⟨hne, by rwa [Function.update_of_ne hne] at h⟩

/-- A step that inserts no row: it is enough to look at what it does to the rows that are
kept, to a row about to be dropped, and to the databases of the successful. -/
theorem Sound.transition {s s' : State R} (hs : Sound request s) {r : R} {next : Phase}
    (hphase : s'.phase = Function.update s.phase r next)
    (hid : ∀ uid, next.userId = some uid → (s.phase r).userId = some uid)
    (hrow : ∀ uid, next.row = some uid → (s.phase r).row = some uid)
    (hnext : s.nextId ≤ s'.nextId) (hsub : ∀ row ∈ s'.users.rows, row ∈ s.users.rows)
    (hkeep : ∀ r' uid, (s'.phase r').row = some uid → ∀ row ∈ s.users.rows, row.id = uid →
      row ∈ s'.users.rows)
    (hvacant : ∀ uid, next = .dropping uid →
      ∀ row ∈ s'.users.rows, row.tenantDbName = dbName request r → row.id = uid)
    (hprovisioned : ∀ r' uid, s'.phase r' = .registered uid → dbName request r' ∈ s'.databases) :
    Sound request s' := by
  have huser : ∀ r' uid, (s'.phase r').userId = some uid → (s.phase r').userId = some uid := by
    intro r' uid h
    rw [hphase] at h
    rcases phase_split (congrFun hphase r').symm with ⟨rfl, heq⟩ | ⟨_, heq⟩
    · exact hid uid (by rw [heq, hphase]; exact h)
    · rw [heq, hphase]
      exact h
  have hrows : ∀ r' uid, (s'.phase r').row = some uid → (s.phase r').row = some uid := by
    intro r' uid h
    rcases phase_split (congrFun hphase r').symm with ⟨rfl, heq⟩ | ⟨_, heq⟩
    · exact hrow uid (by rw [heq]; exact h)
    · rw [heq]
      exact h
  refine ⟨?_, ?_, ?_, ?_, ?_, hprovisioned⟩
  · intro row h
    exact (hs.known row (hsub row h)).trans_le hnext
  · intro r' uid h
    exact (hs.issued r' uid (huser r' uid h)).trans_le hnext
  · intro a b uid ha hb
    exact hs.apart a b uid (huser a uid ha) (huser b uid hb)
  · intro r' uid h
    obtain ⟨row, hmem, hid, hname⟩ := hs.owns r' uid (hrows r' uid h)
    exact ⟨row, hkeep r' uid h row hmem hid, hid, hname⟩
  · intro r' uid h row hmem hname
    rw [hphase] at h
    rcases phase_split h with ⟨rfl, heq⟩ | ⟨_, heq⟩
    · exact hvacant uid heq row hmem hname
    · exact hs.vacant r' uid heq row (hsub row hmem) hname

/-- The databases of the successful survive a step that ends elsewhere and removes no name of theirs. -/
theorem Sound.provisioned_update {s : State R} (hs : Sound request s) {r : R} {next : Phase}
    {databases : Finset String} (hnext : ∀ uid, next = .registered uid → dbName request r ∈ databases)
    (hkeep : ∀ r' uid, (s.phase r').row = some uid → r' ≠ r → dbName request r' ∈ s.databases →
      dbName request r' ∈ databases) (r' : R) (uid : ℕ)
    (h : Function.update s.phase r next r' = .registered uid) : dbName request r' ∈ databases := by
  rcases phase_split h with ⟨rfl, heq⟩ | ⟨hne, heq⟩
  · exact hnext uid heq
  · exact hkeep r' uid (by rw [heq]; rfl) hne (hs.provisioned r' uid heq)

/-- INSERT is the step the scheduling condition is about. -/
theorem Sound.insert {s : State R} (hs : Sound request s) {r : R} {users : UserTable}
    (ready : s.phase r = .ready) (unique : s.users.insert (newRow request s r) = some users)
    (hfree : ∀ r' uid, r' ≠ r → s.phase r' = .dropping uid → dbName request r' ≠ dbName request r) :
    Sound request { s.goto r (.creating s.nextId templateBusyBackoff.length false) with
      users := users
      nextId := s.nextId + 1 } := by
  have hmem := UserTable.mem_insert unique
  have huser : ∀ r' uid, (Function.update s.phase r
      (.creating s.nextId templateBusyBackoff.length false) r').userId = some uid →
      (r' = r ∧ uid = s.nextId) ∨ (r' ≠ r ∧ (s.phase r').userId = some uid) := by
    intro r' uid h
    rcases eq_or_ne r' r with rfl | hne
    · rw [Function.update_self] at h
      exact Or.inl ⟨rfl, (Option.some.inj h).symm⟩
    · rw [Function.update_of_ne hne] at h
      exact Or.inr ⟨hne, h⟩
  refine ⟨?_, ?_, ?_, ?_, ?_, ?_⟩
  · intro row h
    rcases (hmem row).mp h with rfl | h
    · exact Nat.lt_succ_self _
    · exact Nat.lt_succ_of_lt (hs.known row h)
  · intro r' uid h
    rcases huser r' uid h with ⟨_, rfl⟩ | ⟨_, h⟩
    · exact Nat.lt_succ_self _
    · exact Nat.lt_succ_of_lt (hs.issued r' uid h)
  · intro a b uid ha hb
    rcases huser a uid ha with ⟨rfl, hua⟩ | ⟨_, ha'⟩ <;>
      rcases huser b uid hb with ⟨rfl, hub⟩ | ⟨_, hb'⟩
    · rfl
    · exact absurd (hs.issued b uid hb') (by omega)
    · exact absurd (hs.issued a uid ha') (by omega)
    · exact hs.apart a b uid ha' hb'
  · intro r' uid h
    rcases eq_or_ne r' r with rfl | hne
    · simp only [State.goto, Function.update_self, Phase.row, Option.some.injEq] at h
      exact ⟨newRow request s r', (hmem _).mpr (Or.inl rfl), h, rfl⟩
    · simp only [State.goto, Function.update_of_ne hne] at h
      obtain ⟨row, hrow, hid, hname⟩ := hs.owns r' uid h
      exact ⟨row, (hmem row).mpr (Or.inr hrow), hid, hname⟩
  · intro r' uid h row hrow hname
    rcases phase_split h with ⟨rfl, heq⟩ | ⟨hne, heq⟩
    · cases heq
    · rcases (hmem row).mp hrow with rfl | hrow
      · exact absurd hname.symm (hfree r' uid hne heq)
      · exact hs.vacant r' uid heq row hrow hname
  · exact hs.provisioned_update (by simp) fun r' uid _ _ h => h

/-- The step lemma: under the scheduling condition every statement keeps the invariant. -/
theorem Sound.preserved {s s' : State R} {a : Action R} (hs : Sound request s)
    (allowed : NameNotBeingDropped request s a) (h : step request s a = some s') :
    Sound request s' := by
  have heffect := step_effect h
  generalize hr : a.actor = r at heffect
  cases heffect with
  | inserted ready hname unique =>
    refine hs.insert ready unique fun r' uid hne hphase => ?_
    cases a with
    | insertUserRow r₀ ok =>
      obtain rfl : r₀ = r := hr
      cases ok with
      | true => exact allowed ⟨⟨hname, rfl⟩, by simp [unique]⟩ r' uid hne hphase
      | false => simp [step, ready, insertUserRow, State.goto] at h
    | _ => simp_all [step, Action.actor]
  | refused ready nextId advanced =>
    exact hs.transition rfl (by simp [Phase.userId, Phase.row]) (by simp [Phase.row]) advanced
      (fun _ h => h) (fun _ _ _ _ h _ => h) (by simp)
      (hs.provisioned_update (by simp) fun _ _ _ _ h => h)
  | moved before after unfinished =>
    refine hs.transition rfl ?_ ?_ (le_refl _) (fun _ h => h) (fun _ _ _ _ h _ => h) ?_
      (hs.provisioned_update ?_ fun _ _ _ _ h => h)
    · intro uid h
      rw [userId_of_row after] at h
      rw [userId_of_row before, h]
    · intro uid h
      rw [before, ← after, h]
    · rintro uid rfl
      cases after
    · rintro uid rfl
      cases after
      exact absurd rfl unfinished
  | created before absent =>
    refine hs.transition rfl ?_ ?_ (le_refl _) (fun _ h => h) (fun _ _ _ _ h _ => h) (by simp)
      (hs.provisioned_update ?_ fun _ _ _ _ h => Finset.mem_insert_of_mem h)
    · intro uid h
      rw [userId_of_row before, ← h]
      rfl
    · intro uid h
      rw [before, ← h]
      rfl
    · intro uid _
      exact Finset.mem_insert_self _ _
  | droppedDuplicate before =>
    refine hs.transition rfl ?_ ?_ (le_refl _) (fun _ h => h) (fun _ _ _ _ h _ => h) (by simp)
      (hs.provisioned_update (by simp) ?_)
    · intro uid h
      rw [before]
      exact h
    · intro uid h
      rw [before]
      exact h
    · intro r' uid hrow hne hmem
      refine Finset.mem_erase.mpr ⟨fun hname => hne ?_, hmem⟩
      exact hs.owner hrow (by rw [before]; rfl) hname
  | @rolledBack uid before ok =>
    have hmine : (s.phase r).row = some uid := by rw [before]; rfl
    have hvacant : ∀ row ∈ s.users.rows, row.tenantDbName = dbName request r → row.id = uid := by
      intro row hmem hname
      obtain ⟨own, hown, hid, hownName⟩ := hs.owns r uid hmine
      rw [UserTable.owner_unique hmem hown (hname.trans hownName.symm), hid]
    have hsub : ∀ row ∈ (if ok = true then s.users.delete uid else s.users).rows,
        row ∈ s.users.rows := by
      intro row hmem
      cases ok
      · exact hmem
      · exact (UserTable.mem_delete.mp hmem).1
    refine hs.transition rfl ?_ (by simp [Phase.row]) (le_refl _) hsub ?_ ?_
      (hs.provisioned_update (by simp) fun _ _ _ _ h => h)
    · intro uid' h
      rw [before]
      exact h
    · intro r' uid' hrow row hmem hid
      cases ok
      · exact hmem
      · refine UserTable.mem_delete.mpr ⟨hmem, fun heq => ?_⟩
        rcases eq_or_ne r' r with rfl | hne
        · simp [State.goto, Phase.row] at hrow
        · simp only [State.goto, Function.update_of_ne hne] at hrow
          exact hne (hs.apart r' r uid (by rw [← heq, hid]; exact userId_of_row hrow)
            (userId_of_row hmine))
    · rintro uid' heq row hmem hname
      cases heq
      exact hvacant row (hsub row hmem) hname
  | dropped before ok =>
    refine hs.transition rfl (by simp [Phase.userId, Phase.row]) (by simp [Phase.row]) (le_refl _)
      (fun _ h => h) (fun _ _ _ _ h _ => h) (by simp) (hs.provisioned_update (by simp) ?_)
    intro r' uid' hrow _ hmem
    cases ok
    · exact hmem
    · exact Finset.mem_erase.mpr ⟨hs.droppable before hrow, hmem⟩

/-- A step drops the database of nobody else's row. -/
def SparesOthers (request : R → Request) (s : State R) (a : Action R) : Prop :=
  ∀ r, drops request s a = some r → ∀ row ∈ s.users.rows, row.tenantDbName = dbName request r →
    (s.phase r).userId = some row.id

/-- A registration that returned success and lacks its row or its database. -/
def Robbed (request : R → Request) (s : State R) (r : R) : Prop :=
  ∃ uid, s.phase r = .registered uid ∧
    ((∀ row ∈ s.users.rows, row.id = uid → row.tenantDbName ≠ dbName request r) ∨
      dbName request r ∉ s.databases)

theorem Sound.spares {s : State R} (hs : Sound request s) (a : Action R) :
    SparesOthers request s a := by
  intro r hdrops row hmem hname
  have hown : ∀ uid, (s.phase r).row = some uid → (s.phase r).userId = some row.id := by
    intro uid h
    obtain ⟨own, hown, rfl, hownName⟩ := hs.owns r uid h
    rw [UserTable.owner_unique hmem hown (hname.trans hownName.symm)]
    exact userId_of_row h
  cases a with
  | dropDuplicate r₀ error =>
    cases error with
    | some e => cases hdrops
    | none =>
      simp only [drops] at hdrops
      split at hdrops
      case h_2 => cases hdrops
      case h_1 uid busyDelays healed hphase =>
      split_ifs at hdrops
      cases hdrops
      exact hown uid (by rw [hphase]; rfl)
  | dropTenantDatabase r₀ ok =>
    cases ok with
    | false => cases hdrops
    | true =>
      simp only [drops] at hdrops
      split at hdrops
      case h_2 => cases hdrops
      case h_1 uid hphase =>
      split_ifs at hdrops
      cases hdrops
      rw [hphase, hs.vacant r uid hphase row hmem hname]
      rfl
  | _ => cases hdrops

theorem Sound.not_robbed {s : State R} (hs : Sound request s) (r : R) : ¬ Robbed request s r := by
  rintro ⟨uid, hphase, hrow | hdb⟩
  · obtain ⟨row, hmem, hid, hname⟩ := hs.owns r uid (by rw [hphase]; rfl)
    exact hrow row hmem hid hname
  · exact hdb (hs.provisioned r uid hphase)

theorem Sound.of_reachable {s : State R}
    (h : (machine request).Reachable (NameNotBeingDropped request) s) : Sound request s :=
  h.invariant (fun _ => sound_start) fun _ _ _ hs allowed taken => hs.preserved allowed taken

/-- A registration whose row stands can always be finished: an old database is dropped first. -/
theorem exists_registered_run (request : R → Request) {s : State R} {r : R} {uid busyDelays : ℕ} {healed : Bool}
    (h : s.phase r = .creating uid busyDelays healed) :
    ∃ t, (machine request).Run Machine.free s t ∧
      t.phase = Function.update s.phase r (.registered uid) := by
  by_cases hexists : dbName request r ∈ s.databases
  · have h₁ : (machine request).step s (.createDatabase r none) =
        some (s.goto r (.recreating uid busyDelays healed)) := by simp [machine, step, h, hexists]
    have h₂ : (machine request).step (s.goto r (.recreating uid busyDelays healed)) (.dropDuplicate r none) =
        some { s.goto r (.recreated uid busyDelays healed) with
          databases := s.databases.erase (dbName request r) } := by
      simp [machine, step, State.goto]
    have h₃ : (machine request).step { s.goto r (.recreated uid busyDelays healed) with
          databases := s.databases.erase (dbName request r) } (.recreateDatabase r none) =
        some { s.goto r (.registered uid) with
          databases := insert (dbName request r) (s.databases.erase (dbName request r)) } := by
      simp [machine, step, State.goto]
    exact ⟨_, ((Machine.Run.refl.tail trivial h₁).tail trivial h₂).tail trivial h₃, rfl⟩
  · have h₁ : (machine request).step s (.createDatabase r none) =
        some { s.goto r (.registered uid) with
          databases := insert (dbName request r) s.databases } := by simp [machine, step, h, hexists]
    exact ⟨_, Machine.Run.refl.tail trivial h₁, rfl⟩

/-- A row committed while its name is about to be dropped can be robbed of its database. -/
theorem robbed_of_name_being_dropped {s s' : State R} {a : Action R}
    (h : step request s a = some s') (hbad : ¬ NameNotBeingDropped request s a) :
    ∃ t, (machine request).Run Machine.free s' t ∧ ∃ r, Robbed request t r := by
  cases a with
  | insertUserRow r ok =>
    simp only [NameNotBeingDropped, not_forall, not_not, exists_prop] at hbad
    obtain ⟨⟨hok, hsome⟩, r', uid', hne, hdropping, hname⟩ := hbad
    obtain ⟨users, unique⟩ := Option.isSome_iff_exists.mp hsome
    have hphase : s'.phase = Function.update s.phase r
        (.creating s.nextId templateBusyBackoff.length false) := by
      simp only [step] at h
      split at h
      case h_2 => cases h
      simp only [insertUserRow, hok, and_self, if_true, unique, Option.some.injEq] at h
      rw [← h]
      rfl
    obtain ⟨t, hrun, ht⟩ := exists_registered_run request (s := s') (r := r)
      (by rw [hphase, Function.update_self])
    have ht' : t.phase r' = .dropping uid' := by
      rw [ht, Function.update_of_ne hne, hphase, Function.update_of_ne hne, hdropping]
    have hdrop : (machine request).step t (.dropTenantDatabase r' true) =
        some { t.goto r' .failed with databases := t.databases.erase (dbName request r') } := by
      simp [machine, step, ht']
    refine ⟨_, hrun.tail trivial hdrop, r, s.nextId, ?_, Or.inr ?_⟩
    · simp only [State.goto]
      rw [Function.update_of_ne hne.symm, ht, Function.update_self]
    · simp [hname]
  | _ => exact absurd trivial hbad

/-- Registration spares other users' databases in every run in which no row is committed
while its database name is about to be dropped by the rollback of another registration:
every drop is of the actor's own name, and whoever got a success keeps row and database.
Every step against the condition opens a run in which somebody loses a database. -/
theorem registration_spares_others :
    (∀ s, (machine request).Reachable (NameNotBeingDropped request) s →
      (∀ a, SparesOthers request s a) ∧ ∀ r, ¬ Robbed request s r) ∧
    (∀ s a s', (machine request).Reachable Machine.free s → step request s a = some s' →
      ¬ NameNotBeingDropped request s a →
      ∃ t, (machine request).Run Machine.free s' t ∧ ∃ r, Robbed request t r) := by
  refine ⟨fun s h => ?_, fun s a s' _ h hbad => robbed_of_name_being_dropped h hbad⟩
  have hs := Sound.of_reachable h
  exact ⟨hs.spares, hs.not_robbed⟩

def twoAlices (r : Bool) : Request := ⟨"alice", if r then "b@x.org" else "a@x.org"⟩

/-- The first registration fails to create its database and deletes its row; the second one
takes the name and succeeds; then the first one drops the database. -/
def robberyTrace : List (Action Bool) :=
  [.insertUserRow false true, .createDatabase false (some .other), .rollbackUserRow false true,
    .insertUserRow true true, .createDatabase true none]

def noUsers : State Bool := ⟨⟨[], .nil⟩, ∅, 1, fun _ => .ready⟩

def beforeRobbery : State Bool :=
  ((machine twoAlices).exec noUsers robberyTrace).getD noUsers

theorem twoAlices_robbed :
    ∃ t, (machine twoAlices).Reachable Machine.free beforeRobbery ∧
      step twoAlices beforeRobbery (.dropTenantDatabase false true) = some t ∧
      ¬ SparesOthers twoAlices beforeRobbery (.dropTenantDatabase false true) ∧
      t.phase false = .failed ∧ Robbed twoAlices t true := by
  have hreach : (machine twoAlices).Reachable Machine.free beforeRobbery :=
    Machine.reachable_of_exec (s := noUsers) robberyTrace ⟨by simp [noUsers], fun _ => rfl⟩ rfl
  refine ⟨_, hreach, rfl, ?_, rfl, 2, rfl, Or.inr ?_⟩
  · intro h
    have hrow := h false rfl ⟨2, "alice", "b@x.org", "tenant_alice"⟩ (List.mem_singleton.mpr rfl) rfl
    cases hrow
  · decide

end UniversityHelper.Registration
