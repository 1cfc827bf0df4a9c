import UniversityHelper.Machine
import UniversityHelper.OrderedDict
import UniversityHelper.Threads

/-! The per-tenant connection pools of `app/db/session.py`: an LRU map guarded by the
tenant lock, and threads whose `getconn` and `putconn` calls run outside that lock. -/
namespace UniversityHelper.TenantPool

def maxTenantPools : ℕ := 100

/-- A `_TenantPoolEntry`. The allocation number of the pool is the identity of both the
pool and its entry, which are created together. -/
structure Entry where
  pool : ℕ
  inUse : ℤ
  deriving DecidableEq, Repr

/-- What the tenant lock guards, and the pools `closeall` was called on, in call order. -/
structure Shared (Name : Type*) where
  tenantPools : OrderedDict Name Entry
  nextPool : ℕ
  closed : List ℕ

section locked
variable {Name : Type*} [DecidableEq Name]

/-- Drop one idle entry from the map and close its pool. A failing `closeall` is logged only. -/
def Shared.evict (s : Shared Name) (name : Name) (entry : Entry) : Shared Name :=
  { s with tenantPools := s.tenantPools.erase name, closed := s.closed ++ [entry.pool] }

def evictIfIdleLocked (s : Shared Name) : Shared Name :=
  match s.tenantPools.entries.find? fun e => e.2.inUse = 0 with
  | some (name, entry) => s.evict name entry
  | none => s

/-- The `while` loop of `_checkout_tenant`; the map's size is enough fuel for it. -/
def evictUntilRoom : ℕ → Shared Name → Shared Name
  | 0, s => s
  | fuel + 1, s =>
    if s.tenantPools.size < maxTenantPools then s
    else
      let after := evictIfIdleLocked s
      if after.tenantPools.size = s.tenantPools.size then after
      else evictUntilRoom fuel after

def Entry.bump (e : Entry) : Entry := { e with inUse := e.inUse + 1 }

/-- The locked part of `_checkout_tenant`: the pool to call `getconn` on, or nothing when
building a new pool raised (what was evicted before stays evicted). -/
def checkoutTenantLocked (s : Shared Name) (name : Name) (built : Bool) :
    Shared Name × Option ℕ :=
  match s.tenantPools.get name with
  | some entry =>
    ({ s with tenantPools := (s.tenantPools.moveToEnd name).modify name Entry.bump },
      some entry.pool)
  | none =>
    let room := evictUntilRoom s.tenantPools.size s
    if built then
      ({ room with
          tenantPools := (room.tenantPools.set name ⟨room.nextPool, 0⟩).modify name Entry.bump
          nextPool := room.nextPool + 1 },
        some room.nextPool)
    else (room, none)

def Entry.dropRef (e : Entry) : Entry := { e with inUse := max 0 (e.inUse - 1) }

/-- Both cleanup blocks: `if current is entry: current.in_use = max(0, current.in_use - 1)`. -/
def dropRefLocked (s : Shared Name) (name : Name) (pool : ℕ) : Shared Name :=
  match s.tenantPools.get name with
  | some current =>
    if current.pool = pool then
      { s with tenantPools := s.tenantPools.modify name Entry.dropRef }
    else s
  | none => s

end locked

/-- Where a thread stands. `getting` is before the `getconn` call has answered, `undoing`
between its exception and the cleanup block, `returning` after `_release_tenant` has looked
the entry up, and `dropping` after `putconn` (or the direct close of a refused connection). -/
inductive Phase (Name : Type*)
  | idle
  | getting (name : Name) (pool : ℕ)
  | undoing (name : Name) (pool : ℕ)
  | holding (name : Name) (pool : ℕ)
  | returning (name : Name) (pool : ℕ) (found : Option ℕ) (close : Bool)
  | dropping (name : Name) (pool : ℕ) (found : ℕ)
  deriving DecidableEq, Repr

/-- The tenant name and the pool of the checkout a thread is in. -/
def Phase.checkout {Name : Type*} : Phase Name → Option (Name × ℕ)
  | .idle => none
  | .getting name pool | .undoing name pool | .holding name pool
  | .returning name pool _ _ | .dropping name pool _ => some (name, pool)

structure State (T Name : Type*) extends Shared Name where
  phase : T → Phase Name

/-- `getconn`, `lookup` (the first block of `_release_tenant`) and `putconn` are taken by the
thread outside or between its critical sections. -/
inductive Action (T Name : Type*)
  | checkout (t : T) (name : Name) (built : Bool)
  | getconn (t : T) (ok : Bool)
  | undo (t : T)
  | lookup (t : T) (close : Bool)
  | putconn (t : T) (accepted : Bool)
  | drop (t : T)

section machine
variable {T Name : Type*} [DecidableEq T] [DecidableEq Name]

/-- Thread `t` leaves a critical section with the shared part `shared`, and goes to `next`. -/
def State.locked (s : State T Name) (t : T) (shared : Shared Name) (next : Phase Name) :
    State T Name := ⟨shared, Function.update s.phase t next⟩

/-- Thread `t` moves outside the lock. -/
def State.goto (s : State T Name) (t : T) (next : Phase Name) : State T Name :=
  s.locked t s.toShared next

def step (s : State T Name) : Action T Name → Option (State T Name)
  | .checkout t name built =>
    match s.phase t with
    | .idle =>
      match checkoutTenantLocked s.toShared name built with
      | (shared, some pool) => some (s.locked t shared (.getting name pool))
      | (shared, none) => some (s.locked t shared .idle)
    | _ => none
  | .getconn t ok =>
    match s.phase t with
    | .getting name pool => some (s.goto t (if ok then .holding name pool else .undoing name pool))
    | _ => none
  | .undo t =>
    match s.phase t with
    | .undoing name pool => some (s.locked t (dropRefLocked s.toShared name pool) .idle)
    | _ => none
  | .lookup t close =>
    match s.phase t with
    | .holding name pool =>
      some (s.goto t (.returning name pool ((s.tenantPools.get name).map Entry.pool) close))
    | _ => none
  | .putconn t _ =>
    match s.phase t with
    | .returning _ _ none _ => some (s.goto t .idle)
    | .returning name pool (some found) _ => some (s.goto t (.dropping name pool found))
    | _ => none
  | .drop t =>
    match s.phase t with
    | .dropping name _ found => some (s.locked t (dropRefLocked s.toShared name found) .idle)
    | _ => none

def initial : State T Name := ⟨⟨.empty, 0, []⟩, fun _ => .idle⟩

def machine (T Name : Type*) [DecidableEq T] [DecidableEq Name] :
    Machine (State T Name) (Action T Name) := ⟨fun s => s = initial, step⟩

/-- The checkouts of a pool whose `getconn` is pending (its failure cleanup included) or
whose connection has not finished being returned. -/
def outstanding [Fintype T] (s : State T Name) (pool : ℕ) : ℕ :=
  load (fun ph : Phase Name => if ph.checkout.map Prod.snd = some pool then 1 else 0) s.phase

def busy (s : Shared Name) : ℕ := s.tenantPools.values.countP fun e => e.inUse ≠ 0

end machine
end UniversityHelper.TenantPool
