import UniversityHelper.Machine

/-! `AuthService.register_user` as a compensating transaction over two stores without a
common lock: the `users` table of the main database and the list of databases of the server. -/
namespace UniversityHelper.Registration

def reservedUsernames : List String :=
  ["template", "template0", "template1", "postgres", "main", "maindb", "root", "system"]

def reservedTenantDbNames : List String := ["tenant_template"]

def usernameChar (c : Char) : Bool := ('a' ≤ c ∧ c ≤ 'z') ∨ ('0' ≤ c ∧ c ≤ '9')

/-- `^[a-z0-9]+$`, where `$` also matches before one trailing newline. -/
def usernameMatches (username : String) : Bool :=
  let cs := username.toList
  let body := if cs.getLast? = some '\n' then cs.dropLast else cs
  body ≠ [] ∧ body.all usernameChar

def tenantDbName (username : String) : String := "tenant_" ++ username

/-- The two checks of `register_user` on the name (the password is checked next, before any
effect, and is not modelled). -/
def usernameAllowed (username : String) : Bool :=
  usernameMatches username ∧ username ∉ reservedUsernames ∧
    tenantDbName username ∉ reservedTenantDbNames

structure Request where
  username : String
  email : String
  deriving DecidableEq, Repr

structure UserRow where
  id : ℕ
  username : String
  email : String
  tenantDbName : String
  deriving DecidableEq, Repr

/-- Two rows that may stand in the `users` table together. -/
def UserRow.Apart (a b : UserRow) : Prop :=
  a.id ≠ b.id ∧ a.username ≠ b.username ∧ a.email ≠ b.email ∧ a.tenantDbName ≠ b.tenantDbName

instance (a b : UserRow) : Decidable (a.Apart b) := by
  unfold UserRow.Apart
  infer_instance

/-- The `users` table: its primary key and UNIQUE constraints always hold. -/
structure UserTable where
  rows : List UserRow
  unique : rows.Pairwise UserRow.Apart

instance : Std.Symm UserRow.Apart :=
  ⟨fun _ _ h => ⟨h.1.symm, h.2.1.symm, h.2.2.1.symm, h.2.2.2.symm⟩⟩

/-- INSERT, or nothing on a unique violation. -/
def UserTable.insert (t : UserTable) (row : UserRow) : Option UserTable :=
  if h : ∀ other ∈ t.rows, row.Apart other then some ⟨row :: t.rows, List.pairwise_cons.mpr ⟨h, t.unique⟩⟩
  else none

def UserTable.delete (t : UserTable) (id : ℕ) : UserTable :=
  ⟨t.rows.filter fun row => row.id ≠ id, t.unique.filter _⟩

def templateBusyBackoff : List ℚ := [1 / 2, 1, 2, 4]

/-- The exceptions `_create_tenant_database` tells apart; `other` stands for a missing
privilege, a lost connection and everything it does not catch. -/
inductive DdlError
  | objectInUse
  | invalidCatalogName (healed : Bool)
  | other
  deriving DecidableEq, Repr

/-- `creating`, `recreating` and `recreated` are inside `_create_tenant_database`: before
CREATE, after its `DuplicateDatabase` and before DROP, after DROP and before the second CREATE.
`rollingBack` is before the deletion of the row and `dropping` before the final DROP. -/
inductive Phase
  | ready
  | creating (userId : ℕ) (busyDelays : ℕ) (healedTemplate : Bool)
  | recreating (userId : ℕ) (busyDelays : ℕ) (healedTemplate : Bool)
  | recreated (userId : ℕ) (busyDelays : ℕ) (healedTemplate : Bool)
  | rollingBack (userId : ℕ)
  | dropping (userId : ℕ)
  | registered (userId : ℕ)
  | failed
  deriving DecidableEq, Repr

/-- The row a registration has inserted and not yet tried to delete. -/
def Phase.row : Phase → Option ℕ
  | .creating uid _ _ | .recreating uid _ _ | .recreated uid _ _ | .rollingBack uid
  | .registered uid => some uid
  | .ready | .dropping _ | .failed => none

/-- The row a registration has inserted, until it has given up. -/
def Phase.userId : Phase → Option ℕ
  | .dropping uid => some uid
  | ph => ph.row

def onDdlError (userId busyDelays : ℕ) (healedTemplate : Bool) : DdlError → Phase
  | .objectInUse =>
    match busyDelays with
    | 0 => .rollingBack userId
    | n + 1 => .creating userId n healedTemplate
  | .invalidCatalogName healed =>
    if !healedTemplate && healed then .creating userId busyDelays true else .rollingBack userId
  | .other => .rollingBack userId

structure State (R : Type*) where
  users : UserTable
  databases : Finset String
  nextId : ℕ
  phase : R → Phase

/-- Every action is one statement of one registration; `error` says how it fails, if it does. -/
inductive Action (R : Type*)
  | insertUserRow (r : R) (ok : Bool)
  | createDatabase (r : R) (error : Option DdlError)
  | dropDuplicate (r : R) (error : Option DdlError)
  | recreateDatabase (r : R) (error : Option DdlError)
  | rollbackUserRow (r : R) (ok : Bool)
  | dropTenantDatabase (r : R) (ok : Bool)

section machine
variable {R : Type*} [DecidableEq R] (request : R → Request)

def dbName (r : R) : String := tenantDbName (request r).username

def newRow (s : State R) (r : R) : UserRow :=
  ⟨s.nextId, (request r).username, (request r).email, dbName request r⟩

def State.goto (s : State R) (r : R) (next : Phase) : State R :=
  { s with phase := Function.update s.phase r next }

/-- `_insert_user_row`, with the checks before it. The id sequence advances even when the
row is refused. -/
def insertUserRow (s : State R) (r : R) (ok : Bool) : State R :=
  if usernameAllowed (request r).username = true ∧ ok = true then
    match s.users.insert (newRow request s r) with
    | some users =>
      { s.goto r (.creating s.nextId templateBusyBackoff.length false) with
        users := users
        nextId := s.nextId + 1 }
    | none => { s.goto r .failed with nextId := s.nextId + 1 }
  else s.goto r .failed

def step (s : State R) : Action R → Option (State R)
  | .insertUserRow r ok =>
    match s.phase r with
    | .ready => some (insertUserRow request s r ok)
    | _ => none
  | .createDatabase r error =>
    match s.phase r with
    | .creating uid busyDelays healed =>
      match error with
      | some e => some (s.goto r (onDdlError uid busyDelays healed e))
      | none =>
        if dbName request r ∈ s.databases then some (s.goto r (.recreating uid busyDelays healed))
        else some { s.goto r (.registered uid) with databases := insert (dbName request r) s.databases }
    | _ => none
  | .dropDuplicate r error =>
    match s.phase r with
    | .recreating uid busyDelays healed =>
      match error with
      | some e => some (s.goto r (onDdlError uid busyDelays healed e))
      | none =>
        some { s.goto r (.recreated uid busyDelays healed) with
          databases := s.databases.erase (dbName request r) }
    | _ => none
  | .recreateDatabase r error =>
    match s.phase r with
    | .recreated uid busyDelays healed =>
      match error with
      | some e => some (s.goto r (onDdlError uid busyDelays healed e))
      | none =>
        if dbName request r ∈ s.databases then some (s.goto r (.rollingBack uid))
        else some { s.goto r (.registered uid) with databases := insert (dbName request r) s.databases }
    | _ => none
  | .rollbackUserRow r ok =>
    match s.phase r with
    | .rollingBack uid =>
      some { s.goto r (.dropping uid) with users := if ok then s.users.delete uid else s.users }
    | _ => none
  | .dropTenantDatabase r ok =>
    match s.phase r with
    | .dropping _ =>
      some { s.goto r .failed with
        databases := if ok then s.databases.erase (dbName request r) else s.databases }
    | _ => none

/-- Any users and databases may be there when the registrations arrive. -/
def Start (s : State R) : Prop :=
  (∀ row ∈ s.users.rows, row.id < s.nextId) ∧ ∀ r, s.phase r = .ready

def machine : Machine (State R) (Action R) := ⟨Start, step request⟩

/-- The registration whose step removes its database from the server. -/
def drops (s : State R) : Action R → Option R
  | .dropDuplicate r none =>
    match s.phase r with
    | .recreating .. => if dbName request r ∈ s.databases then some r else none
    | _ => none
  | .dropTenantDatabase r true =>
    match s.phase r with
    | .dropping _ => if dbName request r ∈ s.databases then some r else none
    | _ => none
  | _ => none

end machine
end UniversityHelper.Registration
