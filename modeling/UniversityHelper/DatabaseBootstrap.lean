import UniversityHelper.Machine

/-! The bootstrap of the PostgreSQL schema by any number of processes of the application: the check and repair
at startup, and the repair of the template when a registration misses it. A step is one statement of a process;
it may fail, its answer may get lost, a process may lose its connection or die between any two of them. -/
namespace UniversityHelper.DatabaseBootstrap

/-- The database `tenant_template`; `hasSchema` says that the table `todos` is in it. -/
structure Template where
  hasSchema : Bool
  isTemplate : Bool

/-- `lock` is the process whose connection holds the advisory lock. -/
structure Server (P : Type*) where
  users : Bool
  template : Option Template
  lock : Option P

/-- What comes of a statement: `denied` is `InsufficientPrivilege`, `lost` an error although it was executed. -/
inductive Answer
  | done
  | denied
  | refused
  | lost
  deriving DecidableEq

/-- Where a process is; `row` is what the query for `datistemplate` returned. From `selecting` to `unlocking` it
is between the call of `pg_advisory_lock` and that of `pg_advisory_unlock`. -/
inductive Phase
  | idle
  -- `check_schema`
  | checkingUsers
  | checkingTemplate (users : Bool)
  | checked (users : Bool) (row : Option Bool)
  -- `ensure_main_schema`
  | applyingMain (row : Option Bool)
  -- `ensure_tenant_template`
  | locking
  | selecting
  | creating
  | inspecting (marked : Bool)
  | applying (created marked : Bool)
  | dropping
  | marking
  | unlocking (ready : Bool)
  -- the second `check_schema`
  | recheckingUsers
  | recheckingTemplate (users : Bool)
  | returned (label : String)
  | healed
  | raised
  deriving DecidableEq

def statusLabel (users : Bool) (row : Option Bool) : String :=
  if !users then "missing_users" else if row.isNone then "missing_tenant_template" else "ok"

variable {P : Type*} [DecidableEq P]

/-- Marks the template, unless it is marked. -/
def markUnless (marked : Bool) : Phase := if marked then .unlocking true else .marking

/-- One step of the process `p`; `bundled` says that the SQL files were found, and `heals` that it runs
`ensure_tenant_template` for a registration. -/
def processStep (bundled heals : Bool) (s : Server P) (p : P) (answer : Answer) : Phase → Option (Server P × Phase)
  | .idle => some (s, if heals then (if bundled then .locking else .raised) else .checkingUsers)
  | .checkingUsers => some (s, if answer = .done then .checkingTemplate s.users else .raised)
  | .checkingTemplate users =>
    some (s, if answer = .done then .checked users (s.template.map Template.isTemplate) else .raised)
  | .checked users row =>
    some (s, if users && row = some true then .returned "ok"
      else if !bundled then .returned (statusLabel users row)
      else if !users then .applyingMain row
      else .locking)
  | .applyingMain row =>
    match answer with
    | .done => some ({ s with users := true }, if row = some true then .recheckingUsers else .locking)
    | .lost => some ({ s with users := true }, .raised)
    | _ => some (s, .raised)
  | .locking =>
    if answer = .done then
      if s.lock.isNone then some ({ s with lock := some p }, .selecting) else none
    else some (s, .raised)
  | .selecting =>
    if s.lock = some p ∧ answer = .done then
      some (s, match s.template with
        | none => .creating
        | some template => .inspecting template.isTemplate)
    else some (s, .unlocking false)
  | .creating =>
    if s.lock = some p ∧ s.template.isNone then
      match answer with
      | .done => some ({ s with template := some ⟨false, false⟩ }, .applying true false)
      | .lost => some ({ s with template := some ⟨false, false⟩ }, .unlocking false)
      | _ => some (s, .unlocking false)
    else some (s, .unlocking false)
  -- `_template_has_schema` and `_apply_sql` connect anew
  | .inspecting marked =>
    match s.template with
    | none => some (s, .unlocking false)
    | some template =>
      some (s, if answer ≠ .done then .unlocking false
        else if template.hasSchema then markUnless marked
        else .applying false marked)
  | .applying created marked =>
    match s.template, answer with
    | some template, .done =>
      some ({ s with template := some { template with hasSchema := true } }, markUnless marked)
    | some template, .lost =>
      some ({ s with template := some { template with hasSchema := true } },
        if created then .dropping else .unlocking false)
    | _, _ => some (s, if created then .dropping else .unlocking false)
  | .dropping =>
    if s.lock = some p ∧ (answer = .done ∨ answer = .lost) ∧ s.template.all (!·.isTemplate) then
      some ({ s with template := none }, .unlocking false)
    else some (s, .unlocking false)
  | .marking =>
    if s.lock = some p then
      match answer with
      | .done => some ({ s with template := s.template.map ({ · with isTemplate := true }) }, .unlocking true)
      | .denied => some (s, .unlocking true)
      | .lost => some ({ s with template := s.template.map ({ · with isTemplate := true }) }, .unlocking false)
      | .refused => some (s, .unlocking false)
    else some (s, .unlocking false)
  | .unlocking ready =>
    -- the connection is closed after it, which also frees the lock
    if s.lock = some p then
      some ({ s with lock := none },
        if ready && answer = .done then (if heals then .healed else .recheckingUsers) else .raised)
    else some (s, .raised)
  | .recheckingUsers => some (s, if answer = .done then .recheckingTemplate s.users else .raised)
  | .recheckingTemplate users =>
    some (s, if answer = .done then .returned (statusLabel users (s.template.map Template.isTemplate)) else .raised)
  | .returned _ => none
  | .healed => none
  | .raised => none

structure State (P : Type*) where
  server : Server P
  phase : P → Phase

inductive Action (P : Type*)
  | run (p : P) (answer : Answer)
  | disconnect (p : P)
  | restart (p : P)

/-- The server lets go of the lock of a connection that ends. -/
def Server.disconnect (s : Server P) (p : P) : Server P :=
  if s.lock = some p then { s with lock := none } else s

/-- A process starts anew after it has died, after an error, and for its next registration. -/
def step (bundled : Bool) (heals : P → Bool) (s : State P) : Action P → Option (State P)
  | .run p answer =>
    (processStep bundled (heals p) s.server p answer (s.phase p)).map fun (server, next) =>
      ⟨server, Function.update s.phase p next⟩
  | .disconnect p => some { s with server := s.server.disconnect p }
  | .restart p => some ⟨s.server.disconnect p, Function.update s.phase p .idle⟩

/-- Wherever the init scripts of the server stopped, they mark the template only after its schema was applied:
this leaves out the volume that was set up without `tenant_template.sql`, where they warn and mark it all the
same. -/
def machine (bundled : Bool) (heals : P → Bool) : Machine (State P) (Action P) where
  start s := s.server.lock = none ∧ (∀ p, s.phase p = .idle) ∧
    ∀ template, s.server.template = some template → template.isTemplate = true → template.hasSchema = true
  step := step bundled heals

end UniversityHelper.DatabaseBootstrap
