import UniversityHelper.Machine
import UniversityHelper.OrderedDict
import UniversityHelper.PythonText

/-! The Zhihuishu login endpoints: the registries of QR sessions and of adapters, the handlers
on the event loop and the login threads. A handler keeps the loop between two awaits, while
the threads of the QR logins step in between any two critical sections of `_qr_sessions_lock`.
The registry of course tasks is not part of this model. -/
namespace UniversityHelper.QrLogin

/-- The text of `uuid4().hex`. -/
abbrev SessionId := String

inductive LoginStatus
  | pending | success | failed
  deriving DecidableEq, Repr

def LoginStatus.text : LoginStatus → String
  | .pending => "pending"
  | .success => "success"
  | .failed => "failed"

/-- The login that created an adapter. Every login creates its own. -/
inductive AdapterId
  | qr (session : SessionId) | password (serial : ℕ)
  deriving DecidableEq, Repr

structure QrSession where
  status : LoginStatus
  message : String
  qrCode : Option String
  updatedAt : ℚ
  userId : String

structure UserAdapter where
  adapter : AdapterId
  lastAccess : ℚ

/-- What `get_status` of an adapter answers, as far as the clean-up reads it. -/
structure AdapterStatus where
  hasTask : Bool
  currentStatus : Option String

def qrSessionTtlSeconds : ℚ := 10 * 60
def userAdapterTtlSeconds : ℚ := 60 * 60
def terminalTaskStatuses : List String := ["completed", "failed", "cancelled", "error"]

def threadStartFailureDetail : String :=
  "Server cannot start a new background thread. Stop existing tasks and retry, " ++
    "or restart the service if the problem persists."

/-- `_is_thread_start_failure`, on the texts of the exception and of its chain of causes. -/
def isThreadStartFailure (causes : List String) : Bool :=
  causes.any fun text =>
    contains (lower text) "can't start new thread" || contains (lower text) "cannot start new thread"

inductive Reply
  | success (message : String)
  | qrLogin (session : SessionId) (status message qrCode : String)
  | qrStatus (session : SessionId) (status message : String) (qrCode : Option String)
  | error (status : ℕ) (detail : String)
  | returned
  deriving DecidableEq, Repr

/-- `adapterAccess` is any other endpoint that starts with `_get_zhihuishu_adapter`. -/
inductive Request
  | startQrLogin | loginStatus (session : SessionId) | passwordLogin | logout
  | periodicCleanup | shutdown | adapterAccess
  deriving DecidableEq, Repr

/-- Where `_cancel_qr_sessions` returns to. -/
inductive Next
  | findAdapters (now : ℚ) | register | install (serial : ℕ) | closeTasks | reply (answer : Reply)
  deriving DecidableEq

inductive Phase
  | expiring (now : ℚ)
  | cancelling (sessions : List SessionId) (next : Next)
  | signalling (events : List SessionId) (next : Next)
  | findingAdapters (now : ℚ)
  | inspecting (now : ℚ) (expired : List (String × AdapterId))
  | dropping (now : ℚ) (user : String) (adapter : AdapterId) (expired : List (String × AdapterId))
  | listing (next : Next)
  | listingAll
  | registering
  | startingThread (session : SessionId)
  | awaitingQr (session : SessionId)
  | answering (session : SessionId)
  | awaitingPassword (serial : ℕ)
  | installing (serial : ℕ)
  | lookingUp
  | awaitingLogout
  | droppingAdapter
  | closingTasks
  | done (reply : Reply)

/-- The phases in which a handler has given the loop back. -/
def Phase.waiting : Phase → Bool
  | .awaitingQr _ | .awaitingPassword _ | .awaitingLogout | .done _ => true
  | _ => false

def Next.phase : Next → Phase
  | .findAdapters now => .findingAdapters now
  | .register => .registering
  | .install serial => .installing serial
  | .closeTasks => .closingTasks
  | .reply answer => .done answer

structure Call where
  user : String
  request : Request
  phase : Phase

/-- The thread of `login_worker`. -/
inductive Worker
  | starting | loggingIn | succeeding (success : Bool) | failing (message : String) | returned
  deriving DecidableEq, Repr

/-- What the closure of a QR login keeps: its user, its thread and its two events. -/
structure Login where
  user : String
  worker : Worker
  qrReady : Bool
  cancelled : Bool

structure State (C : Type*) where
  qrSessions : OrderedDict SessionId QrSession
  userAdapters : OrderedDict String UserAdapter
  login : SessionId → Option Login
  passwordLogins : ℕ
  loop : Option C
  call : C → Option Call

/-- How `login_with_password` ends: `unreachable` is a `requests.RequestException`. -/
inductive PasswordAnswer
  | success | refused | unreachable | raised
  deriving DecidableEq, Repr

/-- What a critical section of a handler takes from outside: a clock, a fresh id, the answer of
an adapter or of the thread it starts. -/
inductive Move
  | proceed
  | at (now : ℚ)
  | register (session : SessionId) (now : ℚ)
  | inspect (status : Option AdapterStatus)
  | startThread (failure : Option (List String))
  | qrWaited (ready : Bool)
  | passwordAnswered (answer : PasswordAnswer)
  | adapterLoggedOut (ok : Bool)

inductive WorkerMove
  | showQr (qrCode : String) (now : ℚ)
  | loggedIn (success : Bool)
  | raised (message : String)
  | finish (now : ℚ)

inductive Action (C : Type*)
  | request (c : C) (user : String) (request : Request) (now : ℚ)
  | handler (c : C) (move : Move)
  | worker (session : SessionId) (move : WorkerMove)

variable {C : Type*} [DecidableEq C]

def expiredSessions (sessions : OrderedDict SessionId QrSession) (now : ℚ) : List SessionId :=
  (sessions.filter fun e => qrSessionTtlSeconds < now - e.2.updatedAt).keys

/-- The sessions that `_cancel_qr_sessions_for_user` lists. -/
def sessionsOf (sessions : OrderedDict SessionId QrSession) (user : String) : List SessionId :=
  (sessions.filter fun e => e.2.userId = user).keys

/-- The critical section of `_cancel_qr_sessions`. -/
def popSessions (sessions : OrderedDict SessionId QrSession) (ids : List SessionId) :
    OrderedDict SessionId QrSession :=
  sessions.filter fun e => e.1 ∉ ids

def expiredAdapters (adapters : OrderedDict String UserAdapter) (now : ℚ) :
    List (String × AdapterId) :=
  (adapters.filter fun e => userAdapterTtlSeconds < now - e.2.lastAccess).entries.map
    fun e => (e.1, e.2.adapter)

/-- The clean-up keeps an adapter whose task is not over, or that it cannot inspect. -/
def keepsAdapter : Option AdapterStatus → Bool
  | none => true
  | some status => status.hasTask &&
      match status.currentStatus with
      | none => true
      | some text => text ∉ terminalTaskStatuses

/-- The entry is dropped unless it was replaced or refreshed in the meantime. -/
def dropAdapter (adapters : OrderedDict String UserAdapter) (now : ℚ) (user : String)
    (adapter : AdapterId) : OrderedDict String UserAdapter :=
  adapters.filter fun e =>
    !(e.1 = user && e.2.adapter = adapter && userAdapterTtlSeconds < now - e.2.lastAccess)

def newSession (user : String) (now : ℚ) : QrSession :=
  ⟨.pending, "Waiting for scan", none, now, user⟩

def showQr (qrCode : String) (now : ℚ) (session : QrSession) : QrSession :=
  { session with qrCode := some qrCode, updatedAt := now }

def conclude (success : Bool) (now : ℚ) (session : QrSession) : QrSession :=
  { session with
    status := if success = true then .success else .failed
    message := if success = true then "Login successful" else "Login failed"
    updatedAt := now }

def recordFailure (message : String) (now : ℚ) (session : QrSession) : QrSession :=
  { session with status := .failed, message := message, updatedAt := now }

def startAnswer (id : SessionId) : Option QrSession → Reply
  | none => .error 500 "QR code unavailable"
  | some session =>
    match session.qrCode with
    | none => .error 500 "QR code unavailable"
    | some qrCode =>
      if qrCode = "" then .error 500 "QR code unavailable"
      else .qrLogin id session.status.text session.message qrCode

def statusAnswer (id : SessionId) (user : String) : Option QrSession → Reply
  | none => .error 404 "QR session not found or expired"
  | some session =>
    if session.userId = user then .qrStatus id session.status.text session.message session.qrCode
    else .error 404 "QR session not found"

def invalidToken : Reply := .error 401 "Invalid token payload"

/-- What follows `cleanup_expired_entries` in the handler that called it. The start handler
looks at its user id only then. -/
def Request.afterCleanup (user : String) : Request → Phase
  | .startQrLogin => if user = "" then .done invalidToken else .listing .register
  | .loginStatus id => .answering id
  | _ => .done .returned

def Request.answer (sessions : OrderedDict SessionId QrSession) (user : String)
    (id : SessionId) : Request → Reply
  | .loginStatus _ => statusAnswer id user (sessions.get id)
  | _ => startAnswer id (sessions.get id)

/-- The handler goes on in `phase`; an await or a return gives the loop back. -/
def State.goto (s : State C) (c : C) (call : Call) (phase : Phase) : State C :=
  { s with
    loop := if phase.waiting = true then none else some c
    call := Function.update s.call c (some { call with phase := phase }) }

def State.setLogin (s : State C) (id : SessionId) (f : Login → Login) : State C :=
  { s with login := Function.update s.login id ((s.login id).map f) }

/-- What the handler does after a start of the login thread that failed. -/
def threadFailureReply (causes : List String) : Reply :=
  if isThreadStartFailure causes = true then .error 503 threadStartFailureDetail
  else .error 500 "Failed to start Zhihuishu QR login worker"

/-- `_get_zhihuishu_adapter`: a lookup refreshes the entry. -/
def State.touchAdapter (s : State C) (user : String) (now : ℚ) : State C :=
  { s with userAdapters := s.userAdapters.modify user fun e => { e with lastAccess := now } }

/-- One critical section of a handler, or its return from an await. -/
def State.handle (s : State C) (c : C) (call : Call) (move : Move) : Option (State C) :=
  match call.phase, move with
  | .expiring now, .proceed =>
    some (s.goto c call (.cancelling (expiredSessions s.qrSessions now) (.findAdapters now)))
  | .cancelling ids next, .proceed =>
    let events := ids.filter fun id => (s.qrSessions.get id).isSome
    some ({ s with qrSessions := popSessions s.qrSessions ids }.goto c call (.signalling events next))
  | .signalling (id :: ids) next, .proceed =>
    some ((s.setLogin id fun l => { l with cancelled := true }).goto c call (.signalling ids next))
  | .signalling [] next, .proceed => some (s.goto c call next.phase)
  | .findingAdapters now, .proceed =>
    some (s.goto c call (.inspecting now (expiredAdapters s.userAdapters now)))
  | .inspecting _ [], .proceed =>
    some (s.goto c call (call.request.afterCleanup call.user))
  | .inspecting now ((user, adapter) :: rest), .inspect status =>
    some (s.goto c call
      (if keepsAdapter status = true then .inspecting now rest else .dropping now user adapter rest))
  | .dropping now user adapter rest, .proceed =>
    some ({ s with userAdapters := dropAdapter s.userAdapters now user adapter }.goto c call
      (.inspecting now rest))
  | .listing next, .proceed =>
    some (s.goto c call (.cancelling (sessionsOf s.qrSessions call.user) next))
  | .listingAll, .proceed =>
    some (s.goto c call (.cancelling s.qrSessions.keys (.reply .returned)))
  | .registering, .register id now =>
    if (s.login id).isNone ∧ (s.qrSessions.get id).isNone then
      some ({ s with
        qrSessions := s.qrSessions.set id (newSession call.user now)
        login := Function.update s.login id (some ⟨call.user, .starting, false, false⟩) }.goto c call
          (.startingThread id))
    else none
  | .startingThread id, .startThread none =>
    some ((s.setLogin id fun l => { l with worker := .loggingIn }).goto c call (.awaitingQr id))
  | .startingThread id, .startThread (some causes) =>
    some ((s.setLogin id fun l => { l with worker := .returned }).goto c call
      (.cancelling [id] (.reply (threadFailureReply causes))))
  | .awaitingQr id, .qrWaited true =>
    if ((s.login id).any Login.qrReady) = true then some (s.goto c call (.answering id)) else none
  | .awaitingQr id, .qrWaited false =>
    some (s.goto c call (.cancelling [id] (.reply (.error 504 "Failed to generate QR code"))))
  | .answering id, .proceed =>
    some (s.goto c call (.done (call.request.answer s.qrSessions call.user id)))
  | .awaitingPassword serial, .passwordAnswered answer =>
    some (s.goto c call (match answer with
      | .success => .listing (.install serial)
      | .refused => .done (.error 401 "Login failed")
      | .unreachable => .done (.error 502 "课程平台请求失败，请稍后重试。")
      | .raised => .done (.error 401 "Zhihuishu login failed")))
  | .installing serial, .at now =>
    some ({ s with userAdapters := s.userAdapters.set call.user ⟨.password serial, now⟩ }.goto c call
      (.done (.success "Login successful")))
  | .lookingUp, .at now =>
    some ((s.touchAdapter call.user now).goto c call
      (match call.request, s.userAdapters.get call.user with
        | .logout, some _ => .awaitingLogout
        | .logout, none => .droppingAdapter
        | _, some _ => .done .returned
        | _, none => .done (.error 401 "Zhihuishu not logged in")))
  | .awaitingLogout, .adapterLoggedOut true => some (s.goto c call .droppingAdapter)
  | .awaitingLogout, .adapterLoggedOut false =>
    some (s.goto c call (.done (.error 500 "Failed to logout from Zhihuishu")))
  | .droppingAdapter, .proceed =>
    some ({ s with userAdapters := s.userAdapters.erase call.user }.goto c call (.listing .closeTasks))
  | .closingTasks, .proceed => some (s.goto c call (.done (.success "Logout successful")))
  | _, _ => none

/-- The first phase of a request. A password login creates its adapter before it awaits. -/
def Request.entry (user : String) (now : ℚ) (serial : ℕ) : Request → Phase
  | .startQrLogin | .periodicCleanup => .expiring now
  | .shutdown => .listingAll
  | request =>
    if user = "" then .done invalidToken
    else match request with
      | .loginStatus _ => .expiring now
      | .passwordLogin => .awaitingPassword serial
      | _ => .lookingUp

/-- A caller may send a new request when its last one has returned. -/
def idle : Option Call → Bool
  | none => true
  | some call => match call.phase with
    | .done _ => true
    | _ => false

/-- One step of `login_worker` for the session `id`. -/
def State.work (s : State C) (id : SessionId) (login : Login) (move : WorkerMove) :
    Option (State C) :=
  match login.worker, move with
  | .loggingIn, .showQr qrCode now =>
    if (s.qrSessions.get id).isSome then
      some ({ s with qrSessions := s.qrSessions.modify id (showQr qrCode now) }.setLogin id
        fun l => { l with qrReady := true })
    else some s
  | .loggingIn, .loggedIn success =>
    some (s.setLogin id fun l => { l with worker := .succeeding success })
  | .loggingIn, .raised message =>
    some (s.setLogin id fun l => { l with worker := .failing message })
  | .succeeding success, .finish now =>
    if (s.qrSessions.get id).isSome then
      some ({ s with
        qrSessions := s.qrSessions.modify id (conclude success now)
        userAdapters :=
          if success = true then s.userAdapters.set login.user ⟨.qr id, now⟩
          else s.userAdapters }.setLogin id fun l => { l with worker := .returned })
    else some (s.setLogin id fun l => { l with worker := .returned })
  | .failing message, .finish now =>
    some ({ s with qrSessions := s.qrSessions.modify id (recordFailure message now) }.setLogin id
      fun l => { l with worker := .returned })
  | _, _ => none

def step (s : State C) : Action C → Option (State C)
  | .request c user request now =>
    let call : Call := ⟨user, request, request.entry user now s.passwordLogins⟩
    if s.loop = none ∧ idle (s.call c) = true then
      some ({ s with passwordLogins := s.passwordLogins + 1 }.goto c call call.phase)
    else none
  | .handler c move =>
    match s.call c with
    | none => none
    | some call =>
      if s.loop = some c ∨ (s.loop = none ∧ call.phase.waiting = true) then s.handle c call move
      else none
  | .worker id move =>
    match s.login id with
    | none => none
    | some login => s.work id login move

def Start (s : State C) : Prop :=
  s.qrSessions = .empty ∧ s.userAdapters = .empty ∧ (∀ id, s.login id = none) ∧ s.loop = none ∧
    ∀ c, s.call c = none

def machine (C : Type*) [DecidableEq C] : Machine (State C) (Action C) := ⟨Start, step⟩

end UniversityHelper.QrLogin
