import UniversityHelper.Machine

/-! The startup of the desktop shell: a watchdog, the reader of the sidecar's events, the task that waits for
the backend and the main thread race for one `StartupCompletion`. Instants and durations are in milliseconds;
what the sidecar, the backend and the window toolkit answer is part of the schedule. -/
namespace UniversityHelper.DesktopStartup

abbrev Port := Fin 65536

/-! ### The readiness line -/

/-- `char::is_whitespace`. -/
def isWhitespace (c : Char) : Bool :=
  (9 ≤ c.toNat && c.toNat ≤ 13) || c.toNat ∈ [0x20, 0x85, 0xa0, 0x1680] ||
    (0x2000 ≤ c.toNat && c.toNat ≤ 0x200a) || c.toNat ∈ [0x2028, 0x2029, 0x202f, 0x205f, 0x3000]

def splitWhitespace (line : List Char) : List (List Char) := (line.splitOnP isWhitespace).filter (· ≠ [])

/-- `str::parse::<u16>`. -/
def parsePort (cs : List Char) : Option Port :=
  let digits := if cs.head? = some '+' then cs.tail else cs
  if digits.isEmpty || !digits.all Char.isDigit then none
  else
    let value := Nat.ofDigitChars 10 digits 0
    if h : value < 65536 then some ⟨value, h⟩ else none

def tokenPrefix : String := "UH_BACKEND_LISTENING"

def parseListeningPort (line : String) : Option Port :=
  match splitWhitespace line.toList with
  | token :: port :: _ => if String.ofList token = tokenPrefix then parsePort port else none
  | _ => none

/-- What `desktop_entry.py` prints once the application is imported. -/
def listeningLine (port : ℕ) : String := tokenPrefix ++ " " ++ toString port ++ "\n"

section Line
variable {cs word : List Char} {c : Char}

theorem splitWhitespace_cons (hc : isWhitespace c = true) : splitWhitespace (c :: cs) = splitWhitespace cs := by
  simp [splitWhitespace, List.splitOnP_cons_eq_if_modifyHead, hc]

theorem splitWhitespace_append (hcs : cs.all isWhitespace = true) (rest : List Char) :
    splitWhitespace (cs ++ rest) = splitWhitespace rest := by
  induction cs with
  | nil => rfl
  | cons c cs ih =>
    rw [List.all_cons, Bool.and_eq_true] at hcs
    rw [List.cons_append, splitWhitespace_cons hcs.1]
    exact ih hcs.2

theorem splitWhitespace_word (hword : ∀ c ∈ word, isWhitespace c = false) (hne : word ≠ [])
    (hc : isWhitespace c = true) (rest : List Char) :
    splitWhitespace (word ++ c :: rest) = word :: splitWhitespace rest := by
  rw [splitWhitespace, List.splitOnP_append_cons_of_forall_mem hword c hc, List.filter_cons_of_pos (by simpa using hne)]
  rfl

theorem isWhitespace_of_isDigit (hc : c.isDigit = true) : isWhitespace c = false := by
  have hrange : 48 ≤ c.toNat ∧ c.toNat ≤ 57 := by
    simpa [Char.isDigit, UInt32.le_iff_toNat_le] using hc
  simp only [isWhitespace, List.mem_cons, List.not_mem_nil, or_false, Bool.or_eq_false_iff, Bool.and_eq_false_iff,
    decide_eq_false_iff_not]
  omega

theorem parsePort_toDigits (port : ℕ) :
    parsePort (Nat.toDigits 10 port) = if h : port < 65536 then some ⟨port, h⟩ else none := by
  have hdigits : ∀ c ∈ Nat.toDigits 10 port, c.isDigit = true :=
    fun _ hc => Nat.isDigit_of_mem_toDigits (by decide) (by decide) hc
  have hsign : (Nat.toDigits 10 port).head? ≠ some '+' := by
    intro hhead
    have hplus := hdigits '+' (List.mem_of_mem_head? hhead)
    exact absurd hplus (by decide)
  have hproper : ((Nat.toDigits 10 port).isEmpty || !(Nat.toDigits 10 port).all Char.isDigit) = false := by
    simp [List.all_eq_true.mpr hdigits, Nat.toDigits_ne_nil]
  simp only [parsePort, if_neg hsign, hproper, Nat.ofDigitChars_ten_toDigits]
  simp

/-- The shell reads the line that the sidecar prints, however it is surrounded by white space; a number that
is no `u16` is refused. -/
theorem listeningLine_read (port : ℕ) {lead trail : List Char} (hlead : lead.all isWhitespace = true)
    (htrail : trail.all isWhitespace = true) :
    parseListeningPort (String.ofList (lead ++ (listeningLine port).toList ++ trail)) =
      if h : port < 65536 then some ⟨port, h⟩ else none := by
  have hline : lead ++ (listeningLine port).toList ++ trail =
      lead ++ (tokenPrefix.toList ++ ' ' :: (Nat.toDigits 10 port ++ '\n' :: trail)) := by
    simp [listeningLine, toString, Nat.repr]
  have hall : tokenPrefix.toList.all (fun c => !isWhitespace c) = true := by decide
  have htoken : ∀ c ∈ tokenPrefix.toList, isWhitespace c = false := fun c hc => by
    simpa using List.all_eq_true.mp hall c hc
  have hdigits : ∀ c ∈ Nat.toDigits 10 port, isWhitespace c = false := fun _ hc =>
    isWhitespace_of_isDigit (Nat.isDigit_of_mem_toDigits (by decide) (by decide) hc)
  have hwords : splitWhitespace (lead ++ (listeningLine port).toList ++ trail) =
      [tokenPrefix.toList, Nat.toDigits 10 port] := by
    rw [hline, splitWhitespace_append hlead, splitWhitespace_word htoken (by decide) (by decide),
      splitWhitespace_word hdigits Nat.toDigits_ne_nil (by decide), ← List.append_nil trail,
      splitWhitespace_append htrail]
    rfl
  rw [parseListeningPort, String.toList_ofList, hwords]
  dsimp only
  rw [String.ofList_toList, if_pos rfl, parsePort_toDigits]

theorem listeningLine_read_crlf :
    parseListeningPort (String.ofList ([' '] ++ (listeningLine 8000).toList ++ ['\r', '\n'])) =
      if h : 8000 < 65536 then some ⟨8000, h⟩ else none :=
  listeningLine_read 8000 (by decide) (by decide)

end Line

/-! ### The threads -/

def startupTimeout : ℕ := 60000
def watchdogPollInterval : ℕ := 100
def backendRetryDelay : ℕ := 100

def startupTimeoutMessage (port : Port) : String :=
  if port = 0 then "本地后端在规定时间内未报告监听地址"
  else "本地后端 127.0.0.1:" ++ toString port.val ++ " 在规定时间内未能响应"

def backendUrl (port : Port) : String := "http://127.0.0.1:" ++ toString port.val

inductive CommandEvent
  | stdout (line : String)
  | stderr (line : String)
  | error (text : String)
  | terminated (payload : String)
  | other

/-- What the threads share. `sidecar` says that `SidecarProcess` still holds the child, `stopped` counts the
stops of its process tree, `answered` lists the requests that got their 200 before the deadline,
`readinessStarted` is the reader's own and `leaving` is set when the app is asked to exit. -/
structure Shared where
  now : ℕ
  completion : Bool
  sidecar : Bool
  stopped : ℕ
  observedPort : Port
  readinessStarted : Bool
  spawned : Option Port
  answered : List (Port × String)
  queued : Option Port
  windows : List Port
  startupErrors : List String
  leaving : Bool

/-- Where a thread goes on after it has reported an error. -/
inductive Return
  | finished
  | closing
  | idle

inductive Phase
  | absent
  | finished
  -- `check_for_updates`
  | updating
  -- `run_startup_watchdog`
  | polling
  | remaining
  | dozing (wake : ℕ)
  | claimingTimeout
  | loadingPort
  -- the reader of the sidecar's events
  | receiving
  | received (event : CommandEvent)
  | handling (event : CommandEvent)
  | storingPort (port : Port)
  | spawning (port : Port)
  | closing
  -- `wait_for_backend_ready`
  | looping (port : Port)
  | probingHealth (port : Port)
  | healthy (port : Port)
  | probingRoot (port : Port)
  | serving (port : Port)
  | pausing (port : Port)
  | sleeping (port : Port) (wake : ℕ)
  -- `complete_startup_success` and the callback it queues
  | addressing (port : Port)
  | checking (port : Port)
  | scheduling (port : Port)
  | idle
  | called (port : Port)
  | claimingWindow (port : Port)
  | building (port : Port)
  -- `complete_startup_error` and `kill_sidecar`
  | claiming (message : String) (back : Return)
  | showing (message : String) (back : Return)
  | taking (back : Return)
  | stopping (back : Return)

def Return.phase : Return → Phase
  | .finished => .finished
  | .closing => .closing
  | .idle => .idle

/-- The branch of the reader for an event; nothing is done about the lines it only logs. -/
def handleEvent (s : Shared) : CommandEvent → Shared × Phase
  | .stdout line =>
    if s.readinessStarted then (s, .receiving)
    else match parseListeningPort line with
      | none => (s, .receiving)
      | some port => ({ s with readinessStarted := true }, .storingPort port)
  | .stderr _ => (s, .receiving)
  | .error text => (s, .claiming ("本地后端启动输出错误：" ++ text) .closing)
  | .terminated payload => (s, .claiming ("本地后端在启动完成前退出：" ++ payload) .closing)
  | .other => (s, .receiving)

/-- One step of a thread up to its next access to what the threads share; `answer` is what the code outside
answers to it, and only matters to the probes, the URL parser, the scheduler and the window builder. -/
def threadStep (deadline : ℕ) (s : Shared) (answer : Except String Unit) : Phase → Option (Shared × Phase)
  | .absent => s.spawned.map fun port => (s, .looping port)
  | .finished => none
  | .updating => none
  | .polling => some (s, if s.completion then .finished else .remaining)
  | .remaining =>
    some (s, if deadline ≤ s.now then .claimingTimeout
      else .dozing (s.now + min (deadline - s.now) watchdogPollInterval))
  | .dozing wake => if wake ≤ s.now then some (s, .polling) else none
  | .claimingTimeout =>
    if s.completion then some (s, .finished) else some ({ s with completion := true }, .loadingPort)
  | .loadingPort => some (s, .showing (startupTimeoutMessage s.observedPort) .finished)
  | .receiving => none
  | .received event => some (s, if s.completion then .closing else .handling event)
  | .handling event => some (handleEvent s event)
  | .storingPort port => some ({ s with observedPort := port }, .spawning port)
  | .spawning port => some ({ s with spawned := some port }, .receiving)
  | .closing => some (s, if s.completion then .finished else .claiming "本地后端启动输出已关闭" .finished)
  | .looping port =>
    some (s, if deadline ≤ s.now then .claiming (startupTimeoutMessage port) .finished else .probingHealth port)
  | .probingHealth port =>
    match answer with
    | .ok _ =>
      if s.now < deadline then some ({ s with answered := s.answered ++ [(port, "/health")] }, .healthy port)
      else some (s, .pausing port)
    | .error _ => some (s, .pausing port)
  | .healthy port =>
    some (s, if deadline ≤ s.now then .claiming (startupTimeoutMessage port) .finished else .probingRoot port)
  | .probingRoot port =>
    match answer with
    | .ok _ =>
      if s.now < deadline then some ({ s with answered := s.answered ++ [(port, "/")] }, .serving port)
      else some (s, .pausing port)
    | .error _ => some (s, .pausing port)
  | .serving port =>
    some (s, if s.now < deadline then .addressing port else .claiming (startupTimeoutMessage port) .finished)
  | .pausing port =>
    some (s, if deadline ≤ s.now then .claiming (startupTimeoutMessage port) .finished
      else .sleeping port (s.now + min (deadline - s.now) backendRetryDelay))
  | .sleeping port wake => if wake ≤ s.now then some (s, .looping port) else none
  | .addressing port =>
    match answer with
    | .ok _ => some (s, .checking port)
    | .error text => some (s, .claiming ("本地后端地址无效 " ++ backendUrl port ++ "：" ++ text) .finished)
  | .checking port =>
    some (s, if deadline ≤ s.now then .claiming (startupTimeoutMessage port) .finished else .scheduling port)
  | .scheduling port =>
    match answer with
    | .ok _ => some ({ s with queued := some port }, .finished)
    | .error text => some (s, .claiming ("无法调度主窗口创建：" ++ text) .finished)
  | .idle => s.queued.map fun port => ({ s with queued := none }, .called port)
  | .called port =>
    some (s, if deadline ≤ s.now then .claiming (startupTimeoutMessage port) .idle else .claimingWindow port)
  | .claimingWindow port =>
    if s.completion then some (s, .idle) else some ({ s with completion := true }, .building port)
  | .building port =>
    match answer with
    | .ok _ => some ({ s with windows := s.windows ++ [port] }, .idle)
    | .error text => some (s, .showing ("无法创建主窗口：" ++ text) .idle)
  | .claiming message back =>
    if s.completion then some (s, back.phase) else some ({ s with completion := true }, .showing message back)
  | .showing message back => some ({ s with startupErrors := s.startupErrors ++ [message] }, .taking back)
  | .taking back =>
    if s.sidecar then some ({ s with sidecar := false }, .stopping back) else some (s, back.phase)
  | .stopping back => some ({ s with stopped := s.stopped + 1 }, back.phase)

/-! ### The machine -/

inductive Thread
  | watchdog
  | reader
  | readiness
  | main
  | updater
  deriving DecidableEq

instance : Fintype Thread where
  elems := {.watchdog, .reader, .readiness, .main, .updater}
  complete x := by cases x <;> decide

structure State where
  shared : Shared
  phase : Thread → Phase

/-- `exit` is `RunEvent::ExitRequested`, `update` an update that has been installed. -/
inductive Action
  | tick
  | receive (event : Option CommandEvent)
  | exit
  | update
  | run (x : Thread) (answer : Except String Unit)

def step (deadline : ℕ) (s : State) : Action → Option State
  | .tick => some { s with shared := { s.shared with now := s.shared.now + 1 } }
  | .receive event =>
    match s.phase .reader with
    | .receiving =>
      some { s with phase := Function.update s.phase .reader (event.elim .closing .received) }
    | _ => none
  | .exit =>
    match s.phase .main with
    | .idle =>
      some ⟨{ s.shared with leaving := true }, Function.update s.phase .main (.taking .finished)⟩
    | _ => none
  | .update =>
    match s.phase .updater with
    | .updating =>
      some ⟨{ s.shared with leaving := true }, Function.update s.phase .updater (.taking .finished)⟩
    | _ => none
  | .run x answer =>
    (threadStep deadline s.shared answer (s.phase x)).map fun (shared, next) =>
      ⟨shared, Function.update s.phase x next⟩

def newShared (now : ℕ) : Shared where
  now := now
  completion := false
  sidecar := true
  stopped := 0
  observedPort := 0
  readinessStarted := false
  spawned := none
  answered := []
  queued := none
  windows := []
  startupErrors := []
  leaving := false

def newPhase : Thread → Phase
  | .watchdog => .polling
  | .reader => .receiving
  | .readiness => .absent
  | .main => .idle
  | .updater => .updating

/-- The deadline is fixed right before the sidecar is spawned. -/
def machine (startedAt : ℕ) : Machine State Action where
  start s := (∃ now, startedAt ≤ now ∧ s.shared = newShared now) ∧ s.phase = newPhase
  step := step (startedAt + startupTimeout)

end UniversityHelper.DesktopStartup
