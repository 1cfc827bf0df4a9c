import UniversityHelper.LogTail

/-! The last line of the view once polling has stopped, and the answers that leave it out. -/
namespace UniversityHelper.LogTail
open TaskAdmission TaskManager

section Lists
variable {α : Type*}

theorem getLast?_of_suffix {xs ys : List α} (h : xs <:+ ys) (hne : xs ≠ []) :
    xs.getLast? = ys.getLast? := by
  obtain ⟨zs, rfl⟩ := h
  rw [List.getLast?_append_of_ne_nil _ hne]

theorem getLast?_keepLast {limit : ℕ} (hlimit : 0 < limit) (xs : List α) :
    (keepLast limit xs).getLast? = xs.getLast? := by
  cases xs with
  | nil => simp [keepLast]
  | cons x rest =>
    apply getLast?_of_suffix (keepLast_suffix _ _)
    have hlen : 0 < (keepLast limit (x :: rest)).length := by
      rw [length_keepLast, List.length_cons]
      omega
    exact List.ne_nil_of_length_pos hlen

variable [BEq α] [LawfulBEq α]

/-- After the first occurrence of the last element, everything is a repetition. -/
def EndsFresh (xs : List α) : Prop :=
  ∃ before x after, xs = before ++ x :: after ∧ x ∉ before ∧ (∀ y ∈ after, y ∈ before ∨ y = x) ∧
    xs.getLast? = some x

theorem getLast?_eraseDups {xs : List α} (h : EndsFresh xs) :
    xs.eraseDups.getLast? = xs.getLast? := by
  obtain ⟨before, x, after, rfl, hnew, hold, hlast⟩ := h
  have hremoved : ((x :: after).removeAll before).eraseDups = [x] := by
    have hhead : (x :: after).removeAll before = x :: after.removeAll before := by
      simp [List.removeAll, hnew]
    have htail : (after.removeAll before).filter (fun y => !y == x) = [] := by
      rw [List.filter_eq_nil_iff]
      intro y hy
      obtain ⟨hmem, hnot⟩ := List.mem_filter.mp hy
      rcases hold y hmem with hbefore | rfl
      · simp [hbefore] at hnot
      · simp
    rw [hhead, List.eraseDups_cons, htail, List.eraseDups_nil]
  rw [hlast, List.eraseDups_append, hremoved, List.getLast?_concat]

end Lists

variable {W I : Type*} {worker : Worker W I} {hook : Hook}

/-- The steps of a worker alone. -/
def Worker.machine (worker : Worker W I) : Machine W I :=
  ⟨worker.start, fun w i => (worker.step w i).map Prod.fst⟩

/-- The worker has no line left to append. -/
def Worker.Quiet (worker : Worker W I) (w : W) : Prop :=
  ∀ v, worker.machine.Run Machine.free w v → ∀ i next line,
    worker.step v i ≠ some (next, some (.line line))

theorem Worker.Quiet.step {w next : W} {i : I} {write : Option Write} (h : worker.Quiet w)
    (taken : worker.step w i = some (next, write)) : worker.Quiet next := by
  intro v run
  have hstep : worker.machine.step w i = some next := by
    change (worker.step w i).map Prod.fst = some next
    rw [taken]
    rfl
  exact h v ((Machine.Run.refl.tail trivial hstep).trans run)

/-- The condition on the processing of a logs answer. Its newest line is not hidden by its
repetitions; a cursor at the retention limit leaves no line out; and once polling has stopped, it
was given after the last line of the worker. -/
def Timely (worker : Worker W I) (hook : Hook) (s : State W) : Action I → Prop
  | .hearLogs => ∀ poll answer, s.inFlight = some poll → poll.logs = some answer →
      (hook.dedup = true → answer.logs ≠ [] → EndsFresh (s.view ++ answer.logs)) ∧
      (hook.rules.logLimit ≤ poll.mark.cursor → poll.mark.seen = answer.mark.seen) ∧
      (s.polling = false → worker.Quiet s.worker ∧ answer.mark.seen = s.appended.length)
  | _ => True

/-- What the two hooks have in common. -/
structure Hook.Regular (hook : Hook) : Prop where
  slice : ∀ n own : ℕ, hook.rules.sliceStart (some n) own = n
  logLimit : 0 < hook.rules.logLimit
  viewLimit : 0 < hook.viewLimit

theorem useTaskExecution_regular : useTaskExecution.Regular :=
  ⟨fun _ _ => rfl, by decide, by decide⟩

theorem useBackgroundTasks_regular : useBackgroundTasks.Regular :=
  ⟨fun n _ => by simp [useBackgroundTasks, signinRules], by decide, by decide⟩

/-- The last line shown is the last of an answer that is not empty. -/
theorem getLast?_appendLogs (hregular : hook.Regular) {view incoming : List LogLine}
    (hne : incoming ≠ []) (hfresh : hook.dedup = true → EndsFresh (view ++ incoming)) :
    (hook.appendLogs view incoming).getLast? = incoming.getLast? := by
  have hmerged : (view ++ incoming).getLast? = incoming.getLast? :=
    List.getLast?_append_of_ne_nil _ hne
  rw [Hook.appendLogs, if_neg hne, getLast?_keepLast hregular.viewLimit]
  split
  · rename_i hdedup
    rw [getLast?_eraseDups (hfresh hdedup), hmerged]
  · exact hmerged

/-- A mark that the server may have given, among those with at most `n` lines. -/
def Mark.Valid (hook : Hook) (n : ℕ) (m : Mark) : Prop :=
  m.cursor = min hook.rules.logLimit m.seen ∧ m.seen ≤ n

theorem Mark.Valid.mono {m : Mark} {n n' : ℕ} (h : m.Valid hook n) (hle : n ≤ n') :
    m.Valid hook n' := ⟨h.1, h.2.trans hle⟩

theorem Mark.zero_valid {n : ℕ} : Mark.zero.Valid hook n := by simp [Mark.Valid, Mark.zero]

/-- The cursors the client may send from now on. -/
structure Marks (hook : Hook) (n : ℕ) (s : State W) : Prop where
  logCursor : s.logCursor.Valid hook n
  rendered : ∀ m, s.rendered = some m → m.Valid hook n
  logCursorRef : s.logCursorRef.Valid hook n

theorem Marks.mono {n n' : ℕ} {s : State W} (h : Marks hook n s) (hle : n ≤ n') :
    Marks hook n' s :=
  ⟨h.logCursor.mono hle, fun m hm => (h.rendered m hm).mono hle, h.logCursorRef.mono hle⟩

theorem Marks.congr {n : ℕ} {s t : State W} (h : Marks hook n s) (cursor : t.logCursor = s.logCursor)
    (rendered : t.rendered = s.rendered) (ref : t.logCursorRef = s.logCursorRef) : Marks hook n t :=
  ⟨cursor ▸ h.logCursor, rendered ▸ h.rendered, ref ▸ h.logCursorRef⟩

/-- An answer about the first lines of the log, given after the view last took some in. -/
structure Answered (hook : Hook) (s : State W) (mark : Mark) (answer : Answer) : Prop where
  logs : answer.logs = (keepLast hook.rules.logLimit (s.appended.take answer.mark.seen)).drop mark.cursor
  mark : answer.mark.Valid hook s.appended.length
  later : s.shown ≤ answer.mark.seen
  marks : Marks hook answer.mark.seen s

structure Inv (worker : Worker W I) (hook : Hook) (s : State W) : Prop where
  retained : s.logs = keepLast hook.rules.logLimit s.appended
  shown : s.shown ≤ s.appended.length
  last : s.view.getLast? = (s.appended.take s.shown).getLast?
  marks : Marks hook s.appended.length s
  idle : s.inFlight = none → Marks hook s.shown s
  sent : ∀ poll, s.inFlight = some poll → poll.mark.Valid hook s.shown
  answered : ∀ poll answer, s.inFlight = some poll → poll.logs = some answer →
    Answered hook s poll.mark answer
  stopped : s.polling = false → s.inFlight = none →
    worker.Quiet s.worker ∧ s.shown = s.appended.length

theorem Inv.start {s : State W} (h : (machine worker hook).start s) : Inv worker hook s := by
  obtain ⟨-, hlogs, happended, hview, hcursor, hrendered, href, hshown, hpolling, hflight⟩ := h
  have hmarks : ∀ n, Marks hook n s := fun n =>
    ⟨hcursor ▸ Mark.zero_valid, fun m hm => (by simp [hrendered] at hm), href ▸ Mark.zero_valid⟩
  refine ⟨?_, by omega, ?_, hmarks _, fun _ => hmarks _, fun poll hpoll => ?_,
    fun poll answer hpoll => ?_, fun hstopped => ?_⟩
  · simp [hlogs, happended, keepLast]
  · rw [hview, happended, List.take_nil]
  · rw [hflight] at hpoll
    cases hpoll
  · rw [hflight] at hpoll
    cases hpoll
  · rw [hpolling] at hstopped
    cases hstopped

/-- An answer stays right while further lines are appended. -/
theorem Answered.append {s t : State W} {mark : Mark} {answer : Answer}
    (h : Answered hook s mark answer) (lines : List LogLine) (appended : t.appended = s.appended ++ lines)
    (shown : t.shown = s.shown) (cursor : t.logCursor = s.logCursor)
    (rendered : t.rendered = s.rendered) (ref : t.logCursorRef = s.logCursorRef) :
    Answered hook t mark answer := by
  have hle : answer.mark.seen ≤ s.appended.length := h.mark.2
  refine ⟨?_, h.mark.mono ?_, shown ▸ h.later, h.marks.congr cursor rendered ref⟩
  · rw [h.logs, appended, List.take_append_of_le_length hle]
  · rw [appended, List.length_append]
    omega

def linesOf : Option Write → List LogLine
  | some (.line line) => [line]
  | _ => []

theorem write_view (hook : Hook) (s : State W) (write : Option Write) :
    (s.write hook write).worker = s.worker ∧ (s.write hook write).view = s.view ∧
      (s.write hook write).shown = s.shown ∧ (s.write hook write).polling = s.polling ∧
      (s.write hook write).inFlight = s.inFlight := by
  rcases write with _ | _ | _ <;> simp [State.write]

theorem write_cursors (hook : Hook) (s : State W) (write : Option Write) :
    (s.write hook write).logCursor = s.logCursor ∧ (s.write hook write).rendered = s.rendered ∧
      (s.write hook write).logCursorRef = s.logCursorRef := by
  rcases write with _ | _ | _ <;> simp [State.write]

theorem write_appended (hook : Hook) (s : State W) (write : Option Write) :
    (s.write hook write).appended = s.appended ++ linesOf write := by
  rcases write with _ | _ | _ <;> simp [State.write, linesOf]

theorem write_retained {s : State W} (h : s.logs = keepLast hook.rules.logLimit s.appended)
    (write : Option Write) :
    (s.write hook write).logs = keepLast hook.rules.logLimit (s.write hook write).appended := by
  rcases write with _ | _ | line
  · exact h
  · exact h
  · change keepLast _ (s.logs ++ [line]) = keepLast _ (s.appended ++ [line])
    rw [h, keepLast_keepLast_append]

theorem Inv.work {s t : State W} (h : Inv worker hook s) {i : I}
    (taken : step worker hook s (.work i) = some t) : Inv worker hook t := by
  obtain ⟨⟨next, write⟩, hstep, rfl⟩ := Option.map_eq_some_iff.mp taken
  obtain ⟨hworker, hview, hshown, hpolling, hflight⟩ :=
    write_view hook { s with worker := next } write
  obtain ⟨hcursor, hrendered, href⟩ := write_cursors hook { s with worker := next } write
  have happended := write_appended hook { s with worker := next } write
  dsimp only at hworker hview hshown hpolling hflight hcursor hrendered href happended ⊢
  have hle : s.appended.length ≤ (s.appended ++ linesOf write).length := by
    rw [List.length_append]
    omega
  refine ⟨write_retained (s := { s with worker := next }) h.retained write, ?_, ?_, ?_, ?_, ?_, ?_, ?_⟩
  · rw [hshown, happended]
    exact h.shown.trans hle
  · rw [hview, hshown, happended, List.take_append_of_le_length h.shown]
    exact h.last
  · rw [happended]
    exact (h.marks.mono hle).congr hcursor hrendered href
  · intro hidle
    rw [hshown]
    exact (h.idle (hflight ▸ hidle)).congr hcursor hrendered href
  · intro poll hpoll
    rw [hshown]
    exact h.sent poll (hflight ▸ hpoll)
  · intro poll answer hpoll hlogs
    exact (h.answered poll answer (hflight ▸ hpoll) hlogs).append _ happended hshown hcursor
      hrendered href
  · intro hstopped hidle
    obtain ⟨hquiet, hall⟩ := h.stopped (hpolling ▸ hstopped) (hflight ▸ hidle)
    have hnothing : linesOf write = [] := by
      cases hlines : write with
      | none => rfl
      | some write =>
        cases write with
        | status status => rfl
        | line line =>
          rw [hlines] at hstep
          exact absurd hstep (hquiet _ .refl _ _ _)
    rw [hworker, hshown, happended, hnothing, List.append_nil]
    exact ⟨hquiet.step hstep, hall⟩

/-- A poll that starts with the cursor it is given, or with an empty view. -/
theorem Inv.poll {s t : State W} (h : Inv worker hook s) {resetLogs : Bool}
    (taken : startPoll hook s resetLogs = some t) : Inv worker hook t := by
  unfold startPoll at taken
  cases hflight : s.inFlight with
  | some poll => simp [hflight] at taken
  | none =>
    have hidle := h.idle hflight
    simp only [hflight] at taken
    split at taken
    · obtain rfl := Option.some_inj.mp taken
      refine ⟨h.retained, h.shown, h.last, h.marks.congr rfl rfl rfl, ?_, ?_, ?_, ?_⟩
      · simp
      · rintro poll ⟨⟩
        exact hidle.logCursorRef
      · rintro poll answer ⟨⟩ hlogs
        cases hlogs
      · simp
    · split at taken
      · obtain rfl := Option.some_inj.mp taken
        refine ⟨h.retained, Nat.zero_le _, ?_, ?_, ?_, ?_, ?_, ?_⟩
        · simp
        · exact ⟨Mark.zero_valid, h.marks.rendered, Mark.zero_valid⟩
        · simp
        · rintro poll ⟨⟩
          exact Mark.zero_valid
        · rintro poll answer ⟨⟩ hlogs
          cases hlogs
        · simp
      · cases taken

/-- What a poll in flight may learn without the view changing. -/
theorem Inv.learn {s : State W} (h : Inv worker hook s) {poll : Poll} (hpoll : s.inFlight = some poll)
    (next : Poll) (mark : next.mark = poll.mark)
    (logs : next.logs = poll.logs ∨ next.logs = some (getTaskLogs hook s poll.mark.cursor))
    (hregular : hook.Regular) (polling : Bool) :
    Inv worker hook { s with inFlight := some next, polling := polling } := by
  refine ⟨h.retained, h.shown, h.last, h.marks.congr rfl rfl rfl, ?_, ?_, ?_, ?_⟩
  · simp
  · rintro _ ⟨⟩
    rw [mark]
    exact h.sent poll hpoll
  · rintro _ answer ⟨⟩ hanswer
    rw [mark]
    rcases logs with hsame | hnew
    · obtain ⟨hlogs, hmark, hlater, hmarks⟩ := h.answered poll answer hpoll (hsame ▸ hanswer)
      exact ⟨hlogs, hmark, hlater, hmarks.congr rfl rfl rfl⟩
    · obtain rfl := Option.some_inj.mp (hnew.symm.trans hanswer)
      refine ⟨?_, ?_, h.shown, h.marks.congr rfl rfl rfl⟩
      · simp only [getTaskLogs, hregular.slice, sliceFrom_natCast, List.take_length, h.retained]
      · simp [Mark.Valid, getTaskLogs, h.retained, length_keepLast]
  · simp

/-- A logs answer that is processed in time shows the last line it was given after. -/
theorem Inv.hear {s : State W} (h : Inv worker hook s) (hregular : hook.Regular) {poll : Poll}
    {answer : Answer} (hpoll : s.inFlight = some poll) (hlogs : poll.logs = some answer)
    (timely : Timely worker hook s (.hearLogs : Action I)) (ref : Mark)
    (hreference : ref = s.logCursorRef ∨ ref = answer.mark) :
    Inv worker hook { s with
      view := hook.appendLogs s.view answer.logs
      shown := answer.mark.seen
      logCursor := answer.mark
      logCursorRef := ref
      inFlight := none } := by
  obtain ⟨hanswer, hmark, hlater, hmarks⟩ := h.answered poll answer hpoll hlogs
  obtain ⟨hfresh, hfull, hstopped⟩ := timely poll answer hpoll hlogs
  have hsent := h.sent poll hpoll
  have hnow : answer.mark.Valid hook answer.mark.seen := ⟨hmark.1, le_rfl⟩
  have hafter : Marks hook answer.mark.seen { s with
      view := hook.appendLogs s.view answer.logs
      shown := answer.mark.seen
      logCursor := answer.mark
      logCursorRef := ref
      inFlight := none } := by
    refine ⟨hnow, hmarks.rendered, ?_⟩
    rcases hreference with rfl | rfl
    · exact hmarks.logCursorRef
    · exact hnow
  refine ⟨h.retained, hmark.2, ?_, hafter.mono hmark.2, fun _ => hafter, ?_, ?_,
    fun hp _ => hstopped hp⟩
  · dsimp only
    by_cases hempty : answer.logs = []
    · -- an empty answer was given when no line had been appended since the view's last one
      have hsame : s.shown = answer.mark.seen := by
        have hlen : (keepLast hook.rules.logLimit (s.appended.take answer.mark.seen)).length ≤
            poll.mark.cursor := List.drop_eq_nil_iff.mp (hanswer.symm.trans hempty)
        rw [length_keepLast, List.length_take_of_le hmark.2] at hlen
        have hcursor := hsent.1
        have hseen := hsent.2
        by_cases hreached : hook.rules.logLimit ≤ poll.mark.cursor
        · have := hfull hreached
          omega
        · omega
      rw [Hook.appendLogs, if_pos hempty, ← hsame]
      exact h.last
    · have hsuffix : answer.logs <:+ s.appended.take answer.mark.seen := by
        rw [hanswer]
        exact (List.drop_suffix _ _).trans (keepLast_suffix _ _)
      rw [getLast?_appendLogs hregular hempty fun hdedup => hfresh hdedup hempty]
      exact getLast?_of_suffix hsuffix hempty
  · rintro _ ⟨⟩
  · rintro _ _ ⟨⟩

/-- A cursor on its way from the state to the ref. -/
theorem Inv.passOn {s : State W} (h : Inv worker hook s) (rendered : Option Mark) {ref : Mark}
    (hrendered : ∀ m, rendered = some m → m = s.logCursor ∨ s.rendered = some m)
    (href : ref = s.logCursorRef ∨ s.rendered = some ref) :
    Inv worker hook { s with rendered := rendered, logCursorRef := ref } := by
  have hmarks : ∀ n, Marks hook n s → Marks hook n { s with rendered := rendered, logCursorRef := ref } := by
    intro n hn
    refine ⟨hn.logCursor, fun m hm => ?_, ?_⟩
    · rcases hrendered m hm with rfl | hold
      · exact hn.logCursor
      · exact hn.rendered m hold
    · rcases href with rfl | hold
      · exact hn.logCursorRef
      · exact hn.rendered ref hold
  refine ⟨h.retained, h.shown, h.last, hmarks _ h.marks, fun hidle => hmarks _ (h.idle hidle),
    h.sent, fun poll answer hpoll hlogs => ?_, h.stopped⟩
  obtain ⟨hanswer, hmark, hlater, hall⟩ := h.answered poll answer hpoll hlogs
  exact ⟨hanswer, hmark, hlater, hmarks _ hall⟩

theorem Inv.preserved (hregular : hook.Regular) {s t : State W} {a : Action I} (h : Inv worker hook s)
    (timely : Timely worker hook s a) (taken : step worker hook s a = some t) :
    Inv worker hook t := by
  cases a with
  | work i => exact h.work taken
  | poll resetLogs => exact h.poll taken
  | answerStatus =>
    simp only [step] at taken
    split at taken
    · rename_i mark heard logs hpoll
      obtain rfl := Option.some_inj.mp taken
      exact h.learn hpoll ⟨mark, some s.status, heard, logs⟩ rfl (.inl rfl) hregular s.polling
    · cases taken
  | hearStatus =>
    simp only [step] at taken
    split at taken
    · rename_i mark status logs hpoll
      obtain rfl := Option.some_inj.mp taken
      exact h.learn hpoll ⟨mark, some status, true, logs⟩ rfl (.inl rfl) hregular _
    · cases taken
  | answerLogs =>
    simp only [step] at taken
    split at taken
    · rename_i mark status heard hpoll
      split at taken
      · obtain rfl := Option.some_inj.mp taken
        exact h.learn hpoll ⟨mark, status, heard, some (getTaskLogs hook s mark.cursor)⟩ rfl (.inr rfl)
          hregular s.polling
      · cases taken
    · cases taken
  | hearLogs =>
    simp only [step] at taken
    split at taken
    · rename_i mark status answer hpoll
      obtain rfl := Option.some_inj.mp taken
      apply h.hear hregular hpoll rfl timely
      by_cases hdeferred : hook.deferred = true
      · exact .inl (if_pos hdeferred)
      · exact .inr (if_neg hdeferred)
    · cases taken
  | render =>
    simp only [step] at taken
    split at taken
    · obtain rfl := Option.some_inj.mp taken
      exact h.passOn (some s.logCursor) (by rintro m ⟨⟩; exact .inl rfl) (.inl rfl)
    · cases taken
  | flush =>
    simp only [step] at taken
    split at taken
    · rename_i mark hrendered
      obtain rfl := Option.some_inj.mp taken
      exact h.passOn none (by rintro m ⟨⟩) (.inr hrendered)
    · cases taken

theorem Inv.of_reachable (hregular : hook.Regular) {s : State W}
    (h : (machine worker hook).Reachable (Timely worker hook) s) : Inv worker hook s :=
  h.invariant (fun _ => Inv.start) fun _ _ _ hs timely taken => hs.preserved hregular timely taken

/-- Once polling has stopped and everything has come to an end, the log shown ends with the last
line of the worker. -/
def LastShown (worker : Worker W I) (s : State W) : Prop :=
  s.polling = false → s.inFlight = none → worker.ended s.worker = true →
    s.view.getLast? = s.appended.getLast?

theorem Inv.lastShown {s : State W} (h : Inv worker hook s) : LastShown worker s := by
  intro hstopped hidle _
  obtain ⟨-, hall⟩ := h.stopped hstopped hidle
  rw [h.last, hall, List.take_length]

/-- In both pages, in every run whose logs answers are processed in time. -/
theorem timely_runs_show_last (learning : State LearningWorker.Work)
    (signin : State SigninManager.Work) :
    ((machine learningWorker useTaskExecution).Reachable
      (Timely learningWorker useTaskExecution) learning → LastShown learningWorker learning) ∧
    ((machine signinWorker useBackgroundTasks).Reachable
      (Timely signinWorker useBackgroundTasks) signin → LastShown signinWorker signin) :=
  ⟨fun h => (Inv.of_reachable useTaskExecution_regular h).lastShown,
    fun h => (Inv.of_reachable useBackgroundTasks_regular h).lastShown⟩

theorem learning_quiet : learningWorker.Quiet .finished := by
  have hstuck : ∀ i, learningStep .finished i = none := by
    intro i
    cases i with
    | answer answer => cases answer <;> rfl
    | _ => rfl
  intro v run
  have hstays : v = .finished := run.keeps (I := fun v => v = .finished)
    (fun u i next hu _ taken => by
      subst hu
      change (learningStep .finished i).map Prod.fst = some next at taken
      rw [hstuck] at taken
      cases taken) rfl
  subst hstays
  intro i next line hline
  exact absurd ((hstuck i).symm.trans hline) (by simp)

def justStarted (w : W) : State W :=
  { worker := w, status := .running, logs := [], appended := [], view := [], logCursor := .zero,
    rendered := none, logCursorRef := .zero, shown := 0, polling := true, inFlight := none }

theorem start_justStarted {w : W} (h : worker.start w) : (machine worker hook).start (justStarted w) :=
  ⟨h, rfl, rfl, rfl, rfl, rfl, rfl, rfl, rfl, rfl⟩

/-- A poll from its first request to its last answer. -/
def wholePoll : List (Action I) := [.poll false, .answerStatus, .hearStatus, .answerLogs, .hearLogs]

def learningPayload : LearningWorker.Payload := ⟨"13800000000", "secret", [], "1.5", 4, []⟩

/-- The login fails, and a poll falls between the two writes of `_fail_task`. -/
def failedLogin : List (Action LearningInput) :=
  [.work (.answer (.controlEvents true)), .work (.write 0), .work (.write 1),
    .work (.answer (.initChaoxing (.ok ()))), .work (.answer (.login (.error "timeout"))),
    .work (.write 2)] ++ wholePoll ++ [.work (.write 3)]

def signinPayload : SigninManager.Payload :=
  ⟨"13800000000", "secret", "all", [], [], none, none, none⟩

/-- The login is refused, and a poll falls between the two writes that follow. -/
def refusedLogin : List (Action SigninInput) :=
  [.work (.answer (.login ⟨false, some "wrong password"⟩)), .work (.write 0)] ++ wholePoll ++
    [.work (.write 1)]

/-- With the same login, a poll after the worker's last write shows everything. -/
theorem poll_after_writes : ∃ s, (machine learningWorker useTaskExecution).Reachable
    (Timely learningWorker useTaskExecution) s ∧ LastShown learningWorker s ∧
      s.polling = false ∧ s.view.length = 2 := by
  have hrun : ∃ s, (machine learningWorker useTaskExecution).exec
      (justStarted (LearningWorker.runTaskWorker learningPayload))
      (failedLogin.filter (fun a => a matches .work _) ++ wholePoll.dropLast) = some s ∧
      s.worker = .finished ∧ s.view = [] ∧ s.polling = false ∧
      ∃ first last : LogLine, first ≠ last ∧ s.appended = [first, last] ∧
        s.inFlight = some ⟨.zero, some .failed, true, some ⟨[first, last], ⟨2, 2⟩⟩⟩ :=
    ⟨_, rfl, rfl, rfl, rfl, _, _, by decide, rfl, rfl⟩
  obtain ⟨s, hs, hworker, hview, hstopped, first, last, hne, happended, hflight⟩ := hrun
  have hbefore : (machine learningWorker useTaskExecution).Reachable
      (Timely learningWorker useTaskExecution) s := by
    refine ⟨_, start_justStarted ⟨_, rfl⟩, Machine.run_of_exec_of (fun a ha s => ?_) hs⟩
    cases a with
    | hearLogs => simp [failedLogin, wholePoll] at ha
    | _ => trivial
  have htimely : Timely learningWorker useTaskExecution s .hearLogs := by
    intro poll answer hpoll hlogs
    obtain rfl := Option.some_inj.mp (hflight.symm.trans hpoll)
    obtain rfl := Option.some_inj.mp hlogs
    refine ⟨fun _ _ => ⟨[first], last, [], ?_, ?_, ?_, ?_⟩, ?_, fun _ => ⟨?_, ?_⟩⟩
    · rw [hview]
      rfl
    · simpa using hne.symm
    · simp
    · simp
    · simp [useTaskExecution, learningRules, Mark.zero]
    · rw [hworker]
      exact learning_quiet
    · rw [happended]
      rfl
  have htaken : (machine learningWorker useTaskExecution).step s .hearLogs = some { s with
      view := useTaskExecution.appendLogs s.view [first, last]
      shown := 2
      logCursor := ⟨2, 2⟩
      inFlight := none } := by
    simp [machine, step, hflight, useTaskExecution]
  have hafter := hbefore.tail htimely htaken
  have hshown := (timely_runs_show_last _
    (justStarted (SigninManager.runTaskWorker signinPayload))).1 hafter
  refine ⟨_, hafter, hshown, hstopped, ?_⟩
  rw [hview]
  simp [Hook.appendLogs, useTaskExecution, keepLast, List.eraseDups_cons, hne.symm]

theorem poll_between_writes :
    (∃ s, (machine learningWorker useTaskExecution).Reachable Machine.free s ∧
      ¬ LastShown learningWorker s) ∧
    (∃ s, (machine signinWorker useBackgroundTasks).Reachable Machine.free s ∧
      ¬ LastShown signinWorker s) := by
  constructor
  · have hrun : ∃ s, (machine learningWorker useTaskExecution).exec
        (justStarted (LearningWorker.runTaskWorker learningPayload)) failedLogin = some s ∧
        s.polling = false ∧ s.inFlight = none ∧ learningWorker.ended s.worker = true ∧
        s.view.getLast? ≠ s.appended.getLast? :=
      ⟨_, rfl, rfl, rfl, rfl, by decide⟩
    obtain ⟨s, hs, hstopped, hidle, hended, hlast⟩ := hrun
    exact ⟨s, Machine.reachable_of_exec _ (start_justStarted ⟨_, rfl⟩) hs,
      fun hshown => hlast (hshown hstopped hidle hended)⟩
  · have hrun : ∃ s, (machine signinWorker useBackgroundTasks).exec
        (justStarted (SigninManager.runTaskWorker signinPayload)) refusedLogin = some s ∧
        s.polling = false ∧ s.inFlight = none ∧ signinWorker.ended s.worker = true ∧
        s.view.getLast? ≠ s.appended.getLast? :=
      ⟨_, rfl, rfl, rfl, rfl, by decide⟩
    obtain ⟨s, hs, hstopped, hidle, hended, hlast⟩ := hrun
    exact ⟨s, Machine.reachable_of_exec _ (start_justStarted ⟨_, rfl⟩) hs,
      fun hshown => hlast (hshown hstopped hidle hended)⟩

end UniversityHelper.LogTail
