import UniversityHelper.LogView

/-! The log view shows the first lines of the selected task's log as long as no answer is taken in
whose cursor is older than the last emptying of the view. -/
namespace UniversityHelper.LogView
open TaskAdmission TaskManager

section Lists
variable {α : Type*} [BEq α] [LawfulBEq α]

theorem eraseDups_of_nodup {xs : List α} (h : xs.Nodup) : xs.eraseDups = xs := by
  induction xs with
  | nil => rfl
  | cons x xs ih =>
    obtain ⟨hx, hxs⟩ := List.nodup_cons.mp h
    have hkeep : xs.filter (fun y => !y == x) = xs := by
      rw [List.filter_eq_self]
      intro y hy
      have hne : y ≠ x := fun heq => hx (heq ▸ hy)
      simpa using hne
    rw [List.eraseDups_cons, hkeep, ih hxs]

theorem removeAll_of_disjoint {xs old new : List α} (hold : ∀ y ∈ old, y ∈ xs)
    (hnew : ∀ y ∈ new, y ∉ xs) : (old ++ new).removeAll xs = new := by
  have h₁ : old.filter (fun y => !xs.elem y) = [] := by
    rw [List.filter_eq_nil_iff]
    intro y hy
    simpa using hold y hy
  have h₂ : new.filter (fun y => !xs.elem y) = new := by
    rw [List.filter_eq_self]
    intro y hy
    simpa using hnew y hy
  rw [List.removeAll, List.filter_append, h₁, h₂, List.nil_append]

/-- A window of a list without repetitions, put after a prefix that covers its beginning. -/
theorem eraseDups_append_window {whole shown : List α} {start : ℕ} (stop : ℕ)
    (hnodup : whole.Nodup) (hinitial : shown <+: whole) (hstart : start ≤ shown.length) :
    (shown ++ (whole.take stop).drop start).eraseDups = whole.take (max shown.length stop) := by
  have hshown := List.prefix_iff_eq_take.mp hinitial
  have hle : shown.length ≤ whole.length := hinitial.length_le
  by_cases hstop : stop ≤ shown.length
  · have hold : ∀ y ∈ (whole.take stop).drop start, y ∈ shown := by
      intro y hy
      have hmem : y ∈ whole.take stop := List.mem_of_mem_drop hy
      rw [hshown]
      exact (List.take_prefix_take_left hstop).subset hmem
    have hremoved : ((whole.take stop).drop start).removeAll shown = [] := by
      rw [List.removeAll, List.filter_eq_nil_iff]
      intro y hy
      simpa using hold y hy
    rw [List.eraseDups_append, hremoved, List.eraseDups_nil, List.append_nil,
      eraseDups_of_nodup (hinitial.sublist.nodup hnodup), max_eq_left hstop]
    exact hshown
  · have hsplit : whole.take stop = shown ++ (whole.take stop).drop shown.length := by
      conv_lhs => rw [← List.take_append_drop shown.length (whole.take stop)]
      rw [List.take_take, min_eq_left (by omega), ← hshown]
    have hwindow : (whole.take stop).drop start =
        shown.drop start ++ (whole.take stop).drop shown.length := by
      conv_lhs => rw [hsplit]
      rw [List.drop_append_of_le_length hstart]
    have hapart : (shown ++ (whole.take stop).drop shown.length).Nodup :=
      hsplit ▸ (List.take_sublist _ _).nodup hnodup
    obtain ⟨hfirst, hrest, hdisjoint⟩ := List.nodup_append'.mp hapart
    have hold : ∀ y ∈ shown.drop start, y ∈ shown := fun y hy => List.mem_of_mem_drop hy
    have hremoved := removeAll_of_disjoint hold fun y hy hmem => hdisjoint hmem hy
    rw [hwindow, List.eraseDups_append, hremoved, eraseDups_of_nodup hfirst,
      eraseDups_of_nodup hrest, ← hsplit, max_eq_right (by omega)]

omit [BEq α] [LawfulBEq α] in
/-- A window that begins after the prefix ends repeats nothing, and leaves a gap. -/
theorem append_window_of_gap {whole shown : List α} {start stop : ℕ} (hnodup : whole.Nodup)
    (hinitial : shown <+: whole) (hstart : shown.length < start)
    (hne : (whole.take stop).drop start ≠ []) :
    (shown ++ (whole.take stop).drop start).Sublist whole ∧
      ¬ shown ++ (whole.take stop).drop start <+: whole := by
  have hshown := List.prefix_iff_eq_take.mp hinitial
  have hwindow : ((whole.take stop).drop start).Sublist (whole.drop shown.length) := by
    rw [List.drop_take]
    exact (List.take_sublist _ _).trans (List.drop_sublist_drop_left _ hstart.le)
  constructor
  · conv_rhs => rw [← List.take_append_drop shown.length whole, ← hshown]
    exact (List.Sublist.refl _).append hwindow
  · intro hlonger
    have hlen : start < (whole.take stop).length := by
      by_contra hge
      exact hne (List.drop_eq_nil_of_le (by omega))
    have hfirst : shown.length < (shown ++ (whole.take stop).drop start).length := by
      rw [List.length_append, List.length_drop]
      omega
    have hat := hlonger.getElem hfirst
    rw [List.getElem_append_right le_rfl, List.getElem_drop, List.getElem_take] at hat
    have hsame := hnodup.getElem_inj_iff.mp hat
    omega

end Lists

variable {T : Type*} [DecidableEq T]

/-- The lines in the view are the first ones of the selected task's log, and none without one. -/
def Shows (server : T → List LogLine) (view : View T) : Prop :=
  match view.taskId with
  | none => view.logs = []
  | some task => view.logs <+: server task

def Phase.mark : Phase → Option Mark
  | .control => none
  | .status mark | .logs mark | .answered mark _ _ => some mark

/-- The cursors that a request may carry, now or later. -/
def State.Holds (s : State T) (mark : Mark) : Prop :=
  mark = s.view.logCursor ∨ s.effect = some mark ∨ mark = s.logCursorRef ∨
    ∃ request ∈ s.requests, request.phase.mark = some mark

/-- A cursor read since the view was last emptied does not point behind its last line. -/
def Covered (s : State T) (mark : Mark) : Prop :=
  mark.emptied ≤ s.emptied ∧ (mark.emptied = s.emptied → mark.cursor ≤ s.view.logs.length)

structure Sound (server : T → List LogLine) (refs : Refs T) (request : Request T) : Prop where
  generation : request.generation ≤ refs.taskGenerationRef
  target : request.generation = refs.taskGenerationRef → refs.taskIdRef = some request.targetId
  answer : ∀ mark logs cursor, request.phase = .answered mark logs cursor →
    cursor ≤ (server request.targetId).length ∧
      logs = ((server request.targetId).take cursor).drop mark.cursor

structure Inv (s : State T) : Prop where
  server : ∀ task, (s.server task).Nodup ∧ (s.server task).length < 1000
  rendered : Shows s.server s.rendered
  view : Shows s.server s.view
  task : s.view.taskId = s.refs.taskIdRef
  selected : s.refs.taskIdRef = none → s.rendered.taskId = none
  covered : ∀ mark, s.Holds mark → Covered s mark
  requests : ∀ request ∈ s.requests, Sound s.server s.refs request

theorem Inv.start {s : State T} (h : (machine T).start s) : Inv s := by
  obtain ⟨hserver, hrefs, href, -, -, hrendered, hupdates, heffect, hrequests, hemptied⟩ := h
  have hview : s.view = ⟨none, [], ⟨0, 0⟩⟩ := by
    rw [State.view, hupdates, hrendered]
    rfl
  have hzero : Covered s ⟨0, 0⟩ := ⟨Nat.zero_le _, fun _ => Nat.zero_le _⟩
  refine ⟨hserver, ?_, ?_, ?_, ?_, ?_, ?_⟩
  · rw [hrendered]
    rfl
  · rw [hview]
    rfl
  · rw [hview, hrefs]
  · intro _
    rw [hrendered]
  · rintro mark (hcursor | hpending | hnow | ⟨request, hmem, -⟩)
    · rw [hcursor, hview]
      exact hzero
    · rw [heffect] at hpending
      cases hpending
    · rw [hnow, href]
      exact hzero
    · rw [hrequests] at hmem
      cases hmem
  · rw [hrequests]
    simp

/-- What a step has to provide that leaves the logs and the selected task as they are. -/
theorem Inv.grow {s t : State T} (h : Inv s) (server : t.server = s.server) (refs : t.refs = s.refs)
    (emptied : t.emptied = s.emptied) (rendered : t.rendered = s.rendered ∨ t.rendered = s.view)
    (task : t.view.taskId = s.view.taskId) (shows : Shows s.server t.view)
    (longer : s.view.logs.length ≤ t.view.logs.length)
    (held : ∀ mark, t.Holds mark → s.Holds mark ∨ Covered t mark)
    (requests : ∀ request ∈ t.requests, Sound s.server s.refs request) : Inv t := by
  refine ⟨server ▸ h.server, ?_, server ▸ shows, ?_, ?_, ?_, ?_⟩
  · rw [server]
    rcases rendered with hsame | hcommitted
    · rw [hsame]
      exact h.rendered
    · rw [hcommitted]
      exact h.view
  · rw [task, refs]
    exact h.task
  · intro hnone
    rw [refs] at hnone
    rcases rendered with hsame | hcommitted
    · rw [hsame]
      exact h.selected hnone
    · rw [hcommitted, h.task]
      exact hnone
  · intro mark hmark
    rcases held mark hmark with hold | hcovered
    · obtain ⟨hle, hlines⟩ := h.covered mark hold
      exact ⟨emptied ▸ hle, fun heq => (hlines (heq.trans emptied)).trans longer⟩
    · exact hcovered
  · intro request hmem
    rw [server, refs]
    exact requests request hmem

/-- A step that leaves the view as it is. -/
theorem Inv.quiet {s t : State T} (h : Inv s) (server : t.server = s.server)
    (refs : t.refs = s.refs) (emptied : t.emptied = s.emptied)
    (rendered : t.rendered = s.rendered ∨ t.rendered = s.view) (view : t.view = s.view)
    (held : ∀ mark, t.Holds mark → s.Holds mark)
    (requests : ∀ request ∈ t.requests, Sound s.server s.refs request) : Inv t :=
  h.grow server refs emptied rendered (by rw [view]) (by rw [view]; exact h.view) (by rw [view])
    (fun mark hmark => .inl (held mark hmark)) requests

omit [DecidableEq T] in
theorem Shows.mono {server server' : T → List LogLine} {view : View T} (h : Shows server view)
    (longer : ∀ task, server task <+: server' task) : Shows server' view := by
  unfold Shows at h ⊢
  cases htask : view.taskId with
  | none => simpa [htask] using h
  | some task =>
    simp only [htask] at h ⊢
    exact h.trans (longer task)

omit [DecidableEq T] in
theorem Sound.mono {server server' : T → List LogLine} {refs : Refs T} {request : Request T}
    (h : Sound server refs request) (longer : ∀ task, server task <+: server' task) :
    Sound server' refs request := by
  refine ⟨h.generation, h.target, fun mark logs cursor hphase => ?_⟩
  obtain ⟨hle, hlogs⟩ := h.answer mark logs cursor hphase
  obtain ⟨more, hmore⟩ := longer request.targetId
  refine ⟨hle.trans (longer _).length_le, ?_⟩
  rw [hlogs, ← hmore, List.take_append_of_le_length hle]

theorem Inv.append {s t : State T} (h : Inv s) {task : T} {line : LogLine}
    (taken : step s (.append task line) = some t) : Inv t := by
  simp only [step] at taken
  split at taken
  · rename_i hallowed
    obtain ⟨hnew, hshort⟩ := hallowed
    obtain rfl := Option.some_inj.mp taken
    have hlonger : ∀ other, s.server other <+:
        Function.update s.server task (s.server task ++ [line]) other := by
      intro other
      by_cases heq : other = task
      · subst heq
        simp
      · simp [heq]
    refine ⟨fun other => ?_, h.rendered.mono hlonger, h.view.mono hlonger, h.task, h.selected,
      h.covered, fun request hmem => (h.requests request hmem).mono hlonger⟩
    by_cases heq : other = task
    · subst heq
      have hnodup : (s.server other ++ [line]).Nodup := by
        rw [← List.concat_eq_append, List.nodup_concat]
        exact ⟨hnew, (h.server other).1⟩
      simpa using ⟨hnodup, hshort⟩
    · simpa [heq] using h.server other
  · cases taken

theorem view_setState (s : State T) (updates : List (Update T)) :
    (s.setState updates).view = updates.foldl s.refs.apply s.view := by
  simp [State.view, State.setState, List.foldl_append]

theorem isCurrentTask_eq {refs : Refs T} {generation : ℕ} {targetId : T} :
    refs.isCurrentTask generation targetId = true ↔
      generation = refs.taskGenerationRef ∧
        (refs.taskIdRef = none ∨ refs.taskIdRef = some targetId) := by
  simp [Refs.isCurrentTask]

theorem view_emptyView (s : State T) :
    s.emptyView.view = ⟨s.view.taskId, [], ⟨0, s.emptied + 1⟩⟩ :=
  view_setState s [.setLogs [], .setLogCursor ⟨0, s.emptied + 1⟩]

theorem Covered.stale {s t : State T} {mark : Mark} (h : Covered s mark)
    (emptied : t.emptied = s.emptied + 1) : Covered t mark := by
  obtain ⟨hle, -⟩ := h
  refine ⟨by omega, fun heq => ?_⟩
  omega

/-- A step that empties the view, of the same task or of another. -/
theorem Inv.emptied {s t : State T} (h : Inv s) (server : t.server = s.server)
    (rendered : t.rendered = s.rendered) (emptied : t.emptied = s.emptied + 1)
    (view : t.view = ⟨t.refs.taskIdRef, [], ⟨0, t.emptied⟩⟩)
    (ref : t.logCursorRef = ⟨0, t.emptied⟩) (effect : t.effect = s.effect)
    (requests : t.requests = s.requests)
    (refs : t.refs = s.refs ∨
      s.refs.taskGenerationRef < t.refs.taskGenerationRef ∧ t.refs.taskIdRef ≠ none) : Inv t := by
  have hzero : Covered t ⟨0, t.emptied⟩ := ⟨le_rfl, fun _ => Nat.zero_le _⟩
  refine ⟨server ▸ h.server, ?_, ?_, ?_, ?_, ?_, ?_⟩
  · rw [server, rendered]
    exact h.rendered
  · rw [view, Shows]
    cases t.refs.taskIdRef with
    | none => rfl
    | some task => exact List.nil_prefix
  · rw [view]
  · intro hnone
    rw [rendered]
    rcases refs with hsame | ⟨-, hsome⟩
    · exact h.selected (hsame ▸ hnone)
    · exact absurd hnone hsome
  · rintro mark (hcursor | hpending | hnow | hrequest)
    · rw [hcursor, view]
      exact hzero
    · exact (h.covered mark (.inr (.inl (effect ▸ hpending)))).stale emptied
    · rw [hnow, ref]
      exact hzero
    · exact (h.covered mark (.inr (.inr (.inr (requests ▸ hrequest))))).stale emptied
  · intro request hmem
    rw [requests] at hmem
    obtain ⟨hgeneration, htarget, hanswer⟩ := h.requests request hmem
    rw [server]
    rcases refs with hsame | ⟨hnewer, -⟩
    · rw [hsame]
      exact ⟨hgeneration, htarget, hanswer⟩
    · exact ⟨by omega, fun heq => (by omega), hanswer⟩

theorem Inv.emptyView {s : State T} (h : Inv s) : Inv s.emptyView := by
  have hview : s.emptyView.view = ⟨s.refs.taskIdRef, [], ⟨0, s.emptied + 1⟩⟩ := by
    rw [view_emptyView, h.task]
  exact h.emptied rfl rfl rfl hview rfl rfl rfl (.inl rfl)

theorem Inv.setTaskId {s : State T} (h : Inv s) (nextId : T) :
    Inv (setTaskId s nextId) ∧ (setTaskId s nextId).refs.taskIdRef = some nextId := by
  by_cases hsame : s.refs.taskIdRef = some nextId
  · have hset : LogView.setTaskId s nextId = s.setState [.setTaskIdState nextId] := by
      rw [LogView.setTaskId, if_pos hsame]
    have hview : (s.setState [.setTaskIdState nextId]).view = s.view := by
      rw [view_setState]
      change { s.view with taskId := some nextId } = s.view
      rw [← hsame, ← h.task]
    rw [hset]
    refine ⟨h.quiet rfl rfl rfl (.inl rfl) hview (fun mark hmark => ?_) h.requests, hsame⟩
    rw [State.Holds, hview] at hmark
    exact hmark
  · have hset : LogView.setTaskId s nextId =
        ({ s.emptyView with refs := ⟨s.refs.taskGenerationRef + 1, some nextId⟩ }).setState
          [.setTaskIdState nextId] := by
      rw [LogView.setTaskId, if_neg hsame]
    rw [hset]
    refine ⟨h.emptied rfl rfl rfl ?_ rfl rfl rfl (.inr ⟨Nat.lt_succ_self _, by simp [State.setState]⟩), rfl⟩
    simp [State.view, State.setState, State.emptyView, List.foldl_append, Refs.apply]

theorem Inv.loadTaskSnapshot {s : State T} (h : Inv s) {targetId : T}
    (selected : s.refs.taskIdRef = some targetId) (resetLogs : Bool) (origin : Origin) :
    Inv (loadTaskSnapshot s targetId resetLogs origin) := by
  have hbegin : ∀ t : State T, Inv t → t.refs.taskIdRef = some targetId →
      Inv { t with
        requests := t.requests ++
          [⟨t.refs.taskGenerationRef, targetId, origin, .status t.logCursorRef⟩] } := by
    intro t ht hselected
    refine ht.quiet rfl rfl rfl (.inl rfl) rfl ?_ ?_
    · rintro mark (hcursor | hpending | hnow | ⟨request, hmem, hmark⟩)
      · exact .inl hcursor
      · exact .inr (.inl hpending)
      · exact .inr (.inr (.inl hnow))
      · rcases List.mem_append.mp hmem with hold | hnew
        · exact .inr (.inr (.inr ⟨request, hold, hmark⟩))
        · obtain rfl := List.mem_singleton.mp hnew
          exact .inr (.inr (.inl (Option.some_inj.mp hmark).symm))
    · intro request hmem
      rcases List.mem_append.mp hmem with hold | hnew
      · exact ht.requests request hold
      · obtain rfl := List.mem_singleton.mp hnew
        exact ⟨le_rfl, fun _ => hselected, fun mark logs cursor hphase => (by cases hphase)⟩
  cases resetLogs with
  | false => exact hbegin s h selected
  | true => exact hbegin s.emptyView h.emptyView selected

theorem Inv.runTaskSnapshot {s : State T} (h : Inv s) (hsome : s.refs.taskIdRef ≠ none)
    (targetId : T) (resetLogs : Bool) : Inv (runTaskSnapshot s targetId resetLogs) := by
  unfold LogView.runTaskSnapshot
  dsimp only
  split_ifs with hcurrent hflight
  · exact h
  · exact h
  · have hselected : s.refs.taskIdRef = some targetId := by
      have hnow := isCurrentTask_eq.mp (eq_true_of_ne_false hcurrent)
      exact hnow.2.resolve_left hsome
    have hmarked : Inv { s with
        pollInFlightRef := some (s.refs.taskGenerationRef, targetId) } :=
      h.quiet rfl rfl rfl (.inl rfl) rfl (fun _ hmark => hmark) h.requests
    exact hmarked.loadTaskSnapshot hselected resetLogs .poll

theorem Inv.controlTask {s : State T} (h : Inv s) (hsome : s.refs.taskIdRef ≠ none)
    (action : Control) (targetId : T) : Inv (controlTask s action targetId) := by
  unfold LogView.controlTask
  dsimp only
  split_ifs with hcurrent hflight
  · exact h
  · exact h
  · have hselected : s.refs.taskIdRef = some targetId := by
      have hnow := isCurrentTask_eq.mp (eq_true_of_ne_false hcurrent)
      exact hnow.2.resolve_left hsome
    refine h.quiet rfl rfl rfl (.inl rfl) rfl ?_ ?_
    · rintro mark (hcursor | hpending | hnow | ⟨request, hmem, hmark⟩)
      · exact .inl hcursor
      · exact .inr (.inl hpending)
      · exact .inr (.inr (.inl hnow))
      · rcases List.mem_append.mp hmem with hold | hnew
        · exact .inr (.inr (.inr ⟨request, hold, hmark⟩))
        · obtain rfl := List.mem_singleton.mp hnew
          cases hmark
    · intro request hmem
      rcases List.mem_append.mp hmem with hold | hnew
      · exact h.requests request hold
      · obtain rfl := List.mem_singleton.mp hnew
        exact ⟨le_rfl, fun _ => hselected, fun mark logs cursor hphase => (by cases hphase)⟩

/-- A request goes on to wait for something else, with the cursor it has or with that of the ref. -/
theorem Inv.setPhase {s : State T} (h : Inv s) {i : ℕ} {request : Request T}
    (hrequest : s.requests[i]? = some request) {phase : Phase}
    (mark : phase.mark = request.phase.mark ∨ phase.mark = some s.logCursorRef)
    (answer : ∀ mark logs cursor, phase = .answered mark logs cursor →
      cursor ≤ (s.server request.targetId).length ∧
        logs = ((s.server request.targetId).take cursor).drop mark.cursor) :
    Inv (s.setPhase i request phase) := by
  have hmem : request ∈ s.requests := List.mem_of_getElem? hrequest
  refine h.quiet rfl rfl rfl (.inl rfl) rfl ?_ ?_
  · rintro m (hcursor | hpending | hnow | ⟨other, hother, hmark⟩)
    · exact .inl hcursor
    · exact .inr (.inl hpending)
    · exact .inr (.inr (.inl hnow))
    · rcases List.mem_or_eq_of_mem_set hother with hold | rfl
      · exact .inr (.inr (.inr ⟨other, hold, hmark⟩))
      · rcases mark with hsame | href
        · exact .inr (.inr (.inr ⟨request, hmem, hsame ▸ hmark⟩))
        · exact .inr (.inr (.inl (Option.some_inj.mp (href.symm.trans hmark)).symm))
  · intro other hother
    rcases List.mem_or_eq_of_mem_set hother with hold | rfl
    · exact h.requests other hold
    · obtain ⟨hgeneration, htarget, -⟩ := h.requests request hmem
      exact ⟨hgeneration, htarget, answer⟩

theorem settle_frame (s : State T) (i : ℕ) (request : Request T) :
    ∃ pollInFlightRef controlInFlightRef, s.settle i request =
      { s with
        requests := s.requests.eraseIdx i
        pollInFlightRef := pollInFlightRef
        controlInFlightRef := controlInFlightRef } := by
  unfold State.settle
  cases request.origin with
  | poll =>
    dsimp only
    split_ifs
    · exact ⟨_, _, rfl⟩
    · exact ⟨_, _, rfl⟩
  | control action => exact ⟨_, _, rfl⟩

theorem Inv.settle {s : State T} (h : Inv s) (i : ℕ) (request : Request T) :
    Inv (s.settle i request) := by
  obtain ⟨_, _, hsettle⟩ := settle_frame s i request
  rw [hsettle]
  refine h.quiet rfl rfl rfl (.inl rfl) rfl ?_ fun other hmem =>
    h.requests other (List.mem_of_mem_eraseIdx hmem)
  rintro mark (hcursor | hpending | hnow | ⟨other, hmem, hmark⟩)
  · exact .inl hcursor
  · exact .inr (.inl hpending)
  · exact .inr (.inr (.inl hnow))
  · exact .inr (.inr (.inr ⟨other, List.mem_of_mem_eraseIdx hmem, hmark⟩))

theorem Inv.ifCurrent {s next : State T} (h : Inv s) (i : ℕ) (request : Request T)
    (hnext : s.refs.isCurrentTask request.generation request.targetId = true → Inv next) :
    Inv (s.ifCurrent i request next) := by
  unfold State.ifCurrent
  split
  · rename_i hcurrent
    exact hnext hcurrent
  · exact h.settle i request

theorem appendLogs_eq {shown incoming : List LogLine} (hnodup : shown.Nodup)
    (hlimit : (shown ++ incoming).eraseDups.length ≤ 1000) :
    LogTail.useTaskExecution.appendLogs shown incoming = (shown ++ incoming).eraseDups := by
  unfold LogTail.Hook.appendLogs
  split_ifs with hempty hdedup
  · rw [hempty, List.append_nil, eraseDups_of_nodup hnodup]
  · exact keepLast_of_le hlimit
  · exact absurd rfl hdedup

/-- The lines in the view after an answer whose cursor it covers. -/
theorem appendLogs_window {whole shown : List LogLine} {start : ℕ} (stop : ℕ)
    (hnodup : whole.Nodup) (hshort : whole.length < 1000) (hinitial : shown <+: whole)
    (hstart : start ≤ shown.length) :
    LogTail.useTaskExecution.appendLogs shown ((whole.take stop).drop start) =
      whole.take (max shown.length stop) := by
  have hmerged := eraseDups_append_window stop hnodup hinitial hstart
  rw [appendLogs_eq (hinitial.sublist.nodup hnodup), hmerged]
  rw [hmerged, List.length_take]
  omega

/-- The condition on the processing of a logs answer. It has no lines, or its cursor was read since
the view was last emptied, or the view has as many lines again as its cursor says. -/
def Timely (s : State T) : Action T → Prop
  | .hearLogs i => ∀ generation targetId origin mark logs cursor,
      s.requests[i]? = some ⟨generation, targetId, origin, .answered mark logs cursor⟩ →
      s.refs.isCurrentTask generation targetId = true →
      logs = [] ∨ mark.emptied = s.emptied ∨ mark.cursor ≤ s.view.logs.length
  | _ => True

theorem view_hearLogs {s : State T} {generation : ℕ} {targetId : T}
    (current : s.refs.isCurrentTask generation targetId = true) (logs : List LogLine) (mark : Mark) :
    (s.setState [.appendLogs generation targetId logs, .setNextCursor generation targetId mark]).view =
      ⟨s.view.taskId, LogTail.useTaskExecution.appendLogs s.view.logs logs, mark⟩ := by
  simp [view_setState, Refs.apply, current]

/-- An answer to a cursor that the view covers, or one without lines. -/
theorem Inv.hearLogs {s : State T} (h : Inv s) {request : Request T} (hmem : request ∈ s.requests)
    {mark : Mark} {logs : List LogLine} {cursor : ℕ}
    (hphase : request.phase = .answered mark logs cursor)
    (current : s.refs.isCurrentTask request.generation request.targetId = true)
    (timely : logs = [] ∨ mark.emptied = s.emptied ∨ mark.cursor ≤ s.view.logs.length) :
    Inv (s.setState [.appendLogs request.generation request.targetId logs,
      .setNextCursor request.generation request.targetId ⟨cursor, mark.emptied⟩]) := by
  obtain ⟨-, htarget, hanswer⟩ := h.requests request hmem
  obtain ⟨hcursor, hlogs⟩ := hanswer mark logs cursor hphase
  have hselected := htarget (isCurrentTask_eq.mp current).1
  obtain ⟨hnodup, hshort⟩ := h.server request.targetId
  obtain ⟨hmark, hcovered⟩ := h.covered mark
    (.inr (.inr (.inr ⟨request, hmem, by rw [hphase]; rfl⟩)))
  have hshown : s.view.logs <+: s.server request.targetId := by
    have hview := h.view
    rw [Shows, h.task, hselected] at hview
    exact hview
  have hview := view_hearLogs current logs ⟨cursor, mark.emptied⟩
  -- a cursor that the view does not cover was read before the view was last emptied
  have hgrown : LogTail.useTaskExecution.appendLogs s.view.logs logs <+: s.server request.targetId ∧
      s.view.logs.length ≤ (LogTail.useTaskExecution.appendLogs s.view.logs logs).length ∧
      (mark.emptied = s.emptied →
        cursor ≤ (LogTail.useTaskExecution.appendLogs s.view.logs logs).length) := by
    by_cases hinside : mark.cursor ≤ s.view.logs.length
    · have happended := appendLogs_window cursor hnodup hshort hshown hinside
      rw [← hlogs] at happended
      have hle := hshown.length_le
      rw [happended, List.length_take]
      exact ⟨List.take_prefix _ _, by omega, fun _ => (by omega)⟩
    · have hempty : logs = [] := by
        rcases timely with hnone | hfresh | hlines
        · exact hnone
        · exact absurd (hcovered hfresh) hinside
        · exact absurd hlines hinside
      rw [hempty]
      exact ⟨hshown, le_rfl, fun hfresh => absurd (hcovered hfresh) hinside⟩
  obtain ⟨hinitial, hlonger, hcount⟩ := hgrown
  refine h.grow rfl rfl rfl (.inl rfl) (by rw [hview]) ?_ (by rw [hview]; exact hlonger) ?_ h.requests
  · rw [hview, Shows, h.task, hselected]
    exact hinitial
  · rintro m (hnew | hpending | hnow | hrequest)
    · right
      rw [hnew, Covered, hview]
      exact ⟨hmark, hcount⟩
    · exact .inl (.inr (.inl hpending))
    · exact .inl (.inr (.inr (.inl hnow)))
    · exact .inl (.inr (.inr (.inr hrequest)))

theorem Inv.preserved {s t : State T} {a : Action T} (h : Inv s) (timely : Timely s a)
    (taken : step s a = some t) : Inv t := by
  cases a with
  | append task line => exact h.append taken
  | setTaskId task =>
    obtain rfl := Option.some_inj.mp taken
    exact (h.setTaskId task).1
  | selectTaskFromHistory task =>
    obtain rfl := Option.some_inj.mp taken
    obtain ⟨hset, hselected⟩ := h.setTaskId task
    unfold selectTaskFromHistory
    split_ifs
    · exact hset.runTaskSnapshot (by simp [hselected]) task true
    · exact hset
  | poll =>
    obtain ⟨targetId, hrendered, rfl⟩ := Option.map_eq_some_iff.mp taken
    have hsome : s.refs.taskIdRef ≠ none := fun hnone => by simp [h.selected hnone] at hrendered
    exact h.runTaskSnapshot hsome targetId false
  | refreshTask =>
    obtain ⟨targetId, hselected, rfl⟩ := Option.map_eq_some_iff.mp taken
    exact h.runTaskSnapshot (by simp [hselected]) targetId false
  | controlTask action =>
    obtain ⟨targetId, hrendered, rfl⟩ := Option.map_eq_some_iff.mp taken
    have hsome : s.refs.taskIdRef ≠ none := fun hnone => by simp [h.selected hnone] at hrendered
    exact h.controlTask hsome action targetId
  | hearControl i =>
    simp only [step] at taken
    split at taken
    · rename_i generation targetId origin hrequest
      obtain rfl := Option.some_inj.mp taken
      exact h.ifCurrent i _ fun _ => h.setPhase hrequest (.inr rfl) fun _ _ _ hphase => (by cases hphase)
    · cases taken
  | hearStatus i =>
    simp only [step] at taken
    split at taken
    · rename_i generation targetId origin mark hrequest
      obtain rfl := Option.some_inj.mp taken
      exact h.ifCurrent i _ fun _ => h.setPhase hrequest (.inl rfl) fun _ _ _ hphase => (by cases hphase)
    · cases taken
  | answerLogs i =>
    simp only [step] at taken
    split at taken
    · rename_i generation targetId origin mark hrequest
      obtain rfl := Option.some_inj.mp taken
      refine h.setPhase hrequest (.inl rfl) ?_
      rintro _ _ _ ⟨⟩
      refine ⟨le_rfl, ?_⟩
      rw [List.take_length]
      exact sliceFrom_natCast _ _
    · cases taken
  | hearLogs i =>
    simp only [step] at taken
    split at taken
    · rename_i generation targetId origin mark logs cursor hrequest
      obtain rfl := Option.some_inj.mp taken
      refine h.ifCurrent i _ fun current => ?_
      have hnow := timely _ _ _ _ _ _ hrequest current
      exact (h.hearLogs (List.mem_of_getElem? hrequest) rfl current hnow).settle i _
    · cases taken
  | fail i =>
    obtain ⟨request, -, rfl⟩ := Option.map_eq_some_iff.mp taken
    exact h.settle i request
  | render =>
    simp only [step] at taken
    split at taken
    · obtain rfl := Option.some_inj.mp taken
      refine h.quiet rfl rfl rfl (.inr rfl) rfl ?_ h.requests
      rintro mark (hcursor | hpending | hnow | hrequest)
      · exact .inl hcursor
      · dsimp only at hpending
        split_ifs at hpending
        exact .inl (Option.some_inj.mp hpending).symm
      · exact .inr (.inr (.inl hnow))
      · exact .inr (.inr (.inr hrequest))
    · cases taken
  | flush =>
    obtain ⟨mark, heffect, rfl⟩ := Option.map_eq_some_iff.mp taken
    refine h.quiet rfl rfl rfl (.inl rfl) rfl ?_ h.requests
    rintro m (hcursor | hpending | hnow | hrequest)
    · exact .inl hcursor
    · cases hpending
    · exact .inr (.inl (hnow ▸ heffect))
    · exact .inr (.inr (.inr hrequest))

theorem Inv.of_reachable {s : State T} (h : (machine T).Reachable Timely s) : Inv s :=
  h.invariant (fun _ => Inv.start) fun _ _ _ hs timely taken => hs.preserved timely taken

/-- An answer that is not processed in time leaves a gap in the view. -/
theorem Inv.gap {s t : State T} (h : Inv s) {i : ℕ} (taken : step s (.hearLogs i) = some t)
    (late : ¬ Timely s (.hearLogs i)) : ¬ Shows t.server t.view := by
  simp only [Timely, not_forall] at late
  obtain ⟨generation, targetId, origin, mark, logs, cursor, hrequest, current, huncovered⟩ := late
  obtain ⟨hne, -, hbehind⟩ : logs ≠ [] ∧ mark.emptied ≠ s.emptied ∧
      ¬ mark.cursor ≤ s.view.logs.length := by
    simpa only [not_or] using huncovered
  obtain ⟨-, htarget, hanswer⟩ := h.requests _ (List.mem_of_getElem? hrequest)
  obtain ⟨-, hlogs⟩ := hanswer mark logs cursor rfl
  have hselected : s.refs.taskIdRef = some targetId := htarget (isCurrentTask_eq.mp current).1
  obtain ⟨hnodup, hshort⟩ := h.server targetId
  have hshown : s.view.logs <+: s.server targetId := by
    have hview := h.view
    rw [Shows, h.task, hselected] at hview
    exact hview
  simp only [step, hrequest, State.ifCurrent, current, if_true] at taken
  obtain rfl := Option.some_inj.mp taken
  obtain ⟨_, _, hsettle⟩ := settle_frame (s.setState [.appendLogs generation targetId logs,
    .setNextCursor generation targetId ⟨cursor, mark.emptied⟩]) i
    ⟨generation, targetId, origin, .answered mark logs cursor⟩
  rw [hsettle]
  have hview := view_hearLogs current logs ⟨cursor, mark.emptied⟩
  change ¬ Shows s.server (s.setState [.appendLogs generation targetId logs,
    .setNextCursor generation targetId ⟨cursor, mark.emptied⟩]).view
  obtain ⟨hsublist, hgap⟩ := append_window_of_gap hnodup hshown (not_le.mp hbehind) (hlogs ▸ hne)
  have hapart := eraseDups_of_nodup (hsublist.nodup hnodup)
  have happended : LogTail.useTaskExecution.appendLogs s.view.logs logs = s.view.logs ++ logs := by
    rw [hlogs, appendLogs_eq (hshown.sublist.nodup hnodup), hapart]
    have hlen := hsublist.length_le
    rw [hapart]
    omega
  rw [hview, Shows, h.task, hselected, happended, hlogs]
  exact hgap

/-- In every run whose logs answers are processed in time, what is shown and what the next render
will show are the first lines of the selected task's log; a step that is not in time ends this. -/
theorem timely_views_are_prefixes (s : State T) (h : (machine T).Reachable Timely s) :
    Shows s.server s.rendered ∧ Shows s.server s.view ∧
      ∀ a t, step s a = some t → (Shows t.server t.view ↔ Timely s a) := by
  have hs := Inv.of_reachable h
  refine ⟨hs.rendered, hs.view, fun a t taken => ⟨fun hshows => ?_, fun timely => ?_⟩⟩
  · cases a with
    | hearLogs i =>
      by_contra hlate
      exact hs.gap taken hlate hshows
    | _ => trivial
  · exact (hs.preserved timely taken).view

def mounted : State String where
  server _ := []
  refs := ⟨0, none⟩
  logCursorRef := ⟨0, 0⟩
  pollInFlightRef := none
  controlInFlightRef := []
  rendered := ⟨none, [], ⟨0, 0⟩⟩
  updates := []
  effect := none
  requests := []
  emptied := 0

theorem start_mounted : (machine String).start mounted :=
  ⟨fun _ => ⟨List.nodup_nil, by simp [mounted]⟩, rfl, rfl, rfl, rfl, rfl, rfl, rfl, rfl, rfl⟩

def loggedIn : LogLine := ⟨1, "正在登录超星账号", "info"⟩

def courseStarted : LogLine := ⟨2, "开始学习课程: 高等数学", "info"⟩

/-- A poll of a task with one line, up to the processing of its logs. -/
def polled : List (Action String) :=
  [.setTaskId "A", .render, .append "A" loggedIn, .poll, .hearStatus 0, .answerLogs 0]

theorem first_line_shown : ∃ s, (machine String).Reachable Timely s ∧
    s.rendered.logs = [loggedIn] ∧ Shows s.server s.rendered := by
  have hrun : ∃ s t u, (machine String).exec mounted polled = some s ∧
      step s (.hearLogs 0) = some t ∧ step t .render = some u ∧
      s.requests[0]? = some ⟨1, "A", .poll, .answered ⟨0, 1⟩ [loggedIn] 1⟩ ∧ s.emptied = 1 ∧
      u.rendered.logs = [loggedIn] :=
    ⟨_, _, _, rfl, rfl, rfl, rfl, rfl, rfl⟩
  obtain ⟨s, t, u, hs, htaken, hrender, hrequest, hemptied, hlogs⟩ := hrun
  have hbefore : (machine String).Reachable Timely s := by
    refine ⟨_, start_mounted, Machine.run_of_exec_of (fun a ha s => ?_) hs⟩
    cases a with
    | hearLogs i => simp [polled] at ha
    | _ => trivial
  have htimely : Timely s (.hearLogs 0) := by
    intro generation targetId origin mark logs cursor hsame _
    obtain rfl : mark = ⟨0, 1⟩ := by
      rw [hrequest] at hsame
      cases hsame
      rfl
    exact .inr (.inl hemptied.symm)
  have hrendered : Timely t .render := trivial
  have hafter := (hbefore.tail htimely htaken).tail hrendered hrender
  exact ⟨u, hafter, hlogs, (timely_views_are_prefixes u hafter).1⟩

/-- A pause is answered, the task is selected again while the snapshot of the pause asks for the
lines behind the first, and its answer is taken in before that of the selection. -/
theorem first_line_missing : ∃ s, (machine String).Reachable Machine.free s ∧
    ¬ Shows s.server s.rendered := by
  have hrun : ∃ s, (machine String).exec mounted (polled ++
      [.hearLogs 0, .render, .flush, .controlTask .pause, .hearControl 0,
        .selectTaskFromHistory "A", .append "A" courseStarted, .hearStatus 0, .answerLogs 0,
        .hearLogs 0, .render]) = some s ∧
      s.rendered.taskId = some "A" ∧ s.rendered.logs = [courseStarted] ∧
      s.server "A" = [loggedIn, courseStarted] :=
    ⟨_, rfl, rfl, rfl, rfl⟩
  obtain ⟨s, hs, htask, hlogs, hserver⟩ := hrun
  refine ⟨s, Machine.reachable_of_exec _ start_mounted hs, ?_⟩
  simp only [Shows, htask, hlogs, hserver]
  decide

end UniversityHelper.LogView
