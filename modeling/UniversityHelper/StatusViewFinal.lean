import UniversityHelper.StatusView

/-! A terminal status stays displayed while its task stays selected, as long as no answer with an
active status is processed after a terminal one that the server gave later. -/
namespace UniversityHelper.StatusView
open LogView (Refs Control Origin)

variable {T : Type*} [DecidableEq T]

def Monotone (statuses : List String) : Prop :=
  statuses.Pairwise fun a b => isDone a = true → isDone b = true

theorem monotone_append {statuses : List String} {status : String} (h : Monotone statuses)
    (allowed : ¬ (statuses.any isDone = true ∧ isDone status = false)) :
    Monotone (statuses ++ [status]) := by
  refine List.pairwise_append.mpr ⟨h, List.pairwise_singleton _ _, fun a ha b hb hdone => ?_⟩
  obtain rfl := List.mem_singleton.mp hb
  by_contra hactive
  exact allowed ⟨List.any_eq_true.mpr ⟨a, ha, hdone⟩, Bool.eq_false_of_not_eq_true hactive⟩

/-- The server's terminal status is later than any active one. -/
theorem lt_of_done {statuses : List String} (h : Monotone statuses) {i j : ℕ} {active done : String}
    (hi : statuses[i]? = some active) (hj : statuses[j]? = some done) (hactive : isDone active = false)
    (hdone : isDone done = true) : i < j := by
  by_contra hle
  obtain ⟨hilt, rfl⟩ := List.getElem?_eq_some_iff.mp hi
  obtain ⟨hjlt, rfl⟩ := List.getElem?_eq_some_iff.mp hj
  rcases Nat.lt_or_eq_of_le (not_lt.mp hle) with hlt | rfl
  · have hlater := List.pairwise_iff_getElem.mp h j i hjlt hilt hlt hdone
    rw [hactive] at hlater
    cases hlater
  · rw [hactive] at hdone
    cases hdone

/-- The answers are statuses that their task really went through. -/
structure Books (s : State T) : Prop where
  monotone : ∀ task, Monotone (s.server task)
  told : ∀ x, s.Told x → (s.server x.task)[x.changes]? = some x.status
  heard : ∀ x ∈ s.heard, (s.server x.task)[x.changes]? = some x.status

omit [DecidableEq T] in
theorem Latest.valid {s : State T} {x : Answer T} (h : s.Latest x) :
    (s.server x.task)[x.changes]? = some x.status := by
  rw [h.2, ← List.getLast?_eq_getElem?]
  exact h.1

omit [DecidableEq T] in
theorem told_of_request {s : State T} {i generation : ℕ} {x : Answer T} {origin : Origin}
    (h : s.requests[i]? = some ⟨generation, x.task, origin, .answered x.changes x.status⟩) :
    s.Told x := ⟨_, List.mem_of_getElem? h, rfl, rfl⟩

theorem Books.preserved {s t : State T} {a : Action T} (h : Books s) (taken : step s a = some t) :
    Books t := by
  cases step_effect taken with
  | quiet quiet =>
    refine ⟨?_, fun x hx => ?_, ?_⟩
    · rw [quiet.server]
      exact h.monotone
    · rw [quiet.server]
      exact (quiet.told x hx).elim (h.told x) Latest.valid
    · rw [quiet.server, quiet.heard]
      exact h.heard
  | @changed task status allowed =>
    have hkept : ∀ x : Answer T, (s.server x.task)[x.changes]? = some x.status →
        (Function.update s.server task (s.server task ++ [status]) x.task)[x.changes]? =
          some x.status := by
      intro x hx
      by_cases htask : x.task = task
      · subst htask
        obtain ⟨hlt, -⟩ := List.getElem?_eq_some_iff.mp hx
        rw [Function.update_self, List.getElem?_append_left hlt]
        exact hx
      · rwa [Function.update_of_ne htask]
    refine ⟨fun other => ?_, fun x hx => hkept x (h.told x hx), fun x hx => hkept x (h.heard x hx)⟩
    by_cases hother : other = task
    · subst hother
      dsimp only
      rw [Function.update_self]
      exact monotone_append (h.monotone other) allowed
    · dsimp only
      rw [Function.update_of_ne hother]
      exact h.monotone other
  | heard request current server heard rendered updates told refs =>
    refine ⟨?_, fun y hy => ?_, ?_⟩
    · rw [server]
      exact h.monotone
    · rw [server]
      exact h.told y (told y hy)
    · rw [server, heard]
      intro y hy
      rcases List.mem_cons.mp hy with rfl | hold
      · exact h.told y (told_of_request request)
      · exact h.heard y hold
  | rendered server heard view updates told refs =>
    refine ⟨?_, fun y hy => ?_, ?_⟩
    · rw [server]
      exact h.monotone
    · rw [server]
      exact h.told y (told y hy)
    · rw [server, heard]
      exact h.heard

/-- An answer processed in time is not an active status after a terminal one. -/
theorem done_of_timely {s : State T} (h : Books s) {i generation : ℕ} {x earlier : Answer T}
    {origin : Origin} (ok : Timely s (.hearStatus i))
    (request : s.requests[i]? = some ⟨generation, x.task, origin, .answered x.changes x.status⟩)
    (current : s.refs.isCurrentTask generation x.task = true)
    (hearlier : earlier ∈ s.heard) (htask : earlier.task = x.task) (hdone : earlier.done = true) :
    x.done = true := by
  by_contra hactive
  have hx := h.told x (told_of_request request)
  have hold := h.heard earlier hearlier
  rw [htask] at hold
  have hfalse : isDone x.status = false := Bool.eq_false_of_not_eq_true hactive
  have hlt := lt_of_done (h.monotone x.task) hx hold hfalse hdone
  exact ok generation x.task origin x.changes x.status request current hfalse
    ⟨earlier, hearlier, htask, hlt, hdone⟩

/-- The answers that are displayed or wait for the next render, in that order. -/
def State.shown (s : State T) : List (Answer T) :=
  s.rendered.taskStatus.toList ++ s.updates.filterMap Update.answer

/-- Of the answers on display none is active behind a terminal one of its task. -/
structure InOrder (s : State T) : Prop where
  pairwise : s.shown.Pairwise fun a b => a.task = b.task → a.done = true → b.done = true
  known : ∀ x ∈ s.shown, x ∈ s.heard

/-- A render displays what was displayed before, or an answer for the current task. -/
theorem taskStatus_of_apply {refs : Refs T} {x : Answer T} (updates : List (Update T)) :
    ∀ view : View T, (updates.foldl (Refs.apply refs) view).taskStatus = some x →
      view.taskStatus = some x ∨ x ∈ updates.filterMap Update.answer ∧
        (refs.taskIdRef = none ∨ refs.taskIdRef = some x.task) := by
  induction updates with
  | nil => exact fun _ => .inl
  | cons update updates ih =>
    intro view h
    rw [List.foldl_cons] at h
    rcases ih _ h with hview | ⟨hmem, hcurrent⟩
    · cases update with
      | setTaskIdState taskId => exact .inl hview
      | clearTaskStatus => cases hview
      | setTaskStatus generation answer =>
        simp only [Refs.apply] at hview
        split_ifs at hview with happlied
        · cases hview
          have hrefs := of_decide_eq_true happlied
          exact .inr ⟨by simp [Update.answer], hrefs.2⟩
        · exact .inl hview
    · refine .inr ⟨?_, hcurrent⟩
      rw [List.filterMap_cons]
      split
      · exact hmem
      · exact List.mem_cons_of_mem _ hmem

theorem InOrder.preserved {s t : State T} {a : Action T} (books : Books s) (h : InOrder s)
    (ok : Timely s a) (taken : step s a = some t) : InOrder t := by
  cases step_effect taken with
  | quiet quiet =>
    obtain ⟨added, hadded, hnone⟩ := quiet.updates
    have hsame : t.shown = s.shown := by
      rw [State.shown, State.shown, quiet.rendered, hadded, List.filterMap_append, hnone,
        List.append_nil]
    refine ⟨?_, ?_⟩
    · rw [hsame]
      exact h.pairwise
    · rw [hsame, quiet.heard]
      exact h.known
  | changed allowed => exact ⟨h.pairwise, h.known⟩
  | @heard i generation x origin _ request current server heard rendered updates told refs =>
    have hshown : t.shown = s.shown ++ [x] := by
      rw [State.shown, State.shown, rendered, updates, List.filterMap_append, List.append_assoc]
      rfl
    refine ⟨?_, ?_⟩
    · rw [hshown]
      refine List.pairwise_append.mpr ⟨h.pairwise, List.pairwise_singleton _ _, ?_⟩
      intro earlier hearlier y hy htask hdone
      obtain rfl := List.mem_singleton.mp hy
      exact done_of_timely books ok request current (h.known earlier hearlier) htask hdone
    · rw [hshown, heard]
      intro y hy
      rcases List.mem_append.mp hy with hold | hnew
      · exact List.mem_cons_of_mem _ (h.known y hold)
      · exact List.mem_singleton.mp hnew ▸ List.mem_cons_self
  | rendered server heard view updates told refs =>
    have hshown : t.shown = s.view.taskStatus.toList := by
      rw [State.shown, view, updates]
      exact List.append_nil _
    refine ⟨?_, ?_⟩
    · rw [hshown]
      cases s.view.taskStatus with
      | none => exact .nil
      | some x => exact List.pairwise_singleton _ _
    · rw [hshown, heard]
      intro x hx
      rcases taskStatus_of_apply _ _ (Option.mem_toList.mp hx) with hold | ⟨hnew, -⟩
      · exact h.known x (List.mem_append_left _ (Option.mem_toList.mpr hold))
      · exact h.known x (List.mem_append_right _ hnew)

/-- A terminal status of the task has been processed, and nothing else of it is on display. -/
structure Settled (task : T) (s : State T) : Prop where
  selected : s.refs.taskIdRef = some task
  heard : ∃ x ∈ s.heard, x.task = task ∧ x.done = true
  displayed : ∀ x, s.rendered.taskStatus = some x → x.done = true
  queued : ∀ x ∈ s.updates.filterMap Update.answer, x.task = task → x.done = true

theorem Settled.preserved {s t : State T} {a : Action T} {task : T} (books : Books s)
    (h : Settled task s) (ok : Timely s a) (taken : step s a = some t)
    (hstays : t.refs.taskGenerationRef = s.refs.taskGenerationRef) : Settled task t := by
  cases step_effect taken with
  | quiet quiet =>
    obtain ⟨added, hadded, hnone⟩ := quiet.updates
    have hrefs : t.refs = s.refs := quiet.refs.resolve_right (by omega)
    refine ⟨?_, ?_, ?_, ?_⟩
    · rw [hrefs]
      exact h.selected
    · rw [quiet.heard]
      exact h.heard
    · rw [quiet.rendered]
      exact h.displayed
    · rw [hadded, List.filterMap_append, hnone, List.append_nil]
      exact h.queued
  | changed allowed => exact ⟨h.selected, h.heard, h.displayed, h.queued⟩
  | @heard i generation x origin _ request current server heard rendered updates told refs =>
    obtain ⟨earlier, hearlier, htask, hdone⟩ := h.heard
    refine ⟨?_, ?_, ?_, ?_⟩
    · rw [refs]
      exact h.selected
    · rw [heard]
      exact ⟨earlier, List.mem_cons_of_mem _ hearlier, htask, hdone⟩
    · rw [rendered]
      exact h.displayed
    · rw [updates, List.filterMap_append]
      intro y hy hytask
      rcases List.mem_append.mp hy with hold | hnew
      · exact h.queued y hold hytask
      · obtain rfl : y = x := List.mem_singleton.mp hnew
        exact done_of_timely books ok request current hearlier (htask.trans hytask.symm) hdone
  | rendered server heard view updates told refs =>
    refine ⟨?_, ?_, fun x hx => ?_, ?_⟩
    · rw [refs]
      exact h.selected
    · rw [heard]
      exact h.heard
    · rw [view] at hx
      rcases taskStatus_of_apply _ _ hx with hold | ⟨hnew, hcurrent⟩
      · exact h.displayed x hold
      · have hsame : some task = some x.task := by
          rw [h.selected] at hcurrent
          exact hcurrent.resolve_left (Option.some_ne_none task)
        exact h.queued x hnew (Option.some_inj.mp hsame).symm
    · rw [updates]
      nofun

theorem generation_le {s t : State T} {a : Action T} (taken : step s a = some t) :
    s.refs.taskGenerationRef ≤ t.refs.taskGenerationRef := by
  cases step_effect taken with
  | quiet quiet =>
    rcases quiet.refs with hsame | hmore
    · exact hsame ▸ le_rfl
    · exact hmore.le
  | changed allowed => exact le_rfl
  | heard request current server heard rendered updates told refs => exact refs ▸ le_rfl
  | rendered server heard view updates told refs => exact refs ▸ le_rfl

theorem books_of_reachable {s : State T} (h : (machine T).Reachable Timely s) :
    Books s ∧ InOrder s := by
  refine h.invariant (I := fun s => Books s ∧ InOrder s) ?_ ?_
  · rintro s ⟨hserver, -, -, -, hrendered, hupdates, -, -, hrequests, hheard⟩
    have hshown : s.shown = [] := by
      rw [State.shown, hrendered, hupdates]
      rfl
    refine ⟨⟨hserver, ?_, ?_⟩, ⟨?_, ?_⟩⟩
    · rintro x ⟨request, hmem, -⟩
      rw [hrequests] at hmem
      cases hmem
    · rw [hheard]
      nofun
    · rw [hshown]
      exact .nil
    · rw [hshown]
      nofun
  · rintro s a t ⟨hbooks, horder⟩ ok taken
    exact ⟨hbooks.preserved taken, horder.preserved hbooks ok taken⟩

/-- Once a terminal status of the selected task is displayed, no other than a terminal one is
displayed while it stays selected. -/
theorem terminal_status_stays {s t : State T} (hs : (machine T).Reachable Timely s)
    (hrun : (machine T).Run Timely s t) {shown : Answer T}
    (hselected : s.refs.taskIdRef = some shown.task)
    (hdisplayed : s.rendered.taskStatus = some shown) (hdone : isDone shown.status = true)
    (hstays : t.refs.taskGenerationRef = s.refs.taskGenerationRef) :
    ∀ later, t.rendered.taskStatus = some later → isDone later.status = true := by
  have hstart : Settled shown.task s := by
    have horder := (books_of_reachable hs).2
    have hshown : s.shown = shown :: s.updates.filterMap Update.answer := by
      rw [State.shown, hdisplayed]
      rfl
    have hknown := horder.known
    have hpairwise := horder.pairwise
    rw [hshown] at hknown hpairwise
    refine ⟨hselected, ⟨shown, hknown shown List.mem_cons_self, rfl, hdone⟩, fun x hx => ?_,
      fun x hx htask => ?_⟩
    · rw [hdisplayed] at hx
      cases hx
      exact hdone
    · exact List.rel_of_pairwise_cons hpairwise hx htask.symm hdone
  have hsettled : s.refs.taskGenerationRef ≤ t.refs.taskGenerationRef ∧
      (t.refs.taskGenerationRef = s.refs.taskGenerationRef → Settled shown.task t) := by
    clear hstays
    induction hrun with
    | refl => exact ⟨le_rfl, fun _ => hstart⟩
    | @tail t u a before allowed taken ih =>
      have hgrows := generation_le taken
      refine ⟨ih.1.trans hgrows, fun hsame => ?_⟩
      have hbooks := (books_of_reachable (hs.run before)).1
      exact (ih.2 (by omega)).preserved hbooks allowed taken (by omega)
  exact (hsettled.2 hstays).displayed

def mounted : State String where
  server := fun task => if task = "A" then ["running"] else []
  refs := ⟨0, none⟩
  pollInFlightRef := none
  controlInFlightRef := []
  rendered := ⟨none, none⟩
  updates := []
  effect := none
  pollRef := none
  requests := []
  heard := []

theorem start_mounted : (machine String).start mounted := by
  refine ⟨fun task => ?_, rfl, rfl, rfl, rfl, rfl, rfl, rfl, rfl, rfl⟩
  dsimp only [mounted]
  split
  · exact List.pairwise_singleton _ _
  · exact .nil

/-- Task "A" is selected and polled for the first time. -/
def selected : List (Action String) := [.setTaskId "A", .render, .runEffect, .answerStatus 0]

theorem timely_selected : ∀ a ∈ selected, ∀ s, Timely s a := by
  simp [selected, Timely]

/-- A task that was cancelled before its first poll is polled again. -/
theorem cancelled_task_stays : ∃ s t, (machine String).Reachable Timely s ∧
    (machine String).Run Timely s t ∧ s.rendered.taskStatus = some ⟨"A", 1, "cancelled"⟩ ∧
    t.heard.length = 2 ∧
    ∀ later, t.rendered.taskStatus = some later → isDone later.status = true := by
  have hrun : ∃ r s t u v, (machine String).exec mounted (.change "A" "cancelled" :: selected) = some r ∧
      step r (.hearStatus 0) = some s ∧ step s .render = some t ∧
      (machine String).exec t [.hearLogs 0, .refreshTask, .answerStatus 0] = some u ∧
      step u (.hearStatus 0) = some v ∧
      r.requests[0]? = some ⟨1, "A", .poll, .answered 1 "cancelled"⟩ ∧
      u.requests[0]? = some ⟨1, "A", .poll, .answered 1 "cancelled"⟩ ∧
      t.rendered.taskStatus = some ⟨"A", 1, "cancelled"⟩ ∧ t.refs = ⟨1, some "A"⟩ ∧
      v.refs = ⟨1, some "A"⟩ ∧ v.heard.length = 2 :=
    ⟨_, _, _, _, _, rfl, rfl, rfl, rfl, rfl, rfl, rfl, rfl, rfl, rfl, rfl⟩
  obtain ⟨r, s, t, u, v, hselected, hfirst, hrender, hagain, hsecond, hrequest, hrequest', hshown,
    hrefs, hrefs', hheard⟩ := hrun
  have htimely : ∀ q : State String, q.requests[0]? = some ⟨1, "A", .poll, .answered 1 "cancelled"⟩ →
      Timely q (.hearStatus 0) := by
    intro q hq generation targetId origin changes status hsame _ hactive
    rw [hq] at hsame
    cases hsame
    exact absurd hactive (by decide)
  have hr : (machine String).Reachable Timely r := by
    refine ⟨_, start_mounted, Machine.run_of_exec_of ?_ hselected⟩
    rintro a (_ | ⟨_, ha⟩) q
    · trivial
    · exact timely_selected a ha q
  have hrendered : Timely s .render := trivial
  have ht := (hr.tail (htimely r hrequest) hfirst).tail hrendered hrender
  have hrun : (machine String).Run Timely t v :=
    (Machine.run_of_exec_of (by simp [Timely]) hagain).tail (htimely u hrequest') hsecond
  exact ⟨t, v, ht, hrun, hshown, hheard, terminal_status_stays ht hrun (by rw [hrefs]) hshown
    (by decide) (by rw [hrefs, hrefs'])⟩

/-- The answer to the first poll, overtaken by the snapshot of a stop, makes the task active again. -/
theorem overtaken_poll_shown : ∃ s t, (machine String).Reachable Machine.free s ∧
    (machine String).Run Machine.free s t ∧ s.refs.taskIdRef = some "A" ∧
    s.rendered.taskStatus = some ⟨"A", 1, "cancelled"⟩ ∧ isDone "cancelled" = true ∧
    t.refs.taskGenerationRef = s.refs.taskGenerationRef ∧
    t.rendered.taskStatus = some ⟨"A", 0, "running"⟩ ∧ isDone "running" = false := by
  have hrun : ∃ s t, (machine String).exec mounted (selected ++ [.controlTask .stop,
        .change "A" "cancelled", .hearControl 1, .answerStatus 1, .hearStatus 1, .render]) = some s ∧
      (machine String).exec s [.hearStatus 0, .render] = some t ∧ s.refs.taskIdRef = some "A" ∧
      s.rendered.taskStatus = some ⟨"A", 1, "cancelled"⟩ ∧
      t.refs.taskGenerationRef = s.refs.taskGenerationRef ∧
      t.rendered.taskStatus = some ⟨"A", 0, "running"⟩ :=
    ⟨_, _, rfl, rfl, rfl, rfl, rfl, rfl⟩
  obtain ⟨s, t, hs, ht, htask, hbefore, hstays, hafter⟩ := hrun
  exact ⟨s, t, Machine.reachable_of_exec _ start_mounted hs, Machine.run_of_exec ht, htask, hbefore,
    by decide, hstays, hafter, by decide⟩

end UniversityHelper.StatusView
