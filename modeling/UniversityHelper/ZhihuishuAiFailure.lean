import UniversityHelper.ZhihuishuAiWritten

set_option linter.unusedSectionVars false

/-! A call of `start_ai_course_task` that raises without a task, next to the run of the other
threads in which that call is not made. -/
namespace UniversityHelper.Zhihuishu
variable {C V : Type*} [DecidableEq C]

section Threads
variable {v : Values V}

/-- A call of another thread with the call and without it. -/
inductive SameCall (v : Values V) (given : Bool × Bool) : AiCall V → AiCall V → Prop
  | starting {p q : Previous V} (same : SamePrevious v given p q) :
      SameCall v given (.starting p) (.starting q)
  | caught {p q : Previous V} {failure : StartFailure} (same : SamePrevious v given p q) :
      SameCall v given (.caught p failure) (.caught q failure)
  | ended {call : AiCall V} (ended : call.underWay = false) : SameCall v given call call

theorem SameCall.self (call : AiCall V) : SameCall v (false, false) call call := by
  cases call with
  | starting previous => exact .starting ⟨rfl, rfl⟩
  | caught previous failure => exact .caught ⟨rfl, rfl⟩
  | _ => exact .ended rfl

theorem SameCall.finish {given : Bool × Bool} {call other : AiCall V}
    (h : SameCall v given call other) (outcome : Except StartFailure Unit) :
    SameCall v given (call.finish outcome) (other.finish outcome) := by
  cases h with
  | starting same =>
    cases outcome with
    | error failure =>
      simp only [AiCall.finish]
      split_ifs
      · exact .caught same
      · exact .ended rfl
    | ok => exact .ended rfl
  | caught same => exact .caught same
  | ended hended =>
    cases call with
    | starting previous => cases hended
    | caught previous failure => cases hended
    | _ => exact .ended rfl

/-- The state with the call of `c`, which saved `p` and has not made a task, and the state
without it. -/
structure Beside (v : Values V) (c : C) (p : Previous V) (w : Written C) (s alone : AiState C V) :
    Prop where
  adapter : s.adapter = alone.adapter.call c (s.adapter.caller c)
  idle : alone.adapter.caller c = .idle
  unstarted : (s.adapter.caller c).pending = none
  own : s.call c = .starting p ∨
    ∃ failure, s.call c = .caught p failure ∧ failure.caught = true ∧ s.adapter.caller c = .idle
  settings : Alike v w s.settings alone.settings
  calls : ∀ d, d ≠ c → SameCall v (w.previous d) (s.call d) (alone.call d)

variable {c : C} {p : Previous V} {w : Written C} {s t alone : AiState C V}

theorem Beside.caller (h : Beside v c p w s alone) {d : C} (hd : d ≠ c) :
    s.adapter.caller d = alone.adapter.caller d := by
  rw [h.adapter]
  exact Function.update_of_ne hd _ _

theorem Beside.allows (h : Beside v c p w s alone) {a : Action C} (hown : a.thread ≠ some c) :
    s.allows a = alone.allows a := by
  cases a with
  | startCheck d r =>
    have hd : d ≠ c := fun hdc => hown (congrArg some hdc)
    have hcall := h.calls d hd
    simp only [AiState.allows]
    generalize s.call d = call at hcall ⊢
    generalize alone.call d = other at hcall ⊢
    cases hcall <;> rfl
  | _ => rfl

theorem previous_after (w : Written C) (a : Action C) :
    (w.after (V := V) (.adapter a)).previous = w.previous := by
  cases a <;> rfl

/-- What the adapter does for another thread it does without the call. -/
theorem Beside.adapter_step (h : Beside v c p w s alone) {a : Action C} (hown : a.thread ≠ some c)
    {adapter : State C} (taken : step s.adapter a = some adapter) :
    ∃ next, step alone.adapter a = some next ∧ adapter = next.call c (s.adapter.caller c) ∧
      adapter.caller c = s.adapter.caller c ∧ next.caller c = .idle := by
  have hstep := step_call (s := alone.adapter) hown (s.adapter.caller c)
  rw [← h.adapter, taken] at hstep
  obtain ⟨next, hnext, hcall⟩ := Option.map_eq_some_iff.mp hstep.symm
  exact ⟨next, hnext, hcall.symm, step_caller hown taken, (step_caller hown hnext).trans h.idle⟩

/-- The adapter, the settings and the call of one other thread change. -/
theorem Beside.change (h : Beside v c p w s alone) {w' : Written C} {t next : AiState C V}
    (adapter : t.adapter = next.adapter.call c (s.adapter.caller c))
    (caller : t.adapter.caller c = s.adapter.caller c) (idle : next.adapter.caller c = .idle)
    (call : t.call c = s.call c) (settings : Alike v w' t.settings next.settings)
    (calls : ∀ d, d ≠ c → SameCall v (w'.previous d) (t.call d) (next.call d)) :
    Beside v c p w' t next where
  adapter := caller ▸ adapter
  idle := idle
  unstarted := caller ▸ h.unstarted
  own := by
    rw [call, caller]
    exact h.own
  settings := settings
  calls := calls

theorem call_goto_of_ne {d x : C} (hx : x ≠ d) (s : AiState C V) (next : AiCall V) :
    (s.goto d next).call x = s.call x := Function.update_of_ne hx ..

theorem call_goto (s : AiState C V) (d : C) (next : AiCall V) : (s.goto d next).call d = next :=
  Function.update_self ..

theorem finish_frame (s : AiState C V) (o : Option (C × Except StartFailure Unit)) :
    (s.finish o).adapter = s.adapter ∧ (s.finish o).settings = s.settings := by
  rcases o with _ | ⟨d, outcome⟩ <;> exact ⟨rfl, rfl⟩

theorem call_finish_of_ne {o : Option (C × Except StartFailure Unit)} {x : C}
    (hx : ∀ outcome, o ≠ some (x, outcome)) (s : AiState C V) : (s.finish o).call x = s.call x := by
  rcases o with _ | ⟨d, outcome⟩
  · rfl
  · exact call_goto_of_ne (fun hxd => hx outcome (congrArg some (Prod.ext hxd.symm rfl))) s _

theorem sameCall_goto {given : C → Bool × Bool} {d : C} {call other : AiCall V}
    (h : ∀ x, x ≠ c → SameCall v (given x) (s.call x) (alone.call x))
    (hcall : SameCall v (given d) call other) :
    ∀ x, x ≠ c → SameCall v (given x) ((s.goto d call).call x) ((alone.goto d other).call x) := by
  intro x hx
  by_cases hxd : x = d
  · subst hxd
    rw [call_goto, call_goto]
    exact hcall
  · rw [call_goto_of_ne hxd, call_goto_of_ne hxd]
    exact h x hx

theorem sameCall_finish {given : C → Bool × Bool} {o : Option (C × Except StartFailure Unit)}
    (h : ∀ x, x ≠ c → SameCall v (given x) (s.call x) (alone.call x))
    (ho : ∀ outcome, o ≠ some (c, outcome)) :
    ∀ x, x ≠ c → SameCall v (given x) ((s.finish o).call x) ((alone.finish o).call x) := by
  rcases o with _ | ⟨d, outcome⟩
  · exact h
  · have hd : d ≠ c := fun hdc => ho outcome (congrArg some (Prod.ext hdc rfl))
    exact sameCall_goto h ((h d hd).finish outcome)

theorem SameCall.underWay {given : Bool × Bool} {call other : AiCall V}
    (h : SameCall v given call other) : other.underWay = call.underWay := by
  cases h <;> rfl

theorem switchOn_step {d : C} (idle : s.adapter.caller d = .idle)
    (ended : (s.call d).underWay = false) :
    aiStep v s (.switchOn d) = some (({ s with settings := s.settings.switchOn v } : AiState C V).goto d
      (.starting (s.settings.previous v))) := by
  simp only [aiStep, idle]
  cases hcall : s.call d with
  | starting previous => simp [hcall, AiCall.underWay] at ended
  | caught previous failure => simp [hcall, AiCall.underWay] at ended
  | _ => rfl

theorem switchOn_taken {d : C} (taken : aiStep v s (.switchOn d) = some t) :
    s.adapter.caller d = .idle ∧ (s.call d).underWay = false ∧
      t = ({ s with settings := s.settings.switchOn v } : AiState C V).goto d
        (.starting (s.settings.previous v)) := by
  simp only [aiStep] at taken
  split at taken
  case h_1 hidle hcall | h_2 hidle hcall | h_3 hidle hcall =>
    cases taken
    exact ⟨hidle, by rw [hcall]; rfl, rfl⟩
  case h_4 => cases taken

/-- A step of another thread, with the call and without it. -/
theorem Beside.other (h : Beside v c p w s alone) {a : AiAction C V} (hown : a.thread ≠ some c)
    (taken : aiStep v s a = some t) :
    ∃ next, aiStep v alone a = some next ∧ Beside v c p (w.after a) t next := by
  cases a with
  | adapter a =>
    simp only [aiStep] at taken
    split_ifs at taken with hallows
    obtain ⟨adapter, hstep, rfl⟩ := Option.map_eq_some_iff.mp taken
    obtain ⟨next, hnext, hcall, hcaller, hidle⟩ := h.adapter_step hown hstep
    have hending := ending_call (s := alone.adapter) hown (s.adapter.caller c)
    rw [← h.adapter] at hending
    have hnot : ∀ outcome, ending alone.adapter a ≠ some (c, outcome) :=
      fun outcome ho => hown (ending_thread ho)
    refine ⟨({ alone with
        adapter := next
        settings := settingsAfter v alone.settings a } : AiState C V).finish
          (ending alone.adapter a), ?_, ?_⟩
    · rw [h.allows hown] at hallows
      simp only [aiStep, if_pos hallows, hnext, Option.map_some]
    · rw [hending]
      apply h.change
      · rw [(finish_frame _ _).1, (finish_frame _ _).1]
        exact hcall
      · rw [(finish_frame _ _).1]
        exact hcaller
      · rw [(finish_frame _ _).1]
        exact hidle
      · exact call_finish_of_ne hnot _
      · rw [(finish_frame _ _).2, (finish_frame _ _).2]
        exact h.settings.settingsAfter a
      · rw [previous_after]
        exact sameCall_finish h.calls hnot
  | loadVideos d fetched =>
    have hd : d ≠ c := fun hdc => hown (congrArg some hdc)
    simp only [aiStep, h.caller hd] at taken ⊢
    cases hloading : alone.adapter.caller d with
    | loading r =>
      simp only [hloading] at taken ⊢
      cases hchosen : chooseVideos r fetched with
      | ok videos =>
        simp only [hchosen] at taken ⊢
        obtain ⟨adapter, hstep, rfl⟩ := Option.map_eq_some_iff.mp taken
        obtain ⟨next, hnext, hcall, hcaller, hidle⟩ :=
          h.adapter_step (a := .loadVideos d (some videos)) hown hstep
        refine ⟨{ alone with adapter := next }, by rw [hnext]; rfl, ?_⟩
        exact h.change hcall hcaller hidle rfl h.settings h.calls
      | error failure =>
        simp only [hchosen] at taken ⊢
        obtain ⟨adapter, hstep, rfl⟩ := Option.map_eq_some_iff.mp taken
        obtain ⟨next, hnext, hcall, hcaller, hidle⟩ :=
          h.adapter_step (a := .loadVideos d none) hown hstep
        refine ⟨({ alone with adapter := next } : AiState C V).finish (some (d, .error failure)),
          by rw [hnext]; rfl, ?_⟩
        have hnot : ∀ outcome : Except StartFailure Unit,
            some (d, Except.error failure) ≠ some (c, outcome) :=
          fun outcome ho => hd (Prod.ext_iff.mp (Option.some_inj.mp ho)).1
        exact h.change hcall hcaller hidle (call_finish_of_ne hnot _) h.settings
          (sameCall_finish h.calls hnot)
    | _ => simp only [hloading, reduceCtorEq] at taken
  | updateConfig d =>
    obtain rfl := Option.some_inj.mp taken
    exact ⟨_, rfl, h.change h.adapter rfl h.idle rfl (h.settings.updateConfig d) h.calls⟩
  | switchOn d =>
    have hd : d ≠ c := fun hdc => hown (congrArg some hdc)
    obtain ⟨hidle, hended, rfl⟩ := switchOn_taken taken
    refine ⟨_, switchOn_step (h.caller hd ▸ hidle) ((h.calls d hd).underWay.trans hended), ?_⟩
    apply h.change
    · exact h.adapter
    · exact rfl
    · exact h.idle
    · exact call_goto_of_ne hd.symm _ _
    · exact h.settings.switchOn _
    · intro x hx
      by_cases hxd : x = d
      · subst hxd
        rw [call_goto, call_goto]
        simp only [Written.after, Function.update_self]
        exact .starting h.settings.previous
      · rw [call_goto_of_ne hxd, call_goto_of_ne hxd]
        simp only [Written.after, Function.update_of_ne hxd]
        exact h.calls x hx
  | restore d =>
    have hd : d ≠ c := fun hdc => hown (congrArg some hdc)
    have hcall := h.calls d hd
    simp only [aiStep] at taken ⊢
    generalize hs : s.call d = call at hcall taken
    generalize halone : alone.call d = other at hcall ⊢
    cases hcall with
    | caught same =>
      obtain rfl := Option.some_inj.mp taken
      exact ⟨_, rfl, h.change h.adapter rfl h.idle (call_goto_of_ne hd.symm _ _)
        (h.settings.restore same) (sameCall_goto h.calls (.ended rfl))⟩
    | starting same => cases taken
    | ended hended =>
      cases call with
      | caught previous failure => cases hended
      | _ => cases taken

/-- A step of the thread `c` other than the one that switches the settings on. -/
inductive OwnStep (c : C) (s : AiState C V) : AiState C V → Prop
  | move (x : Caller) (unstarted : (s.adapter.caller c).pending = none) (next : x.pending = none)
      (busy : ∀ p failure, s.call c = .caught p failure → s.adapter.caller c ≠ .idle) :
      OwnStep c s { s with adapter := s.adapter.call c x }
  | fail (failure : StartFailure) (unstarted : (s.adapter.caller c).pending = none)
      (busy : ∀ p failure, s.call c = .caught p failure → s.adapter.caller c ≠ .idle) :
      OwnStep c s (({ s with adapter := s.adapter.call c .idle } : AiState C V).goto c
        ((s.call c).finish (.error failure)))
  | created {t : AiState C V} (pending : (t.adapter.caller c).pending ≠ none)
      (busy : s.adapter.caller c ≠ .idle) (call : t.call c = s.call c) : OwnStep c s t
  | returned {t : AiState C V} (busy : s.adapter.caller c ≠ .idle)
      (call : t.call c = (s.call c).finish (.ok ())) : OwnStep c s t
  | unstarted {t : AiState C V} (pending : (s.adapter.caller c).pending ≠ none)
      (call : t.call c = (s.call c).finish (.error .threadStart)) : OwnStep c s t
  | restore (p : Previous V) (failure : StartFailure) (caught : s.call c = .caught p failure) :
      OwnStep c s (({ s with settings := s.settings.restore p } : AiState C V).goto c
        (.raised failure))

theorem not_caught_of_allows {r : StartRequest} (h : s.allows (.startCheck c r) = true)
    (p : Previous V) (failure : StartFailure) : s.call c ≠ .caught p failure := by
  intro hcaught
  simp [AiState.allows, hcaught] at h

theorem thread_step {a : AiAction C V} (hown : a.thread = some c) (hfirst : a ≠ .switchOn c)
    (taken : aiStep v s a = some t) : OwnStep c s t := by
  cases a with
  | adapter a =>
    simp only [aiStep] at taken
    split_ifs at taken with hallows
    obtain ⟨adapter, hstep, rfl⟩ := Option.map_eq_some_iff.mp taken
    cases a with
    | startCheck d r =>
      obtain rfl : d = c := Option.some_inj.mp hown
      have hbusy : ∀ p failure, s.call d = .caught p failure → s.adapter.caller d ≠ .idle :=
        fun p failure hcaught => absurd hcaught (not_caught_of_allows hallows p failure)
      simp only [step] at hstep
      cases hcaller : s.adapter.caller d with
      | idle =>
        simp only [hcaller, Option.some_inj] at hstep
        have hunstarted : (s.adapter.caller d).pending = none := by rw [hcaller]; rfl
        have hself : s.adapter.call d .idle = s.adapter := hcaller ▸ call_self s.adapter d
        simp only [ending]
        by_cases hlogged : s.adapter.loggedIn = false
        · rw [if_neg (by simp [hlogged])] at hstep
          rw [if_pos hlogged, ← hstep]
          have hfail := OwnStep.fail (s := s) .notLoggedIn hunstarted hbusy
          rw [hself] at hfail
          exact hfail
        · rw [if_neg hlogged]
          by_cases hconflict : s.adapter.conflict = true
          · rw [if_neg (by simp [hconflict])] at hstep
            rw [if_pos hconflict, ← hstep]
            have hfail := OwnStep.fail (s := s) .taskConflict hunstarted hbusy
            rw [hself] at hfail
            exact hfail
          · rw [if_pos ⟨Bool.eq_true_of_not_eq_false hlogged, Bool.eq_false_of_not_eq_true hconflict⟩]
              at hstep
            rw [if_neg hconflict, ← hstep]
            exact .move (.loading r) hunstarted rfl hbusy
      | _ => simp only [hcaller, reduceCtorEq] at hstep
    | install d =>
      obtain rfl : d = c := Option.some_inj.mp hown
      simp only [step] at hstep
      cases hcaller : s.adapter.caller d with
      | loaded r videos =>
        have hunstarted : (s.adapter.caller d).pending = none := by rw [hcaller]; rfl
        have hbusy : s.adapter.caller d ≠ .idle := by simp [hcaller]
        simp only [hcaller, Option.some_inj] at hstep
        simp only [ending, hcaller]
        by_cases hconflict : s.adapter.conflict = true
        · rw [if_pos hconflict] at hstep ⊢
          rw [← hstep]
          exact .fail .taskConflict hunstarted fun _ _ _ => hbusy
        · rw [if_neg hconflict] at hstep ⊢
          by_cases hvideos : videos = []
          · rw [if_pos hvideos]
            exact .returned hbusy (call_goto ..)
          · rw [if_neg hvideos, ← hstep]
            refine .created ?_ hbusy rfl
            simp [AiState.finish, State.installTask, hvideos, Caller.pending]
      | _ => simp only [hcaller, reduceCtorEq] at hstep
    | startThread d ok =>
      obtain rfl : d = c := Option.some_inj.mp hown
      simp only [step] at hstep
      cases hcaller : s.adapter.caller d with
      | starting id =>
        have hbusy : s.adapter.caller d ≠ .idle := by simp [hcaller]
        simp only [hcaller, Option.some_inj] at hstep
        simp only [ending]
        by_cases hok : ok = true
        · rw [if_pos hok]
          exact .returned hbusy (call_goto ..)
        · rw [if_neg hok] at hstep ⊢
          rw [← hstep]
          refine .created ?_ hbusy rfl
          simp [AiState.finish, State.call, Caller.pending]
      | _ => simp only [hcaller, reduceCtorEq] at hstep
    | markStartError d =>
      obtain rfl : d = c := Option.some_inj.mp hown
      simp only [step] at hstep
      cases hcaller : s.adapter.caller d with
      | startFailed id =>
        refine .unstarted ?_ (call_goto ..)
        simp [hcaller, Caller.pending]
      | _ => simp only [hcaller, reduceCtorEq] at hstep
    | loadVideos d videos => simp [AiState.allows] at hallows
    | _ => simp [AiAction.thread, Action.thread] at hown
  | loadVideos d fetched =>
    obtain rfl : d = c := Option.some_inj.mp hown
    simp only [aiStep] at taken
    cases hcaller : s.adapter.caller d with
    | loading r =>
      have hunstarted : (s.adapter.caller d).pending = none := by rw [hcaller]; rfl
      have hbusy : s.adapter.caller d ≠ .idle := by simp [hcaller]
      cases hchosen : chooseVideos r fetched with
      | ok videos =>
        simp only [hcaller, hchosen, step, Option.map_some, Option.some_inj] at taken
        rw [← taken]
        exact .move (.loaded r videos) hunstarted rfl fun _ _ _ => hbusy
      | error failure =>
        simp only [hcaller, hchosen, step, Option.map_some, Option.some_inj] at taken
        rw [← taken]
        exact .fail failure hunstarted fun _ _ _ => hbusy
    | _ => simp only [hcaller, reduceCtorEq] at taken
  | switchOn d =>
    obtain rfl : d = c := Option.some_inj.mp hown
    exact absurd rfl hfirst
  | restore d =>
    obtain rfl : d = c := Option.some_inj.mp hown
    simp only [aiStep] at taken
    cases hcall : s.call d with
    | caught p failure =>
      simp only [hcall, Option.some_inj] at taken
      rw [← taken]
      exact .restore p failure hcall
    | _ => simp only [hcall, reduceCtorEq] at taken
  | updateConfig d => cases hown

/-- The call is over, or its task exists. -/
def Gone (c : C) (s : AiState C V) : Prop :=
  (s.call c).underWay = false ∨ (s.adapter.caller c).pending ≠ none ∧ ∃ q, s.call c = .starting q

theorem finish_of_over {call : AiCall V} (h : call.underWay = false)
    (outcome : Except StartFailure Unit) : call.finish outcome = call := by
  cases call with
  | starting previous => cases h
  | caught previous failure => cases h
  | _ => rfl

theorem other_frame {a : AiAction C V} (hown : a.thread ≠ some c) (taken : aiStep v s a = some t) :
    t.call c = s.call c ∧ t.adapter.caller c = s.adapter.caller c := by
  cases a with
  | adapter a =>
    simp only [aiStep] at taken
    split_ifs at taken
    obtain ⟨adapter, hstep, rfl⟩ := Option.map_eq_some_iff.mp taken
    rw [(finish_frame _ _).1]
    exact ⟨call_finish_of_ne (fun outcome ho => hown (ending_thread ho)) _, step_caller hown hstep⟩
  | loadVideos d fetched =>
    have hd : d ≠ c := fun hdc => hown (congrArg some hdc)
    simp only [aiStep] at taken
    split at taken
    · split at taken
      · obtain ⟨adapter, hstep, rfl⟩ := Option.map_eq_some_iff.mp taken
        exact ⟨rfl, step_caller (a := .loadVideos d (some _)) hown hstep⟩
      · obtain ⟨adapter, hstep, rfl⟩ := Option.map_eq_some_iff.mp taken
        exact ⟨call_goto_of_ne hd.symm _ _, step_caller (a := .loadVideos d none) hown hstep⟩
    · cases taken
  | updateConfig d =>
    obtain rfl := Option.some_inj.mp taken
    exact ⟨rfl, rfl⟩
  | switchOn d =>
    have hd : d ≠ c := fun hdc => hown (congrArg some hdc)
    obtain ⟨-, -, rfl⟩ := switchOn_taken taken
    exact ⟨call_goto_of_ne hd.symm _ _, rfl⟩
  | restore d =>
    have hd : d ≠ c := fun hdc => hown (congrArg some hdc)
    simp only [aiStep] at taken
    split at taken
    · obtain rfl := Option.some_inj.mp taken
      exact ⟨call_goto_of_ne hd.symm _ _, rfl⟩
    · cases taken

theorem Gone.own (h : Gone c s) (move : OwnStep c s t) :
    Gone c t ∧ ∀ failure, (s.call c).underWay = true → t.call c = .raised failure →
      failure = .threadStart := by
  rcases h with hover | ⟨hpending, q, hstarting⟩
  · have hnot : ∀ failure, (s.call c).underWay = true → t.call c = .raised failure →
        failure = .threadStart := by
      intro failure hunder
      rw [hover] at hunder
      cases hunder
    refine ⟨.inl ?_, hnot⟩
    cases move with
    | move x unstarted next busy => exact hover
    | fail failure unstarted busy => rw [call_goto, finish_of_over hover, hover]
    | created pending busy call => rw [call, hover]
    | returned busy call => rw [call, finish_of_over hover, hover]
    | unstarted pending call => rw [call, finish_of_over hover, hover]
    | restore p failure caught => rw [call_goto]; rfl
  · cases move with
    | move x unstarted next busy => exact absurd unstarted hpending
    | fail failure unstarted busy => exact absurd unstarted hpending
    | created pending busy call =>
      refine ⟨.inr ⟨pending, q, call.trans hstarting⟩, fun failure _ hraised => ?_⟩
      rw [call, hstarting] at hraised
      cases hraised
    | returned busy call =>
      rw [hstarting] at call
      refine ⟨.inl (by rw [call]; rfl), fun failure _ hraised => ?_⟩
      rw [call] at hraised
      cases hraised
    | unstarted pending call =>
      rw [hstarting] at call
      refine ⟨.inl (by rw [call]; rfl), fun failure _ hraised => ?_⟩
      rw [call] at hraised
      exact (AiCall.raised.inj hraised).symm
    | restore p failure caught =>
      rw [hstarting] at caught
      cases caught

theorem Gone.step (h : Gone c s) {a : AiAction C V} (hfirst : a ≠ .switchOn c)
    (taken : aiStep v s a = some t) : Gone c t := by
  by_cases hown : a.thread = some c
  · exact (h.own (thread_step hown hfirst taken)).1
  · obtain ⟨hcall, hcaller⟩ := other_frame hown taken
    rw [Gone, hcall, hcaller]
    exact h

theorem Gone.run {actions : List (AiAction C V)} (h : Gone c s) (once : .switchOn c ∉ actions)
    (run : (aiMachine C v).exec s actions = some t) : Gone c t := by
  induction actions generalizing s with
  | nil =>
    obtain rfl : s = t := by simpa [Machine.exec] using run
    exact h
  | cons a actions ih =>
    rw [Machine.exec_cons] at run
    obtain ⟨u, taken, rest⟩ := Option.bind_eq_some_iff.mp run
    rw [List.mem_cons, not_or] at once
    exact ih (h.step (Ne.symm once.1) taken) once.2 rest

/-- A step of the thread of the call: it goes on, its task exists, or it raises. -/
theorem Beside.own_step (h : Beside v c p w s alone) (move : OwnStep c s t) :
    Beside v c p w t alone ∨ Gone c t ∧ ∀ failure, t.call c = .raised failure →
      failure = .threadStart ∨ t.adapter = alone.adapter ∧
        t.settings = if failure.caught = true then s.settings.restore p else s.settings := by
  have hcalls : ∀ call : AiCall V, ∀ x, x ≠ c → (s.goto c call).call x = s.call x :=
    fun call x hx => call_goto_of_ne hx s call
  have hsame : ∀ x, s.adapter.call c x = alone.adapter.call c x := by
    intro x
    rw [h.adapter, call_call]
  have hback : s.adapter.call c .idle = alone.adapter := by
    rw [hsame, ← h.idle, call_self]
  have hbusy : (∀ q failure, s.call c = .caught q failure → s.adapter.caller c ≠ .idle) →
      s.call c = .starting p := by
    intro busy
    rcases h.own with hstarting | ⟨failure, hcaught, -, hidle⟩
    · exact hstarting
    · exact absurd hidle (busy p failure hcaught)
  cases move with
  | move x unstarted next busy =>
    left
    refine ⟨?_, h.idle, ?_, .inl (hbusy busy), h.settings, h.calls⟩
    · simp only [State.call, Function.update_self]
      exact hsame x
    · simp only [State.call, Function.update_self]
      exact next
  | fail failure unstarted busy =>
    have hstarting := hbusy busy
    rw [hstarting, AiCall.finish]
    by_cases hcaught : failure.caught = true
    · left
      rw [if_pos hcaught]
      have hidle : (s.adapter.call c .idle).caller c = .idle := Function.update_self ..
      refine ⟨?_, h.idle, ?_, .inr ⟨failure, call_goto .., hcaught, hidle⟩, h.settings,
        fun d hd => ?_⟩
      · change s.adapter.call c .idle = alone.adapter.call c ((s.adapter.call c .idle).caller c)
        rw [hidle, hsame]
      · change ((s.adapter.call c .idle).caller c).pending = none
        rw [hidle]
        rfl
      · rw [call_goto_of_ne hd]
        exact h.calls d hd
    · right
      rw [if_neg hcaught]
      refine ⟨.inl (by rw [call_goto]; rfl), fun failure' hraised => .inr ⟨hback, ?_⟩⟩
      rw [call_goto] at hraised
      obtain rfl := AiCall.raised.inj hraised
      rw [if_neg hcaught]
      rfl
  | created pending busy call =>
    right
    have hstarting := hbusy fun _ _ _ => busy
    refine ⟨.inr ⟨pending, p, call.trans hstarting⟩, fun failure hraised => ?_⟩
    rw [call, hstarting] at hraised
    cases hraised
  | returned busy call =>
    right
    rw [hbusy fun _ _ _ => busy] at call
    refine ⟨.inl (by rw [call]; rfl), fun failure hraised => ?_⟩
    rw [call] at hraised
    cases hraised
  | unstarted pending call => exact absurd h.unstarted pending
  | restore q failure caught =>
    right
    refine ⟨.inl (by rw [call_goto]; rfl), fun failure' hraised => .inr ?_⟩
    rw [call_goto] at hraised
    obtain rfl := AiCall.raised.inj hraised
    rcases h.own with hstarting | ⟨failure', hcaught, hrestored, hidle⟩
    · rw [hstarting] at caught
      cases caught
    · rw [caught] at hcaught
      obtain ⟨rfl, rfl⟩ := AiCall.caught.inj hcaught
      rw [if_pos hrestored]
      refine ⟨?_, rfl⟩
      rw [← hback, ← hidle, call_self]
      rfl

theorem Beside.run {actions : List (AiAction C V)} (h : Beside v c p w s alone)
    (once : .switchOn c ∉ actions) (run : (aiMachine C v).exec s actions = some t) :
    (∃ next, (aiMachine C v).exec alone (others c actions) = some next ∧
      Beside v c p ((others c actions).foldl Written.after w) t next) ∨ Gone c t := by
  induction actions generalizing s alone w with
  | nil =>
    obtain rfl : s = t := by simpa [Machine.exec] using run
    exact .inl ⟨alone, rfl, h⟩
  | cons a actions ih =>
    rw [Machine.exec_cons] at run
    obtain ⟨u, taken, rest⟩ := Option.bind_eq_some_iff.mp run
    rw [List.mem_cons, not_or] at once
    by_cases hown : a.thread = some c
    · have hothers : others c (a :: actions) = others c actions := by
        simp [others, hown]
      rw [hothers]
      rcases h.own_step (thread_step hown (Ne.symm once.1) taken) with hbeside | ⟨hgone, -⟩
      · exact ih hbeside once.2 rest
      · exact .inr (hgone.run once.2 rest)
    · obtain ⟨next, hnext, hbeside⟩ := h.other hown taken
      have hothers : others c (a :: actions) = a :: others c actions := by
        simp [others, hown]
      rw [hothers]
      rcases ih hbeside once.2 rest with ⟨last, hlast, hlastBeside⟩ | hgone
      · refine .inl ⟨last, ?_, hlastBeside⟩
        have hstep : (aiMachine C v).step alone a = some next := hnext
        rw [Machine.exec_cons, hstep]
        exact hlast
      · exact .inr hgone

theorem copies_agree (h : (aiMachine C v).Reachable Machine.free s) :
    s.settings.configCopy = s.settings.aiConfig := by
  apply h.invariant (I := fun s => s.settings.configCopy = s.settings.aiConfig)
  · intro s hstart
    exact hstart.2.2.1
  · intro s a t hsame _ taken
    have htaken : aiStep v s a = some t := taken
    cases a with
    | adapter a =>
      simp only [aiStep] at htaken
      split_ifs at htaken
      obtain ⟨adapter, -, rfl⟩ := Option.map_eq_some_iff.mp htaken
      rw [(finish_frame _ _).2]
      cases a <;> exact hsame
    | loadVideos d fetched =>
      simp only [aiStep] at htaken
      split at htaken
      · split at htaken
        all_goals
          obtain ⟨adapter, -, rfl⟩ := Option.map_eq_some_iff.mp htaken
          exact hsame
      · cases htaken
    | updateConfig d =>
      obtain rfl := Option.some_inj.mp htaken
      exact rfl
    | switchOn d =>
      obtain ⟨-, -, rfl⟩ := switchOn_taken htaken
      exact rfl
    | restore d =>
      simp only [aiStep] at htaken
      split at htaken
      · obtain rfl := Option.some_inj.mp htaken
        exact rfl
      · cases htaken

/-- After its first critical section the call has written its own switches only. -/
theorem Beside.begin (reachable : (aiMachine C v).Reachable Machine.free s)
    (taken : aiStep v s (.switchOn c) = some t) :
    Beside v c (s.settings.previous v) (.begin s.settings) t s := by
  have hcopy := copies_agree reachable
  obtain ⟨hidle, -, rfl⟩ := switchOn_taken taken
  refine ⟨(call_self s.adapter c).symm, hidle, ?_, .inl (call_goto ..), ?_, fun d hd => ?_⟩
  · change (s.adapter.caller c).pending = none
    rw [hidle]
    rfl
  · refine ⟨fun key hkey => setEnabled_of_ne hkey _ _, ⟨rfl, hcopy⟩, ⟨?_, rfl⟩,
      setEnabled_enabled (v.ofBool true) s.settings.aiConfig, ?_⟩
    · exact Option.isSome_map
    · change Holds s.settings.aiEnabled.isSome _ (s.settings.aiEnabled.map fun _ => v.ofBool true) _
      cases s.settings.aiEnabled with
      | none => exact rfl
      | some value => exact rfl
  · rw [call_goto_of_ne hd]
    exact .self _

theorem Alike.restored_iff {s alone : AiSettings V} (h : Alike v w s alone) :
    s.restore p = alone ↔ alone.aiConfig "enabled" = some p.enabled ∧
      ∀ value, alone.aiEnabled = some value → value = p.answerEnabled := by
  constructor
  · rintro rfl
    refine ⟨setEnabled_enabled p.enabled s.aiConfig, fun value hvalue => ?_⟩
    obtain ⟨_, -, rfl⟩ := Option.map_eq_some_iff.mp hvalue
    rfl
  · rintro ⟨henabled, hanswer⟩
    have hconfig : AiSettings.setEnabled p.enabled s.aiConfig = alone.aiConfig := by
      funext key
      by_cases hkey : key = "enabled"
      · rw [hkey, setEnabled_enabled, henabled]
      · rw [setEnabled_of_ne hkey]
        exact h.others key hkey
    have haiEnabled : (s.aiEnabled.map fun _ => p.answerEnabled) = alone.aiEnabled := by
      have hpresent := h.answers.1.trans h.answers.2.symm
      cases halone : alone.aiEnabled with
      | none =>
        rw [halone, Option.isSome_none, Option.isSome_eq_false_iff, Option.isNone_iff_eq_none]
          at hpresent
        rw [hpresent]
        rfl
      | some value =>
        rw [halone, Option.isSome_some, Option.isSome_iff_exists] at hpresent
        obtain ⟨old, hold⟩ := hpresent
        rw [hold, hanswer value halone]
        rfl
    simp only [AiSettings.restore, hconfig, haiEnabled]
    obtain ⟨aiConfig, configCopy, aiEnabled⟩ := alone
    obtain rfl : configCopy = aiConfig := h.copies.2
    rfl

end Threads

/-- A call of `start_ai_course_task` by `c`, begun in `s`, raises without a task and leaves `t`;
`actions` is what happens in between. -/
structure FailedCall (v : Values V) (c : C) (failure : StartFailure) (s : AiState C V)
    (actions : List (AiAction C V)) (t : AiState C V) : Prop where
  reachable : (aiMachine C v).Reachable Machine.free s
  once : .switchOn c ∉ actions
  raises : ∃ u last, (aiMachine C v).exec s (.switchOn c :: actions) = some u ∧
    (u.call c).underWay = true ∧ aiStep v u last = some t ∧ t.call c = .raised failure
  noTask : failure ≠ .threadStart

/-- AI answering is switched on. -/
def AiSettings.On (v : Values V) (s : AiSettings V) : Prop :=
  s.aiConfig "enabled" = some (v.ofBool true) ∧
    ∀ value, s.aiEnabled = some value → value = v.ofBool true

/-- The settings after the call are the ones without it, and the call switches nothing off that
another call switched on. -/
def AsIfNotMade (v : Values V) (settings alone : AiSettings V) : Prop :=
  settings = alone ∧ (alone.On v → settings.On v)

/-- When the settings end up as without the call. A caught exception sets the switches to what
they were when the call began, with `None` for a missing one, so what the other threads do must
leave them so. After another exception each switch that still holds what the call wrote must be
on anyway. -/
def Harmless (v : Values V) (failure : StartFailure) (before : AiSettings V)
    (actions : List (AiAction C V)) (alone : AiSettings V) : Prop :=
  if failure.caught = true then
    alone.aiConfig "enabled" = some (before.previous v).enabled ∧
      ∀ value, alone.aiEnabled = some value → value = (before.previous v).answerEnabled
  else
    let written : Written C := actions.foldl Written.after (.begin before)
    (written.enabled = true → alone.aiConfig "enabled" = some (v.ofBool true)) ∧
      (written.aiEnabled = true → alone.aiEnabled = some (v.ofBool true))

theorem asIfNotMade_iff {v : Values V} {settings alone : AiSettings V} :
    AsIfNotMade v settings alone ↔ settings = alone := by
  constructor
  · exact And.left
  · rintro rfl
    exact ⟨rfl, id⟩

theorem failed_start_leaves_settings (v : Values V) (c : C) (failure : StartFailure)
    (s t : AiState C V) (actions : List (AiAction C V)) (call : FailedCall v c failure s actions t) :
    ∃ alone, (aiMachine C v).exec s (others c actions) = some alone ∧ t.adapter = alone.adapter ∧
      (AsIfNotMade v t.settings alone.settings ↔
        Harmless v failure s.settings (others c actions) alone.settings) := by
  obtain ⟨u, last, run, underWay, taken, raised⟩ := call.raises
  rw [Machine.exec_cons] at run
  obtain ⟨m, begun, rest⟩ := Option.bind_eq_some_iff.mp run
  have hown : last.thread = some c := by
    by_contra hother
    rw [← (other_frame hother taken).1, raised] at underWay
    cases underWay
  have hfirst : last ≠ .switchOn c := by
    rintro rfl
    rw [(switchOn_taken taken).2.1] at underWay
    cases underWay
  have hstep := thread_step hown hfirst taken
  rcases (Beside.begin call.reachable begun).run call.once rest with ⟨alone, hrun, hbeside⟩ | hgone
  · rcases hbeside.own_step hstep with hgoes | ⟨-, hraised⟩
    · rcases hgoes.own with hstarting | ⟨failure', hcaught, -⟩
      · rw [raised] at hstarting
        cases hstarting
      · rw [raised] at hcaught
        cases hcaught
    · rcases hraised failure raised with htask | ⟨hadapter, hsettings⟩
      · exact absurd htask call.noTask
      · refine ⟨alone, hrun, hadapter, ?_⟩
        rw [asIfNotMade_iff, hsettings, Harmless]
        by_cases hcaught : failure.caught = true
        · rw [if_pos hcaught, if_pos hcaught]
          exact hbeside.settings.restored_iff
        · rw [if_neg hcaught, if_neg hcaught]
          exact hbeside.settings.eq_iff
  · exact absurd ((hgone.own hstep).2 failure underWay raised) call.noTask

/-- `None`, `False` and `True`. -/
def flagValues : Values (Option Bool) := ⟨none, some, fun value => value.getD false, fun _ => rfl⟩

def disabledConfig : AiConfig (Option Bool) :=
  fun key => if key = "enabled" then some (some false) else none

/-- A new adapter with the default `ai_config`. -/
def newAiAdapter : AiState Bool (Option Bool) where
  adapter := ⟨false, none, fun _ => none, 0, fun _ => .absent, fun _ => .idle, fun _ => 0⟩
  settings := ⟨disabledConfig, disabledConfig, none⟩
  call := fun _ => .idle

theorem newAiAdapter_start : (aiMachine Bool flagValues).start newAiAdapter :=
  ⟨⟨rfl, fun _ => rfl, fun _ => rfl, fun _ => rfl, fun _ => rfl⟩, rfl, rfl, rfl, fun _ => rfl⟩

def startRequest (endChapterId : Option String) : StartRequest := ⟨"c1", 1, true, endChapterId⟩

def newVideo : ListedVideo := ⟨"ch1", ⟨"v1", "Video 1", 60, 0, 0, 0, []⟩⟩

/-- While the first call is loading its videos, the second one starts a task, with which the first
one conflicts. -/
def overtaken : List (AiAction Bool (Option Bool)) :=
  [.adapter (.startCheck false (startRequest none)), .loadVideos false (.videos [newVideo]),
    .switchOn true, .adapter (.startCheck true (startRequest none)),
    .loadVideos true (.videos [newVideo]), .adapter (.install true),
    .adapter (.startThread true true), .adapter (.install false)]

def loggedInAdapter : AiState Bool (Option Bool) where
  adapter := { newAiAdapter.adapter with loggedIn := true }
  settings := newAiAdapter.settings.initServices flagValues
  call := newAiAdapter.call

theorem loggedInAdapter_reachable :
    (aiMachine Bool flagValues).Reachable Machine.free loggedInAdapter :=
  Machine.reachable_of_exec [.adapter .login] newAiAdapter_start rfl

theorem unknown_chapter_leaves_settings : ∃ t alone,
    FailedCall flagValues false .chapterNotFound loggedInAdapter
      [.adapter (.startCheck false (startRequest (some "ch9"))), .loadVideos false (.videos [])] t ∧
    (aiMachine Bool flagValues).exec loggedInAdapter
      (others false [.adapter (.startCheck false (startRequest (some "ch9"))),
        .loadVideos false (.videos [])]) = some alone ∧
    AsIfNotMade flagValues t.settings alone.settings := by
  have hcall : ∃ t, FailedCall flagValues false .chapterNotFound loggedInAdapter
      [.adapter (.startCheck false (startRequest (some "ch9"))), .loadVideos false (.videos [])] t :=
    ⟨_, loggedInAdapter_reachable, by simp, ⟨_, .restore false, rfl, rfl, rfl, rfl⟩, by decide⟩
  obtain ⟨t, hcall⟩ := hcall
  obtain ⟨alone, hrun, -, hiff⟩ := failed_start_leaves_settings _ _ _ _ _ _ hcall
  refine ⟨t, alone, hcall, hrun, hiff.mpr ?_⟩
  cases hrun
  refine ⟨rfl, fun value hvalue => ?_⟩
  cases hvalue
  rfl

theorem failed_start_changes_settings :
    (∃ t, FailedCall flagValues false .notLoggedIn newAiAdapter [] t ∧
      ∀ alone, (aiMachine Bool flagValues).exec newAiAdapter (others false []) = some alone →
        ¬ AsIfNotMade flagValues t.settings alone.settings) ∧
    ∃ t, FailedCall flagValues false .taskConflict loggedInAdapter overtaken t ∧
      t.adapter.conflict = true ∧
      ∀ alone, (aiMachine Bool flagValues).exec loggedInAdapter (others false overtaken) = some alone →
        alone.settings.On flagValues ∧ ¬ t.settings.On flagValues := by
  constructor
  · refine ⟨_, ⟨.start newAiAdapter_start, by simp, ⟨_, .adapter (.startCheck false (startRequest none)),
      rfl, rfl, rfl, rfl⟩, by decide⟩, ?_⟩
    intro alone halone hsame
    cases halone
    have h := congrFun (congrArg AiSettings.aiConfig hsame.1) "enabled"
    revert h
    decide
  · refine ⟨_, ⟨loggedInAdapter_reachable, by simp [overtaken],
      ⟨_, .restore false, rfl, rfl, rfl, rfl⟩, by decide⟩, by decide, ?_⟩
    intro alone halone
    cases halone
    refine ⟨⟨rfl, ?_⟩, fun hon => ?_⟩
    · intro value hvalue
      cases hvalue
      rfl
    · have h := hon.1
      revert h
      decide

end UniversityHelper.Zhihuishu
