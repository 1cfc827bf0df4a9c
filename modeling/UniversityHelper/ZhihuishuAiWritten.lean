import UniversityHelper.ZhihuishuAi
import UniversityHelper.ZhihuishuWorker

set_option linter.unusedSectionVars false

/-! The adapter does the same for the other threads whatever one thread's call is at, and the
settings differ at most in the switches that still hold what that call wrote. -/
namespace UniversityHelper.Zhihuishu
variable {C V : Type*} [DecidableEq C]

section Adapter

theorem modifyCurrent_call (s : State C) (c : C) (x : Caller) (f : Task → Task) :
    (s.call c x).modifyCurrent f = (s.modifyCurrent f).call c x := by
  obtain ⟨loggedIn, current, tasks, nextId, worker, caller, sent⟩ := s
  cases current <;> rfl

theorem unlessCancelled_call (s : State C) (c : C) (x : Caller) (id : TaskId) (next : State C) :
    (s.call c x).unlessCancelled id (next.call c x) = (s.unlessCancelled id next).call c x := by
  have htasks : (s.call c x).tasks = s.tasks := rfl
  have hcurrent : (s.call c x).current = s.current := rfl
  rw [State.unlessCancelled, State.unlessCancelled, htasks, hcurrent]
  cases s.tasks id with
  | none => rfl
  | some task =>
    dsimp only
    split_ifs <;> rfl

theorem decideVideo_call (s : State C) (c : C) (x : Caller) (id : TaskId) (index : ℕ) :
    (s.call c x).decideVideo id index = (s.decideVideo id index).call c x := by
  have htasks : (s.call c x).tasks = s.tasks := rfl
  have hcurrent : (s.call c x).current = s.current := rfl
  rw [State.decideVideo, State.decideVideo, htasks, hcurrent]
  cases s.tasks id with
  | none => rfl
  | some task =>
    dsimp only
    split_ifs
    · rfl
    · rfl
    all_goals cases task.videos[index]? <;> rfl

theorem step_call {s : State C} {a : Action C} {c : C} (hown : a.thread ≠ some c) (x : Caller) :
    step (s.call c x) a = (step s a).map fun t => t.call c x := by
  have hworker : (s.call c x).worker = s.worker := rfl
  have hcaller : ∀ d, d ≠ c → (s.call c x).caller d = s.caller d :=
    fun d hd => Function.update_of_ne hd _ _
  have hcomm : ∀ d, d ≠ c → ∀ y, (s.call c x).call d y = (s.call d y).call c x := by
    intro d hd y
    simp only [State.call, Function.update_comm hd]
  cases a with
  | logout =>
    simp only [step, modifyCurrent_call, Option.map_some]
    rfl
  | pauseTask | resumeTask | cancelTask => simp only [step, modifyCurrent_call, Option.map_some]
  | startCheck d r =>
    have hd : d ≠ c := fun h => hown (congrArg some h)
    simp only [step, hcaller d hd]
    cases s.caller d with
    | idle =>
      change some (if s.loggedIn = true ∧ s.conflict = false then _ else _) = some _
      split_ifs
      · rw [hcomm d hd]
      · rfl
    | _ => rfl
  | loadVideos d videos =>
    have hd : d ≠ c := fun h => hown (congrArg some h)
    simp only [step, hcaller d hd]
    cases s.caller d <;> cases videos <;> simp [hcomm d hd]
  | install d =>
    have hd : d ≠ c := fun h => hown (congrArg some h)
    simp only [step, hcaller d hd]
    cases s.caller d with
    | loaded r videos =>
      change some (if s.conflict = true then _ else _) = some _
      split_ifs
      · rw [hcomm d hd]
      · simp only [State.installTask, State.call, Function.update_comm hd]
    | _ => rfl
  | startThread d ok =>
    have hd : d ≠ c := fun h => hown (congrArg some h)
    simp only [step, hcaller d hd]
    cases s.caller d with
    | starting id =>
      simp only [Option.map_some]
      split_ifs
      · rw [hcomm d hd]
        rfl
      · rw [hcomm d hd]
    | _ => rfl
  | markStartError d =>
    have hd : d ≠ c := fun h => hown (congrArg some h)
    simp only [step, hcaller d hd]
    cases s.caller d with
    | startFailed id =>
      simp only [Option.map_some, hcomm d hd]
      rfl
    | _ => rfl
  | decide id =>
    simp only [step, hworker]
    cases s.worker id with
    | deciding index => exact congrArg some (decideVideo_call s c x id index)
    | _ => rfl
  | check id =>
    simp only [step, hworker]
    cases s.worker id with
    | checking index ok error =>
      exact congrArg some (unlessCancelled_call s c x id (s.goto id (.recording index ok error)))
    | _ => rfl
  | record id =>
    simp only [step, hworker]
    cases s.worker id with
    | recording index ok error =>
      exact congrArg some (unlessCancelled_call s c x id
        ((s.modifyTask id (recordVideo index ok error)).goto id (.deciding (index + 1))))
    | _ => rfl
  | advance id =>
    simp only [step, hworker]
    cases s.worker id with
    | watching index program =>
      cases hnext : advanceWatch index program with
      | none => simp only [hnext, Option.map_none]
      | some next => simp only [hnext, Option.map_some]; rfl
    | _ => rfl
  | pollCancelled id =>
    simp only [step, hworker]
    cases s.worker id with
    | waiting index gate pass =>
      have hcancelled : (s.call c x).isTaskCancelled id = s.isTaskCancelled id := rfl
      cases hnext : afterPoll index pass (s.isTaskCancelled id) gate with
      | none => simp only [hcancelled, hnext, Option.map_none]
      | some next => simp only [hcancelled, hnext, Option.map_some]; rfl
    | _ => rfl
  | receive id answer =>
    simp only [step, hworker]
    cases s.worker id with
    | inFlight index r next =>
      cases answer with
      | error message => rfl
      | ok answer =>
        obtain ⟨r', answer⟩ := answer
        dsimp only
        split_ifs <;> rfl
    | _ => cases answer <;> rfl
  | pollPaused id =>
    simp only [step, hworker]
    cases s.worker id with
    | waiting index gate pass => cases gate <;> rfl
    | _ => rfl
  | send id =>
    simp only [step, hworker]
    cases s.worker id with
    | watching index program => cases program <;> rfl
    | _ => rfl
  | crash id message =>
    simp only [step, hworker]
    split_ifs <;> rfl
  | enter id | markCrash id =>
    simp only [step, hworker]
    cases s.worker id <;> rfl
  | login | cancelTaskById id => rfl

theorem ending_call {s : State C} {a : Action C} {c : C} (hown : a.thread ≠ some c) (x : Caller) :
    ending (s.call c x) a = ending s a := by
  cases a with
  | install d =>
    have hcaller : (s.call c x).caller d = s.caller d :=
      Function.update_of_ne (fun h => hown (congrArg some h)) _ _
    simp only [ending, hcaller]
    rfl
  | _ => rfl

theorem call_self (s : State C) (c : C) : s.call c (s.caller c) = s := by
  simp only [State.call, Function.update_eq_self]

theorem call_call (s : State C) (c : C) (x y : Caller) : (s.call c x).call c y = s.call c y := by
  simp only [State.call, Function.update_idem]

theorem step_caller {s t : State C} {a : Action C} {c : C} (hown : a.thread ≠ some c)
    (taken : step s a = some t) : t.caller c = s.caller c := by
  have hself := step_call (s := s) hown (s.caller c)
  rw [call_self, taken, Option.map_some, Option.some_inj] at hself
  rw [hself]
  exact Function.update_self ..

theorem ending_thread {s : State C} {a : Action C} {d : C} {outcome : Except StartFailure Unit}
    (h : ending s a = some (d, outcome)) : a.thread = some d := by
  cases a <;> simp only [ending] at h <;> (try split at h) <;> (try split_ifs at h) <;>
    simp_all [Action.thread]

end Adapter

/-- Which switches still hold what the call of one thread wrote, and which of the other calls
have saved it; `hasAnswer` says that there is an `answer`. -/
structure Written (C : Type*) where
  enabled : Bool
  aiEnabled : Bool
  hasAnswer : Bool
  previous : C → Bool × Bool

/-- After the first critical section of the call. -/
def Written.begin (s : AiSettings V) : Written C where
  enabled := true
  aiEnabled := s.aiEnabled.isSome
  hasAnswer := s.aiEnabled.isSome
  previous := fun _ => (false, false)

def UpdateData.writesEnabled (d : UpdateData V) : Bool :=
  (d.aiPayload.bind fun given => given "enabled").isSome

/-- After an action of another thread. -/
def Written.after (w : Written C) : AiAction C V → Written C
  | .adapter .login => { w with hasAnswer := true, aiEnabled := w.enabled }
  | .adapter .logout => { w with hasAnswer := false, aiEnabled := false }
  | .updateConfig d =>
    { w with
      enabled := w.enabled && !d.writesEnabled
      aiEnabled := w.hasAnswer && (w.enabled && !d.writesEnabled) }
  | .switchOn d =>
    { w with
      enabled := false
      aiEnabled := false
      previous := Function.update w.previous d (w.enabled, w.aiEnabled) }
  | .restore d =>
    { w with
      enabled := (w.previous d).1
      aiEnabled := w.hasAnswer && (w.previous d).2 }
  | _ => w

section Settings
variable {v : Values V}

/-- A value with the call and the one without it: the call's own, or the same. -/
def Holds {α : Type*} (written : Bool) (on a b : α) : Prop := if written = true then a = on else a = b

theorem Holds.map {α β : Type*} {written : Bool} {on a b : α} (f : α → β)
    (h : Holds written on a b) :
    Holds written (f on) (f a) (f b) := by
  cases written with
  | true => exact congrArg f h
  | false => exact congrArg f h

theorem Holds.eq_iff {α : Type*} {written : Bool} {on a b : α} (h : Holds written on a b) :
    a = b ↔ (written = true → b = on) := by
  cases written with
  | true =>
    obtain rfl : a = on := h
    exact ⟨fun hab _ => hab.symm, fun hb => (hb rfl).symm⟩
  | false => exact ⟨fun _ hwritten => absurd hwritten Bool.false_ne_true, fun _ => h⟩

structure SamePrevious (v : Values V) (w : Bool × Bool) (p q : Previous V) : Prop where
  enabled : Holds w.1 (v.ofBool true) p.enabled q.enabled
  answerEnabled : Holds w.2 (v.ofBool true) p.answerEnabled q.answerEnabled

/-- The settings with the call and without it. -/
structure Alike (v : Values V) (w : Written C) (s alone : AiSettings V) : Prop where
  others : ∀ key, key ≠ "enabled" → s.aiConfig key = alone.aiConfig key
  copies : s.configCopy = s.aiConfig ∧ alone.configCopy = alone.aiConfig
  answers : s.aiEnabled.isSome = w.hasAnswer ∧ alone.aiEnabled.isSome = w.hasAnswer
  enabled : Holds w.enabled (some (v.ofBool true)) (s.aiConfig "enabled") (alone.aiConfig "enabled")
  aiEnabled : Holds w.aiEnabled (some (v.ofBool true)) s.aiEnabled alone.aiEnabled

variable {w : Written C} {s alone : AiSettings V}

theorem Alike.previous (h : Alike v w s alone) :
    SamePrevious v (w.enabled, w.aiEnabled) (s.previous v) (alone.previous v) :=
  ⟨h.enabled.map fun value => value.getD v.none, h.aiEnabled.map fun value => value.getD v.none⟩

theorem Alike.eq_iff (h : Alike v w s alone) :
    s = alone ↔ (w.enabled = true → alone.aiConfig "enabled" = some (v.ofBool true)) ∧
      (w.aiEnabled = true → alone.aiEnabled = some (v.ofBool true)) := by
  rw [← h.enabled.eq_iff, ← h.aiEnabled.eq_iff]
  constructor
  · rintro rfl
    exact ⟨rfl, rfl⟩
  · rintro ⟨henabled, haiEnabled⟩
    have hconfig : s.aiConfig = alone.aiConfig := by
      funext key
      by_cases hkey : key = "enabled"
      · rw [hkey, henabled]
      · exact h.others key hkey
    obtain ⟨hcopy, hcopyAlone⟩ := h.copies
    cases s
    cases alone
    simp_all

theorem setEnabled_enabled (value : V) (config : AiConfig V) :
    AiSettings.setEnabled value config "enabled" = some value := Function.update_self ..

theorem setEnabled_of_ne {key : String} (hkey : key ≠ "enabled") (value : V) (config : AiConfig V) :
    AiSettings.setEnabled value config key = config key := Function.update_of_ne hkey ..

theorem holds_map_answer {written : Bool} {on a b : V} {x y : Option V} {hasAnswer : Bool}
    (hx : x.isSome = hasAnswer) (hy : y.isSome = hasAnswer) (h : Holds written on a b) :
    Holds (hasAnswer && written) (some on) (x.map fun _ => a) (y.map fun _ => b) := by
  cases hasAnswer with
  | false =>
    have hnone := Option.not_isSome_iff_eq_none.mp (Bool.eq_false_iff.mp hx)
    have hnone' := Option.not_isSome_iff_eq_none.mp (Bool.eq_false_iff.mp hy)
    rw [hnone, hnone']
    exact rfl
  | true =>
    obtain ⟨old, rfl⟩ := Option.isSome_iff_exists.mp hx
    obtain ⟨old', rfl⟩ := Option.isSome_iff_exists.mp hy
    exact h.map some

/-- The handlers of the two calls of one other thread. -/
theorem Alike.restore (h : Alike v w s alone) {given : Bool × Bool} {p q : Previous V}
    (same : SamePrevious v given p q) :
    Alike v { w with enabled := given.1, aiEnabled := w.hasAnswer && given.2 } (s.restore p)
      (alone.restore q) where
  others key hkey := by
    simp only [AiSettings.restore, setEnabled_of_ne hkey]
    exact h.others key hkey
  copies := ⟨rfl, rfl⟩
  answers := by
    simp only [AiSettings.restore, Option.isSome_map]
    exact h.answers
  enabled := by
    simp only [AiSettings.restore, setEnabled_enabled]
    exact same.enabled.map some
  aiEnabled := holds_map_answer h.answers.1 h.answers.2 same.answerEnabled

theorem Alike.switchOn (h : Alike v w s alone) (previous : C → Bool × Bool) :
    Alike v { w with enabled := false, aiEnabled := false, previous := previous } (s.switchOn v)
      (alone.switchOn v) := by
  have hsame : SamePrevious v (false, false) ⟨v.ofBool true, v.ofBool true⟩
      (⟨v.ofBool true, v.ofBool true⟩ : Previous V) := ⟨rfl, rfl⟩
  have hrestore := h.restore hsame
  refine ⟨hrestore.others, hrestore.copies, hrestore.answers, hrestore.enabled, ?_⟩
  have haiEnabled := hrestore.aiEnabled
  rw [Bool.and_false] at haiEnabled
  exact haiEnabled

theorem Alike.initServices (h : Alike v w s alone) :
    Alike v { w with hasAnswer := true, aiEnabled := w.enabled } (s.initServices v)
      (alone.initServices v) :=
  ⟨h.others, h.copies, ⟨rfl, rfl⟩, h.enabled,
    h.enabled.map fun value => some (value.getD (v.ofBool false))⟩

theorem Alike.logout (h : Alike v w s alone) :
    Alike v { w with hasAnswer := false, aiEnabled := false } { s with aiEnabled := none }
      { alone with aiEnabled := none } := ⟨h.others, h.copies, ⟨rfl, rfl⟩, h.enabled, rfl⟩

theorem enabled_updateConfig (d : UpdateData V) (s : AiSettings V) :
    (s.updateConfig v d).aiConfig "enabled" =
      (d.aiPayload.bind fun given => given "enabled").or (s.aiConfig "enabled") := by
  unfold AiSettings.updateConfig
  cases d.aiPayload <;> rfl

theorem Alike.updateConfig (h : Alike v w s alone) (d : UpdateData V) :
    Alike v
      { w with
        enabled := w.enabled && !d.writesEnabled
        aiEnabled := w.hasAnswer && (w.enabled && !d.writesEnabled) }
      (s.updateConfig v d) (alone.updateConfig v d) := by
  have henabled : Holds (w.enabled && !d.writesEnabled) (some (v.ofBool true))
      ((s.updateConfig v d).aiConfig "enabled") ((alone.updateConfig v d).aiConfig "enabled") := by
    rw [enabled_updateConfig, enabled_updateConfig, UpdateData.writesEnabled]
    cases d.aiPayload.bind fun given => given "enabled" with
    | none =>
      rw [Option.isSome_none, Bool.not_false, Bool.and_true]
      exact h.enabled
    | some value =>
      rw [Option.isSome_some, Bool.not_true, Bool.and_false]
      exact rfl
  have hanswer := henabled.map fun value => v.ofBool (v.truth (value.getD (v.ofBool false)))
  rw [Option.getD_some, v.truth_ofBool] at hanswer
  refine ⟨fun key hkey => ?_, ⟨rfl, rfl⟩, ?_, henabled,
    holds_map_answer h.answers.1 h.answers.2 hanswer⟩
  · unfold AiSettings.updateConfig
    cases d.aiPayload with
    | none => exact h.others key hkey
    | some given => exact congrArg (Option.or (given key)) (h.others key hkey)
  · simp only [AiSettings.updateConfig, Option.isSome_map]
    exact h.answers

theorem Alike.settingsAfter (h : Alike v w s alone) (a : Action C) :
    Alike v (w.after (V := V) (.adapter a)) (settingsAfter v s a) (settingsAfter v alone a) := by
  cases a with
  | login => exact h.initServices
  | logout => exact h.logout
  | _ => exact h

end Settings

end UniversityHelper.Zhihuishu
