import UniversityHelper.QuizProcessor

/-! Every question of a quiz is answered, counted and filled into the form, unless its provider
raises in the sequential mode. -/
namespace UniversityHelper.Quiz
open AnswerBank

section Concurrent
variable {u : Unicode} {tiku : Tiku} {workers : ℕ} {items : List Item}
variable {s t : State items.length}

/-- What holds of a question at a stage of its call. -/
def Sound (u : Unicode) (tiku : Tiku) (item : Item) (q : Question) : Stage → Prop
  | .queued | .running => q = item.question
  | .decided answer | .counted answer => ∃ res, item.reply = .answers res ∧
      q = item.question.mark (item.handled u tiku res).1 ∧ answer = (item.handled u tiku res).2
  | .failed => q = item.question ∧ item.reply = .raises
  | .finished | .collected => q = item.settled u tiku

/-- What a question adds to the counter. -/
def tally (q : Question) : Stage → ℕ
  | .counted _ | .finished | .collected => if isCover q = true then 1 else 0
  | .queued | .running | .decided _ | .failed => 0

def Stage.rank : Stage → ℕ
  | .queued => 5
  | .running => 4
  | .decided _ => 3
  | .counted _ => 2
  | .finished | .failed => 1
  | .collected => 0

def Phase.rank (n : ℕ) : Phase → ℕ
  | .submitting k => n - k + 2
  | .collecting => 1
  | .returned => 0

/-- What a step does: the main thread goes on, or the call for one question does. -/
inductive Effect (u : Unicode) (tiku : Tiku) (s : State items.length) : State items.length → Prop
  | main (next : Phase) (later : next.rank items.length < s.phase.rank items.length)
      (returned : next = .returned → ∀ i, s.stage i = .collected) :
      Effect u tiku s { s with phase := next }
  | call (i : Fin items.length) (next : Stage) (q : Question) (found : ℕ)
      (later : next.rank < (s.stage i).rank)
      (sound : Sound u tiku items[i] (s.question i) (s.stage i) → Sound u tiku items[i] q next)
      (count : Sound u tiku items[i] (s.question i) (s.stage i) →
        found + tally (s.question i) (s.stage i) = s.found + tally q next) :
      Effect u tiku s ({ (s.write i q) with found := found }.goto i next)

theorem write_self (s : State items.length) (i : Fin items.length) : s.write i (s.question i) = s := by
  simp only [State.write, Function.update_eq_self]

theorem chosen_answers {item : Item} {res : Option String} (h : item.reply = .answers res) :
    item.chosen u tiku = item.handled u tiku res := by
  rw [Item.chosen, h]

theorem chosen_raises {item : Item} (h : item.reply = .raises) :
    item.chosen u tiku = (.random, fallbackAnswer item) := by
  rw [Item.chosen, h]

theorem settled_answers {item : Item} {res : Option String} (h : item.reply = .answers res) :
    item.settled u tiku =
      (item.question.mark (item.handled u tiku res).1).store (item.handled u tiku res).2 := by
  rw [Item.settled, chosen_answers h]

theorem settled_raises {item : Item} (h : item.reply = .raises) :
    item.settled u tiku = (item.question.mark .random).store (fallbackAnswer item) := by
  rw [Item.settled, chosen_raises h]

/-- The question stays as it is. -/
theorem Effect.goto (i : Fin items.length) (next : Stage) (found : ℕ)
    (later : next.rank < (s.stage i).rank)
    (sound : Sound u tiku items[i] (s.question i) (s.stage i) →
      Sound u tiku items[i] (s.question i) next)
    (count : Sound u tiku items[i] (s.question i) (s.stage i) →
      found + tally (s.question i) (s.stage i) = s.found + tally (s.question i) next) :
    Effect u tiku s ({ s with found := found }.goto i next) := by
  have hcall := Effect.call i next (s.question i) found later sound count
  rw [write_self] at hcall
  exact hcall

theorem step_effect {a : Action items.length} (taken : step u tiku workers items s a = some t) :
    Effect u tiku s t := by
  cases a with
  | submit =>
    simp only [step] at taken
    cases hphase : s.phase with
    | submitting k =>
      simp only [hphase, Option.some_inj] at taken
      rw [← taken]
      apply Effect.main
      · rw [hphase]
        split_ifs
        · simp only [Phase.rank]
          omega
        · simp only [Phase.rank]
          omega
      · intro hreturned
        split_ifs at hreturned
    | _ => simp only [hphase, reduceCtorEq] at taken
  | begin i =>
    simp only [step] at taken
    split_ifs at taken with hready
    obtain rfl := Option.some_inj.mp taken
    apply Effect.goto i .running s.found
    · rw [hready.2.1]
      decide
    · rw [hready.2.1]
      exact id
    · intro _
      rw [hready.2.1]
      rfl
  | query i =>
    simp only [step] at taken
    cases hstage : s.stage i with
    | running =>
      cases hreply : items[i].reply with
      | answers res =>
        simp only [hstage, hreply, Option.some_inj] at taken
        rw [← taken]
        apply Effect.call i _ _ s.found
        · rw [hstage]
          exact Nat.lt_succ_self 3
        · rw [hstage]
          intro hsound
          have hquestion : s.question i = items[i].question := hsound
          exact ⟨res, hreply, by rw [hquestion], rfl⟩
        · rw [hstage]
          exact fun _ => rfl
      | raises =>
        simp only [hstage, hreply, Option.some_inj] at taken
        rw [← taken]
        apply Effect.goto i .failed s.found
        · rw [hstage]
          decide
        · rw [hstage]
          exact fun hsound => ⟨hsound, hreply⟩
        · rw [hstage]
          exact fun _ => rfl
    | _ => simp only [hstage, reduceCtorEq] at taken
  | count i =>
    simp only [step] at taken
    cases hstage : s.stage i with
    | decided answer =>
      simp only [hstage] at taken
      split_ifs at taken with hcover
      obtain rfl := Option.some_inj.mp taken
      apply Effect.goto i _ (s.found + 1)
      · rw [hstage]
        exact Nat.lt_succ_self 2
      · rw [hstage]
        exact id
      · rw [hstage]
        intro _
        simp only [tally, if_pos hcover]
    | _ => simp only [hstage, reduceCtorEq] at taken
  | store i =>
    have hstored : ∀ answer, Sound u tiku items[i] (s.question i) (.decided answer) →
        (s.question i).store answer = items[i].settled u tiku := by
      rintro answer ⟨res, hreply, hquestion, hanswer⟩
      rw [settled_answers hreply, hquestion, hanswer]
    simp only [step] at taken
    cases hstage : s.stage i with
    | decided answer =>
      simp only [hstage] at taken
      split_ifs at taken with hcover
      obtain rfl := Option.some_inj.mp taken
      apply Effect.call i .finished _ s.found
      · rw [hstage]
        exact Nat.one_lt_succ_succ 1
      · rw [hstage]
        exact hstored answer
      · rw [hstage]
        have hnot : ¬ isCover ((s.question i).store answer) = true := hcover
        simp only [tally, if_neg hnot, implies_true]
    | counted answer =>
      simp only [hstage, Option.some_inj] at taken
      rw [← taken]
      apply Effect.call i .finished _ s.found
      · rw [hstage]
        exact Nat.lt_succ_self 1
      · rw [hstage]
        exact hstored answer
      · rw [hstage]
        exact fun _ => rfl
    | _ => simp only [hstage, reduceCtorEq] at taken
  | collect i =>
    simp only [step] at taken
    split_ifs at taken with hcollecting
    cases hstage : s.stage i with
    | finished =>
      simp only [hstage, Option.some_inj] at taken
      rw [← taken]
      apply Effect.goto i .collected s.found
      · rw [hstage]
        decide
      · rw [hstage]
        exact id
      · rw [hstage]
        exact fun _ => rfl
    | failed =>
      simp only [hstage, Option.some_inj] at taken
      rw [← taken]
      apply Effect.call i .collected _ s.found
      · rw [hstage]
        decide
      · rw [hstage]
        rintro ⟨hquestion, hreply⟩
        rw [hquestion]
        exact (settled_raises hreply).symm
      · rw [hstage]
        exact fun _ => rfl
    | _ => simp only [hstage, reduceCtorEq] at taken
  | leave =>
    simp only [step] at taken
    split_ifs at taken with hready
    obtain rfl := Option.some_inj.mp taken
    apply Effect.main
    · rw [hready.1]
      exact Nat.zero_lt_one
    · exact fun _ => hready.2

structure Inv (u : Unicode) (tiku : Tiku) (s : State items.length) : Prop where
  sound : ∀ i, Sound u tiku (items.get i) (s.question i) (s.stage i)
  found : s.found = ∑ i, tally (s.question i) (s.stage i)
  ended : s.phase = .returned → ∀ i, s.stage i = .collected

theorem Inv.preserved {a : Action items.length} (h : Inv u tiku s)
    (taken : step u tiku workers items s a = some t) : Inv u tiku t := by
  cases step_effect taken with
  | main next later returned => exact ⟨h.sound, h.found, returned⟩
  | call i next q found later sound count =>
    refine ⟨fun j => ?_, ?_, fun hreturned => ?_⟩
    · by_cases hj : j = i
      · subst hj
        simp only [State.goto, State.write, Function.update_self]
        exact sound (h.sound j)
      · simp only [State.goto, State.write, Function.update_of_ne hj]
        exact h.sound j
    · have hcount := count (h.sound i)
      have hsum := load_update (fun p : Question × Stage => tally p.1 p.2)
        (fun j => (s.question j, s.stage j)) i (q, next)
      have hpair : (fun j => (Function.update s.question i q j, Function.update s.stage i next j)) =
          Function.update (fun j => (s.question j, s.stage j)) i (q, next) := by
        funext j
        by_cases hj : j = i
        · rw [hj, Function.update_self, Function.update_self, Function.update_self]
        · rw [Function.update_of_ne hj, Function.update_of_ne hj, Function.update_of_ne hj]
      rw [← hpair] at hsum
      have hfound := h.found
      simp only [load] at hsum
      simp only [State.goto, State.write]
      omega
    · have hcollected := h.ended hreturned i
      rw [hcollected] at later
      cases later

theorem Inv.of_reachable (h : (machine u tiku workers items).Reachable Machine.free s) :
    Inv u tiku s := by
  apply h.invariant
  · rintro s ⟨hphase, hstage, hfound, hquestion⟩
    refine ⟨fun i => ?_, ?_, fun hreturned => ?_⟩
    · rw [hstage, hquestion]
      rfl
    · rw [hfound]
      simp [hstage, tally]
    · rw [hphase] at hreturned
      cases hreturned
  · intro s a t hinv _ taken
    exact hinv.preserved taken

/-- The number of steps that the call can still take. -/
def State.remaining (s : State items.length) : ℕ := s.phase.rank items.length + load Stage.rank s.stage

theorem remaining_lt {a : Action items.length} (taken : step u tiku workers items s a = some t) :
    t.remaining < s.remaining := by
  cases step_effect taken with
  | main next later returned =>
    simp only [State.remaining]
    omega
  | call i next q found later sound count =>
    have hload := load_update Stage.rank s.stage i next
    simp only [State.remaining, State.goto, State.write]
    omega

theorem length_le_remaining {actions : List (Action items.length)}
    (h : (machine u tiku workers items).exec s actions = some t) :
    actions.length + t.remaining ≤ s.remaining := by
  induction actions generalizing s with
  | nil =>
    obtain rfl : s = t := by simpa [Machine.exec] using h
    simp
  | cons a actions ih =>
    rw [Machine.exec_cons] at h
    obtain ⟨m, taken, rest⟩ := Option.bind_eq_some_iff.mp h
    have hrest := ih rest
    have hfirst := remaining_lt taken
    rw [List.length_cons]
    omega

theorem busy_enabled {i : Fin items.length} (h : (s.stage i).busy = true) :
    ∃ a t, step u tiku workers items s a = some t := by
  cases hstage : s.stage i with
  | running =>
    refine ⟨.query i, ?_⟩
    simp only [step, hstage]
    cases items[i].reply with
    | answers res => exact ⟨_, rfl⟩
    | raises => exact ⟨_, rfl⟩
  | decided answer =>
    by_cases hcover : isCover (s.question i) = true
    · exact ⟨.count i, by simp only [step, hstage, if_pos hcover]; exact ⟨_, rfl⟩⟩
    · exact ⟨.store i, by simp only [step, hstage, if_neg hcover]; exact ⟨_, rfl⟩⟩
  | counted answer => exact ⟨.store i, by simp only [step, hstage]; exact ⟨_, rfl⟩⟩
  | queued | finished | failed | collected =>
    rw [hstage] at h
    cases h

/-- As long as the call has not returned, it goes on. -/
theorem step_enabled (hworkers : 0 < workers) (h : s.phase ≠ .returned) :
    ∃ a t, step u tiku workers items s a = some t := by
  cases hphase : s.phase with
  | submitting k => exact ⟨.submit, by simp only [step, hphase]; exact ⟨_, rfl⟩⟩
  | returned => exact absurd hphase h
  | collecting =>
    by_cases hall : ∀ i, s.stage i = .collected
    · exact ⟨.leave, by simp only [step, if_pos (And.intro hphase hall)]; exact ⟨_, rfl⟩⟩
    · obtain ⟨i, hi⟩ := not_forall.mp hall
      cases hstage : s.stage i with
      | queued =>
        by_cases hbusy : s.busyWorkers < workers
        · refine ⟨.begin i, s.goto i .running, ?_⟩
          have hsubmitted : s.submitted i = true := by simp only [State.submitted, hphase]
          simp only [step, if_pos (And.intro hsubmitted (And.intro hstage hbusy))]
        · have hne : s.busyWorkers ≠ 0 := by omega
          rw [State.busyWorkers, Ne, load_eq_zero, not_forall] at hne
          obtain ⟨j, hj⟩ := hne
          exact busy_enabled (i := j) (by simpa using hj)
      | running | decided answer | counted answer =>
        exact busy_enabled (i := i) (by rw [hstage]; rfl)
      | finished => exact ⟨.collect i, by simp only [step, if_pos hphase, hstage]; exact ⟨_, rfl⟩⟩
      | failed => exact ⟨.collect i, by simp only [step, if_pos hphase, hstage]; exact ⟨_, rfl⟩⟩
      | collected => exact absurd hstage hi

theorem sum_eq_countP (questions : List Question) :
    (questions.map fun q => if isCover q = true then 1 else 0).sum = questions.countP isCover := by
  induction questions with
  | nil => rfl
  | cons q questions ih =>
    rw [List.map_cons, List.sum_cons, List.countP_cons, ih]
    omega

/-- What a call that has returned leaves. -/
theorem Inv.returned (h : Inv u tiku s) (returned : s.phase = .returned) :
    s.questions = items.map (Item.settled u tiku) ∧
      s.found = (items.map (Item.settled u tiku)).countP isCover := by
  have hcollected := h.ended returned
  have hquestion : ∀ i, s.question i = items[i].settled u tiku := by
    intro i
    have hsound := h.sound i
    rw [hcollected i] at hsound
    exact hsound
  constructor
  · have hfun : s.question = fun i => items[i].settled u tiku := funext hquestion
    rw [State.questions, hfun]
    exact List.ofFn_getElem_eq_map items (Item.settled u tiku)
  · have hsum := Fin.sum_univ_fun_getElem items fun item =>
      if isCover (item.settled u tiku) = true then 1 else 0
    rw [← sum_eq_countP, List.map_map]
    refine h.found.trans (Eq.trans ?_ hsum)
    apply Finset.sum_congr rfl
    intro i _
    rw [hcollected i, hquestion i]
    rfl

end Concurrent

section Law
variable (u : Unicode) (tiku : Tiku)

/-- A question after `process_questions`. -/
structure FilledIn (item : Item) (q : Question) : Prop where
  id : q.id = item.question.id
  typeCode : q.typeCode = item.question.typeCode
  source : q.answerSource = some (item.chosen u tiku).1
  answer : q.answerField.get (answerKey q.id) = some (item.chosen u tiku).2

/-- The questions and the rate that `process_questions` leaves, and the form after
`fill_answers_into_form`. -/
structure Filled (items : List Item) (questions : List Question) (rate : Option ℚ) : Prop where
  answered : List.Forall₂ (FilledIn u tiku) items questions
  rate : rate = some (100 * (questions.countP isCover : ℚ) / questions.length)
  form : ∀ isSave form, ∀ q ∈ questions, ∀ answer, q.answerField.get (answerKey q.id) = some answer →
    fillAnswersIntoForm questions isSave form (answerKey q.id) =
        some (if isSave = true ∧ q.answerSource = some .random then "" else answer) ∧
      fillAnswersIntoForm questions isSave form (answertypeKey q.id) = some q.typeCode

/-- No question has an answer field for an earlier one. -/
def Unpolluted (items : List Item) : Prop :=
  items.Pairwise fun p q => p.question.id ≠ q.question.id →
    q.question.answerField.get (answerKey p.question.id) = none ∧
      q.question.answerField.get (answertypeKey p.question.id) = none

inductive Mode
  | sequential
  | concurrent (aiConcurrency : Option ℤ)

/-- The call returns, in the concurrent mode whatever the order of its steps, and fills in every
question. -/
def Law (items : List Item) : Mode → Prop
  | .sequential => ∃ questions found, processSequential u tiku items [] 0 = some (questions, found) ∧
      Filled u tiku items questions (coverRate found items.length)
  | .concurrent aiConcurrency =>
    let M := machine u tiku (concurrency aiConcurrency) items
    (∃ bound, ∀ s actions t, M.start s → M.exec s actions = some t → actions.length ≤ bound) ∧
      ∀ t, M.Reachable Machine.free t →
        (t.phase ≠ .returned → ∃ a next, M.step t a = some next) ∧
          (t.phase = .returned →
            Filled u tiku items t.questions (coverRate t.found items.length))

/-- The mode is the concurrent one, or no provider raises. -/
def Handles (items : List Item) : Mode → Prop
  | .sequential => ∀ item ∈ items, ∃ res, item.reply = .answers res
  | .concurrent _ => True

variable {u tiku}

theorem settled_absent {item : Item} {key : String} (h : item.question.answerField.get key = none) :
    (item.settled u tiku).answerField.get key = none := by
  have hne : key ≠ answerKey item.question.id := by
    rintro rfl
    obtain ⟨answer, hanswer⟩ := item.question.asked
    rw [h] at hanswer
    cases hanswer
  change (item.question.answerField.set (answerKey item.question.id) _).get key = none
  rw [OrderedDict.get_set, if_neg hne, h]

theorem filledIn_settled (item : Item) : FilledIn u tiku item (item.settled u tiku) := by
  refine ⟨rfl, rfl, rfl, ?_⟩
  change (item.question.answerField.set (answerKey item.question.id) _).get
    (answerKey item.question.id) = _
  rw [OrderedDict.get_set, if_pos rfl]

theorem filled_settled {items : List Item} (given : items ≠ [])
    (distinct : (items.map fun item => item.question.id).Nodup) (unpolluted : Unpolluted items) :
    Filled u tiku items (items.map (Item.settled u tiku))
      (coverRate ((items.map (Item.settled u tiku)).countP isCover) items.length) where
  answered := by
    rw [List.forall₂_map_right_iff, List.forall₂_same]
    exact fun item _ => filledIn_settled item
  rate := by
    have hlength : items.length ≠ 0 := fun h => given (List.length_eq_zero_iff.mp h)
    rw [coverRate, if_neg hlength, List.length_map, mul_comm, mul_div_assoc]
  form := by
    intro isSave form q hq answer hanswer
    obtain ⟨item, hitem, rfl⟩ := List.mem_map.mp hq
    obtain ⟨before, after, rfl⟩ := List.append_of_mem hitem
    have hlater : ∀ p ∈ after.map (Item.settled u tiku),
        p.answerField.get (answerKey item.question.id) = none ∧
          p.answerField.get (answertypeKey item.question.id) = none := by
      intro p hp
      obtain ⟨other, hother, rfl⟩ := List.mem_map.mp hp
      rw [List.map_append, List.map_cons] at distinct
      have hids := (List.nodup_cons.mp distinct.of_append_right).1
      have hid : item.question.id ≠ other.question.id := by
        intro hsame
        exact hids (hsame ▸ List.mem_map_of_mem hother)
      have hpairs := (List.pairwise_append.mp unpolluted).2.1
      obtain ⟨hkey, htypeKey⟩ := (List.pairwise_cons.mp hpairs).1 other hother hid
      exact ⟨settled_absent hkey, settled_absent htypeKey⟩
    have hsource : (item.settled u tiku).answerSource ≠ some .cover ↔
        (item.settled u tiku).answerSource = some .random := by
      change some (item.chosen u tiku).1 ≠ some .cover ↔ some (item.chosen u tiku).1 = some .random
      cases (item.chosen u tiku).1 <;> simp
    have hvalue : (if isSave = true ∧ (item.settled u tiku).answerSource ≠ some .cover then ""
          else answer) =
        if isSave = true ∧ (item.settled u tiku).answerSource = some .random then "" else answer :=
      if_congr (and_congr_right fun _ => hsource) rfl rfl
    rw [List.map_append, List.map_cons]
    constructor
    · rw [← hvalue]
      exact fill_present (fun _ => fillQuestion_answer hanswer) fun p hp => (hlater p hp).1
    · exact fill_present (fun _ => fillQuestion_answertype _) fun p hp => (hlater p hp).2

theorem processSequential_settled {items : List Item}
    (h : ∀ item ∈ items, ∃ res, item.reply = .answers res) (done : List Question) (found : ℕ) :
    processSequential u tiku items done found = some (done ++ items.map (Item.settled u tiku),
      found + (items.map (Item.settled u tiku)).countP isCover) := by
  induction items generalizing done found with
  | nil => simp [processSequential]
  | cons item items ih =>
    obtain ⟨res, hreply⟩ := h item List.mem_cons_self
    have hrest := ih fun x hx => h x (List.mem_cons_of_mem item hx)
    simp only [processSequential, hreply]
    rw [hrest, List.append_assoc, List.map_cons, List.countP_cons, List.singleton_append]
    by_cases hcover : isCover (item.settled u tiku) = true
    · rw [if_pos hcover, if_pos hcover]
      congr 2
      omega
    · rw [if_neg hcover, if_neg hcover]
      congr 2

theorem processSequential_answers {items : List Item} {done : List Question} {found : ℕ}
    {result : List Question × ℕ} (h : processSequential u tiku items done found = some result) :
    ∀ item ∈ items, ∃ res, item.reply = .answers res := by
  induction items generalizing done found with
  | nil => simp
  | cons item items ih =>
    cases hreply : item.reply with
    | answers res =>
      simp only [processSequential, hreply] at h
      intro x hx
      rcases List.mem_cons.mp hx with rfl | hrest
      · exact ⟨res, hreply⟩
      · exact ih h x hrest
    | raises => simp only [processSequential, hreply, reduceCtorEq] at h

theorem concurrency_pos (aiConcurrency : Option ℤ) : 0 < concurrency aiConcurrency := by
  rw [concurrency]
  omega

theorem concurrent_law {items : List Item} (given : items ≠ [])
    (distinct : (items.map fun item => item.question.id).Nodup) (unpolluted : Unpolluted items)
    (aiConcurrency : Option ℤ) : Law u tiku items (.concurrent aiConcurrency) := by
  refine ⟨⟨(Phase.submitting 0).rank items.length +
    load Stage.rank fun _ : Fin items.length => Stage.queued, ?_⟩, ?_⟩
  · rintro s actions t ⟨hphase, hstage, -, -⟩ hexec
    have hlength := length_le_remaining hexec
    rw [State.remaining, State.remaining, hphase, funext hstage] at hlength
    omega
  · intro t hreach
    refine ⟨step_enabled (concurrency_pos aiConcurrency), fun hreturned => ?_⟩
    obtain ⟨hquestions, hfound⟩ := (Inv.of_reachable hreach).returned hreturned
    rw [hquestions, hfound]
    exact filled_settled given distinct unpolluted

variable (u tiku)

theorem quiz_filled (mode : Mode) (items : List Item) (given : items ≠ [])
    (distinct : (items.map fun item => item.question.id).Nodup) :
    (Unpolluted items → (Law u tiku items mode ↔ Handles items mode)) ∧
      (Law u tiku items mode → Handles items mode) := by
  have hnecessary : Law u tiku items mode → Handles items mode := by
    cases mode with
    | sequential =>
      rintro ⟨questions, found, hprocessed, -⟩
      exact processSequential_answers hprocessed
    | concurrent aiConcurrency => exact fun _ => trivial
  refine ⟨fun unpolluted => ⟨hnecessary, fun handles => ?_⟩, hnecessary⟩
  cases mode with
  | sequential =>
    refine ⟨_, _, processSequential_settled handles [] 0, ?_⟩
    rw [List.nil_append, Nat.zero_add]
    exact filled_settled given distinct unpolluted
  | concurrent aiConcurrency => exact concurrent_law given distinct unpolluted aiConcurrency

/-- A disabled bank. -/
def noBank : Tiku := initTiku .tikuYanxi none false

def singleDiv (id : String) (inputs : List (String × String)) : QuestionDiv where
  data := id
  typeCode := "2"
  choices := []
  inputs := inputs

def itemOf (div : QuestionDiv) (reply : Reply) : Item :=
  ⟨processQuestion div, reply, Chance.pick 0, Chance.pick 0⟩

/-- The provider answers the first question and raises for the second one. -/
def twoQuestions : List Item :=
  [itemOf (singleDiv "12" []) (.answers (some "x")), itemOf (singleDiv "34" []) .raises]

theorem quiz_filled_concurrent : Law chineseAndLatin noBank twoQuestions (.concurrent (some 3)) :=
  ((quiz_filled chineseAndLatin noBank (.concurrent (some 3)) twoQuestions (by decide)
    (by decide)).1 (by unfold Unpolluted; decide)).mpr trivial

/-- The first of these questions is filled in again by the second one. -/
def overlappingFields : List Item :=
  [itemOf (singleDiv "123" []) (.answers (some "x")),
    itemOf (singleDiv "12" [("answer123", "")]) (.answers (some "y"))]

theorem quiz_not_filled : ¬ Law chineseAndLatin noBank twoQuestions .sequential ∧
    ¬ Law chineseAndLatin noBank overlappingFields .sequential := by
  constructor
  · rintro ⟨questions, found, hprocessed, -⟩
    cases hprocessed
  · rintro ⟨questions, found, hprocessed, hfilled⟩
    cases hprocessed
    have hform := (hfilled.form false (fun _ => none) _ List.mem_cons_self "x" rfl).1
    revert hform
    decide

end Law
end UniversityHelper.Quiz
